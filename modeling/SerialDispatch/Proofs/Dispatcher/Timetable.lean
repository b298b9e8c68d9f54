import SerialDispatch.Proofs.Dispatcher.Caller

/-!
# The timetable of the worker

When the worker takes a dispatch, looks at its token, constructs its operation and is done with it
follows from when it was done with the dispatch before. `Timely` says so of a history and of the
stage that the worker is at. This module shows that every move of the worker keeps to the
timetable.
-/
namespace SerialDispatch

/-- How long the worker waits before it looks at the token of a task. -/
def Setup.window (S : Setup) (task : Task) : Nat :=
  if task.waits then min S.config.quiescence Timer.longest else 0

/-- The time that a body takes, given what it sees each time it looks whether it is cancelled. -/
def BodyStep.duration : List BodyStep → List Bool → Nat
  | [], _ => 0
  | .work time :: rest, looks => time + duration rest looks
  | .poll :: rest, looks => duration rest looks.tail
  | .stopIfCancelled _ :: rest, looks =>
    if looks.headD false then 0 else duration rest looks.tail
  | .panic :: _, _ => 0
  | .finish .. :: _, _ => 0
  | .progress _ :: rest, looks => duration rest looks
  | .prevent :: rest, looks => duration rest looks
  | .flush :: rest, looks => duration rest looks
  | .leak :: rest, looks => duration rest looks
  | .store _ :: rest, looks => duration rest looks
  | .command _ :: rest, looks => duration rest looks
  | .shutdown :: rest, looks => duration rest looks
  | .unreadable _ _ :: rest, looks => duration rest looks

/-- The time that the operation of construction `n` takes; none, if the construction panics. -/
def Setup.bodyTime (S : Setup) (n : Nat) (request : Request) (looks : List Bool) : Nat :=
  if S.breaks n request.kind then 0 else BodyStep.duration (S.body request) looks

/-- A milestone that a dispatch has reached, and when. -/
structure Moment where
  task : Task
  milestone : Milestone
  time : Nat
  deriving DecidableEq

namespace Milestone

def isSubmitted : Milestone → Bool
  | .submitted _ => true
  | _ => false

theorem isSubmitted_iff {milestone : Milestone} :
    milestone.isSubmitted = true ↔ ∃ callback, milestone = .submitted callback := by
  cases milestone <;> simp [isSubmitted]

def isTaken : Milestone → Bool
  | .taken => true
  | _ => false

def isChecked : Milestone → Bool
  | .checked _ => true
  | _ => false

def isConstructed : Milestone → Bool
  | .constructed _ => true
  | _ => false

/-- Whether the worker is done with the dispatch: its operation is over, or is not to be run. -/
def isRelease : Milestone → Bool
  | .checked cancelled => cancelled
  | .returned _ => true
  | _ => false

/-- What an operation saw that looked whether it is cancelled. -/
def looked? : Milestone → Option Bool
  | .looked value => some value
  | _ => none

end Milestone

/-- What the worker logs when a dispatch reaches a milestone. -/
def Moment.entries (S : Setup) (m : Moment) : List LogRecord :=
  match m.milestone with
  | .taken =>
    if m.task.waits && S.config.quiescence ≠ 0 then
      [⟨m.time, some m.task.span, .waiting S.config.quiescence⟩]
    else []
  | .checked true => [⟨m.time, some m.task.span, .cancelledBeforeStart⟩]
  | .returned none => [⟨m.time, some m.task.span, .operationPanicked⟩,
      ⟨m.time, some m.task.span, .operationComplete (Result.ofPanic m.task.request.kind).status⟩]
  | .returned (some result) =>
    [⟨m.time, some m.task.span, .operationComplete result.status⟩]
  | _ => []

namespace Happening

def moment? : Happening → Option Moment
  | .reached task milestone time => some ⟨task, milestone, time⟩
  | _ => none

/-- What the worker logs within the span of a dispatch. -/
def entry? : Happening → Option LogRecord
  | .log ⟨time, some span, event⟩ => some ⟨time, some span, event⟩
  | _ => none

/-- What happens while the worker stays where it is: dispatches may be submitted. -/
def Passing (clock : Nat) (h : Happening) : Prop :=
  h.entry? = none ∧ ∀ m, h.moment? = some m → m.milestone.isSubmitted = true ∧ m.time = clock

end Happening

section Views

variable (history more : List Happening) (h : Happening) (id : DispatchId)

/-- All milestones of a history, in order. -/
def momentsIn : List Moment := history.filterMap Happening.moment?

/-- What the worker has logged within the spans of dispatches, in order. -/
def entriesIn : List LogRecord := history.filterMap Happening.entry?

/-- What a dispatch has seen each time it looked whether it is cancelled. -/
def looksIn : List Bool := (milestonesIn history id).filterMap Milestone.looked?

/-- The dispatches in order of submission. -/
def submittedIn : List Moment := (momentsIn history).filter fun m => m.milestone.isSubmitted

/-- The dispatches in the order in which the worker took them. -/
def takenIn : List Moment := (momentsIn history).filter fun m => m.milestone.isTaken

/-- The dispatches in the order in which their tokens were looked at. -/
def checkedIn : List Moment := (momentsIn history).filter fun m => m.milestone.isChecked

def constructedIn : List Moment := (momentsIn history).filter fun m => m.milestone.isConstructed

/-- The dispatches in the order in which the worker was done with them. -/
def releasedIn : List Moment := (momentsIn history).filter fun m => m.milestone.isRelease

@[simp] theorem momentsIn_append : momentsIn (history ++ more) =
    momentsIn history ++ momentsIn more := List.filterMap_append

@[simp] theorem entriesIn_append : entriesIn (history ++ more) =
    entriesIn history ++ entriesIn more := List.filterMap_append

@[simp] theorem looksIn_append : looksIn (history ++ more) id =
    looksIn history id ++ looksIn more id := by
  simp [looksIn, List.filterMap_append]

@[simp] theorem submittedIn_append : submittedIn (history ++ more) =
    submittedIn history ++ submittedIn more := by
  simp [submittedIn]

@[simp] theorem takenIn_append : takenIn (history ++ more) = takenIn history ++ takenIn more := by
  simp [takenIn]

@[simp] theorem checkedIn_append : checkedIn (history ++ more) =
    checkedIn history ++ checkedIn more := by
  simp [checkedIn]

@[simp] theorem constructedIn_append : constructedIn (history ++ more) =
    constructedIn history ++ constructedIn more := by
  simp [constructedIn]

@[simp] theorem releasedIn_append : releasedIn (history ++ more) =
    releasedIn history ++ releasedIn more := by
  simp [releasedIn]

end Views

/-- When the worker is free for the dispatch with so many before it: when it is done with the last
of these. -/
def freeAt (released : List Moment) : Nat → Option Nat
  | 0 => some 0
  | k + 1 => released[k]?.map Moment.time

/-- What a milestone says of the history before it. -/
def Moment.Punctual (S : Setup) (before : List Happening) (m : Moment) : Prop :=
  match m.milestone with
  | .taken => ∃ sub free, (submittedIn before)[(takenIn before).length]? = some sub ∧
      sub.task = m.task ∧ freeAt (releasedIn before) (takenIn before).length = some free ∧
      m.time = max sub.time free
  | .checked _ => (checkedIn before).length = (releasedIn before).length ∧
      ∃ t, (takenIn before)[(checkedIn before).length]? = some t ∧ t.task = m.task ∧
        m.time = t.time + S.window m.task
  | .returned _ => ∃ n start,
      (checkedIn before)[(releasedIn before).length]? = some ⟨m.task, .checked false, start⟩ ∧
      ⟨m.task, .constructed n, start⟩ ∈ momentsIn before ∧
      m.time = start + S.bodyTime n m.task.request (looksIn before m.task.id)
  | _ => True

/-- Every milestone of a history is reached in time. -/
def Punctually (S : Setup) (history : List Happening) : Prop :=
  ∀ before task milestone time after, history = before ++ .reached task milestone time :: after →
    Moment.Punctual S before ⟨task, milestone, time⟩

/-- Where the worker is, by what it has taken and is done with, and when it goes on. -/
def Stage.Timely (S : Setup) (history : List Happening) (clock : Nat) : Stage → Prop
  | .idle => (takenIn history).length = (releasedIn history).length ∧
      (checkedIn history).length = (releasedIn history).length ∧
      ∀ sub free, (submittedIn history)[(takenIn history).length]? = some sub →
        freeAt (releasedIn history) (takenIn history).length = some free →
        clock = max sub.time free
  | .window task wake => (takenIn history).length = (releasedIn history).length + 1 ∧
      (checkedIn history).length = (releasedIn history).length ∧ clock ≤ wake ∧
      ∃ start, (takenIn history)[(releasedIn history).length]? = some ⟨task, .taken, start⟩ ∧
        wake = start + S.window task
  | .ready task => (takenIn history).length = (releasedIn history).length + 1 ∧
      (checkedIn history).length = (releasedIn history).length + 1 ∧
      (checkedIn history)[(releasedIn history).length]? = some ⟨task, .checked false, clock⟩
  | .running task n rest wake => (takenIn history).length = (releasedIn history).length + 1 ∧
      (checkedIn history).length = (releasedIn history).length + 1 ∧ clock ≤ wake ∧
      ∃ start elapsed,
        (checkedIn history)[(releasedIn history).length]? = some ⟨task, .checked false, start⟩ ∧
        ⟨task, .constructed n, start⟩ ∈ momentsIn history ∧ wake = start + elapsed ∧
        ∀ looks, S.bodyTime n task.request (looksIn history task.id ++ looks) =
          elapsed + BodyStep.duration rest looks
  | .leaving _ _ => (takenIn history).length = (releasedIn history).length ∧
      (checkedIn history).length = (releasedIn history).length ∧
      freeAt (releasedIn history) (takenIn history).length = some clock
  | .ended => (takenIn history).length = (releasedIn history).length ∧
      (checkedIn history).length = (releasedIn history).length
  | .dead => True

/-- Whether the worker has nothing to do before a time. -/
def Stage.Rests (waiting : List Task) (time : Nat) : Stage → Prop
  | .idle => waiting = []
  | .window _ wake => time ≤ wake
  | .running _ _ _ wake => time ≤ wake
  | .ready _ => False
  | .leaving _ _ => False
  | .ended => True
  | .dead => True

/-- What the worker has still to log. -/
def Stage.pending (S : Setup) (clock : Nat) : Stage → List LogRecord
  | .leaving task result => Moment.entries S ⟨task, .returned result, clock⟩
  | _ => []

/-- The operation that the worker has still to construct. -/
def Stage.unmade (clock : Nat) : Stage → List (Task × Nat)
  | .ready task => [(task, clock)]
  | _ => []

def Moment.at (m : Moment) : Task × Nat := (m.task, m.time)

/-- A history, the dispatches that wait, what the worker has still to log and its stage keep to the
timetable. -/
structure Timely (S : Setup) (history : List Happening) (clock : Nat) (waiting : List Task)
    (pending : List LogRecord) (stage : Stage) : Prop where
  punctual : Punctually S history
  past : ∀ m ∈ momentsIn history, m.time ≤ clock
  queue : stage.isOver = false →
    (submittedIn history).map Moment.task = (takenIn history).map Moment.task ++ waiting
  entries : entriesIn history ++ pending =
    (momentsIn history).flatMap (Moment.entries S)
  made : (constructedIn history).map Moment.at ++ stage.unmade clock =
    ((checkedIn history).filter fun m => m.milestone = .checked false).map Moment.at
  stage : stage.Timely S history clock

section Moments

variable {S : Setup} {history more : List Happening} {clock : Nat}

@[simp] theorem momentsIn_reached (task : Task) (milestone : Milestone) (time : Nat) :
    momentsIn [.reached task milestone time] = [⟨task, milestone, time⟩] := rfl

theorem momentsIn_cons (task : Task) (milestone : Milestone) (time : Nat) :
    momentsIn (.reached task milestone time :: more) = ⟨task, milestone, time⟩ :: momentsIn more :=
  rfl

@[simp] theorem looksIn_reached (task : Task) (milestone : Milestone) (time : Nat) :
    looksIn [.reached task milestone time] task.id = milestone.looked?.toList := by
  cases hl : milestone.looked? <;> simp [looksIn, milestonesIn, Happening.milestone?, hl]

theorem filter_reached (p : Milestone → Bool) (task : Task) (milestone : Milestone) (time : Nat) :
    ((momentsIn [.reached task milestone time]).filter fun m => p m.milestone) =
      if p milestone then [⟨task, milestone, time⟩] else [] := by
  cases h : p milestone <;> simp [h]

@[simp] theorem submittedIn_reached (task : Task) (milestone : Milestone) (time : Nat) :
    submittedIn [.reached task milestone time] =
      if milestone.isSubmitted then [⟨task, milestone, time⟩] else [] :=
  filter_reached Milestone.isSubmitted task milestone time

@[simp] theorem takenIn_reached (task : Task) (milestone : Milestone) (time : Nat) :
    takenIn [.reached task milestone time] =
      if milestone.isTaken then [⟨task, milestone, time⟩] else [] :=
  filter_reached Milestone.isTaken task milestone time

@[simp] theorem checkedIn_reached (task : Task) (milestone : Milestone) (time : Nat) :
    checkedIn [.reached task milestone time] =
      if milestone.isChecked then [⟨task, milestone, time⟩] else [] :=
  filter_reached Milestone.isChecked task milestone time

@[simp] theorem constructedIn_reached (task : Task) (milestone : Milestone) (time : Nat) :
    constructedIn [.reached task milestone time] =
      if milestone.isConstructed then [⟨task, milestone, time⟩] else [] :=
  filter_reached Milestone.isConstructed task milestone time

@[simp] theorem releasedIn_reached (task : Task) (milestone : Milestone) (time : Nat) :
    releasedIn [.reached task milestone time] =
      if milestone.isRelease then [⟨task, milestone, time⟩] else [] :=
  filter_reached Milestone.isRelease task milestone time

/-- Nothing is logged by reaching a milestone. -/
theorem entriesIn_append_reached (task : Task) (milestone : Milestone) (time : Nat) :
    entriesIn (history ++ [.reached task milestone time]) = entriesIn history :=
  (entriesIn_append ..).trans (List.append_nil _)

theorem Punctually.snoc {h : Happening} (punctual : Punctually S history)
    (next : ∀ m, h.moment? = some m → m.Punctual S history) : Punctually S (history ++ [h]) := by
  intro before task milestone time after split
  rcases List.eq_nil_or_concat after with rfl | ⟨rest, last, rfl⟩
  · obtain ⟨rfl, rfl⟩ := List.append_inj' split rfl |>.imp_right List.singleton_inj.1
    exact next _ rfl
  · have whole : history ++ [h] = (before ++ .reached task milestone time :: rest) ++ [last] := by
      simp [split]
    exact punctual _ _ _ _ _ (List.append_inj_left' whole rfl)

theorem Punctually.append (punctual : Punctually S history)
    (free : ∀ h ∈ more, ∀ before m, h.moment? = some m → m.Punctual S before) :
    Punctually S (history ++ more) := by
  induction more using List.reverseRecOn with
  | nil => rwa [List.append_nil]
  | append_singleton more h ih =>
    rw [← List.append_assoc]
    exact (ih fun x hx => free x (by simp [hx])).snoc (free h (by simp) _)

/-- Where a view of the moments shows nothing of what is added, it shows the same as before. -/
theorem filter_moments_eq_nil {p : Milestone → Bool}
    (none : ∀ m ∈ momentsIn more, p m.milestone = false) :
    ((momentsIn more).filter fun m => p m.milestone) = [] :=
  List.filter_eq_nil_iff.2 fun m hm => by simp [none m hm]

section Passing

variable (passing : ∀ h ∈ more, h.Passing clock)

include passing

theorem passing_moments {m : Moment} (hm : m ∈ momentsIn more) :
    m.milestone.isSubmitted = true ∧ m.time = clock := by
  obtain ⟨h, hmem, hmoment⟩ := List.mem_filterMap.1 hm
  exact (passing h hmem).2 m hmoment

theorem passing_filter {p : Milestone → Bool}
    (other : ∀ callback, p (.submitted callback) = false) :
    ((momentsIn more).filter fun m => p m.milestone) = [] := by
  refine filter_moments_eq_nil fun m hm => ?_
  obtain ⟨callback, hs⟩ := Milestone.isSubmitted_iff.1 (passing_moments passing hm).1
  rw [hs]
  exact other callback

theorem passing_entries : entriesIn more = [] :=
  List.filterMap_eq_nil_iff.2 fun h hmem => (passing h hmem).1

theorem passing_submitted : submittedIn more = momentsIn more :=
  List.filter_eq_self.2 fun _ hm => (passing_moments passing hm).1

theorem passing_looks (id : DispatchId) : looksIn more id = [] := by
  refine List.filterMap_eq_nil_iff.2 fun milestone hmem => ?_
  obtain ⟨before, task, time, after, rfl, -⟩ := mem_milestonesIn.1 hmem
  have submitted := (passing_moments passing (m := ⟨task, milestone, time⟩)
    (by simp [momentsIn_cons])).1
  obtain ⟨callback, rfl⟩ := Milestone.isSubmitted_iff.1 submitted
  rfl

end Passing

end Moments

theorem getElem?_append_of_some {α : Type} {first second : List α} {k : Nat} {a : α}
    (h : first[k]? = some a) : (first ++ second)[k]? = some a := by
  rw [List.getElem?_append_left (List.getElem?_eq_some_iff.1 h).1]
  exact h

theorem freeAt_append {released more : List Moment} {k free : Nat}
    (h : freeAt released k = some free) : freeAt (released ++ more) k = some free := by
  cases k with
  | zero => exact h
  | succ k =>
    obtain ⟨m, hm, rfl⟩ := Option.map_eq_some_iff.1 h
    exact congrArg (Option.map Moment.time) (getElem?_append_of_some hm)

theorem exists_freeAt {released : List Moment} {k : Nat} (done : k ≤ released.length) :
    ∃ free, freeAt released k = some free := by
  cases k with
  | zero => exact ⟨0, rfl⟩
  | succ k => exact ⟨_, by rw [freeAt, List.getElem?_eq_getElem done]; rfl⟩

namespace Timely

variable {S : Setup} {history more : List Happening} {clock : Nat} {waiting rest : List Task}
variable {pending : List LogRecord} {stage : Stage} {task : Task}

/-- The dispatch in front is the one behind those that were taken. -/
theorem front (timely : Timely S history clock (task :: rest) pending stage)
    (there : stage.isOver = false) :
    ∃ sub, (submittedIn history)[(takenIn history).length]? = some sub ∧ sub.task = task := by
  have queue := congrArg (fun l => l[(takenIn history).length]?) (timely.queue there)
  simp only [List.getElem?_map] at queue
  rw [List.getElem?_append_right (by simp)] at queue
  simp only [List.length_map, Nat.sub_self, List.getElem?_cons_zero] at queue
  obtain ⟨sub, hsub, htask⟩ := Option.map_eq_some_iff.1 queue
  exact ⟨sub, hsub, htask⟩

theorem le_of_freeAt {released : List Moment} {k free : Nat} (h : freeAt released k = some free) :
    k ≤ released.length := by
  cases k with
  | zero => exact Nat.zero_le _
  | succ k =>
    obtain ⟨m, hm, -⟩ := Option.map_eq_some_iff.1 h
    exact (List.getElem?_eq_some_iff.1 hm).1

/-- The worker was done with the last dispatch in the past. -/
theorem freeAt_le (timely : Timely S history clock waiting pending stage) {k free : Nat}
    (h : freeAt (releasedIn history) k = some free) : free ≤ clock := by
  cases k with
  | zero =>
    cases h
    exact Nat.zero_le _
  | succ k =>
    obtain ⟨m, hm, rfl⟩ := Option.map_eq_some_iff.1 h
    exact timely.past m (List.mem_filter.1 (List.mem_of_getElem? hm)).1

/-- Dispatches are submitted while the worker stays where it is. -/
theorem passing (timely : Timely S history clock waiting pending stage)
    (passing : ∀ h ∈ more, h.Passing clock) :
    Timely S (history ++ more) clock (waiting ++ (momentsIn more).map Moment.task) pending
      stage := by
  have taken : takenIn more = [] := passing_filter passing fun _ => rfl
  have checked : checkedIn more = [] := passing_filter passing fun _ => rfl
  have constructed : constructedIn more = [] := passing_filter passing fun _ => rfl
  have released : releasedIn more = [] := passing_filter passing fun _ => rfl
  have looks := passing_looks passing
  refine ⟨timely.punctual.append fun h hmem before m hm => ?_, fun m hm => ?_, fun there => ?_, ?_,
    ?_, ?_⟩
  · have submitted := ((passing h hmem).2 m hm).1
    obtain ⟨callback, hs⟩ := Milestone.isSubmitted_iff.1 submitted
    simp only [Moment.Punctual, hs]
  · rw [momentsIn_append] at hm
    rcases List.mem_append.1 hm with old | new
    · exact timely.past m old
    · exact Nat.le_of_eq (passing_moments passing new).2
  · rw [submittedIn_append, takenIn_append, List.map_append, timely.queue there, taken,
      passing_submitted passing, List.append_nil, List.append_assoc]
  · have none : (momentsIn more).flatMap (Moment.entries S) = [] := by
      refine List.flatMap_eq_nil_iff.2 fun m hm => ?_
      have submitted := (passing_moments passing hm).1
      obtain ⟨callback, hs⟩ := Milestone.isSubmitted_iff.1 submitted
      simp only [Moment.entries, hs]
    rw [entriesIn_append, passing_entries passing, List.append_nil, momentsIn_append,
      List.flatMap_append, none, List.append_nil]
    exact timely.entries
  · rw [constructedIn_append, constructed, checkedIn_append, checked, List.append_nil,
      List.append_nil]
    exact timely.made
  · have before := timely.stage
    unfold Stage.Timely at *
    cases stage with
    | idle =>
      simp only [takenIn_append, checkedIn_append, releasedIn_append, submittedIn_append, taken,
        checked, released, List.append_nil] at before ⊢
      obtain ⟨level, even, due⟩ := before
      refine ⟨level, even, fun sub free hsub hfree => ?_⟩
      by_cases old : (takenIn history).length < (submittedIn history).length
      · rw [List.getElem?_append_left old] at hsub
        exact due sub free hsub hfree
      · rw [List.getElem?_append_right (Nat.le_of_not_lt old), passing_submitted passing] at hsub
        have hnew := (passing_moments passing (List.mem_of_getElem? hsub)).2
        have hle := timely.freeAt_le hfree
        omega
    | running task n rest wake =>
      simp only [takenIn_append, checkedIn_append, releasedIn_append, momentsIn_append,
        looksIn_append, taken, checked, released, looks, List.append_nil, List.mem_append]
      obtain ⟨level, even, early, start, elapsed, admitted, made, left⟩ := before
      exact ⟨level, even, early, start, elapsed, admitted, .inl made, left⟩
    | dead => trivial
    | _ =>
      simp only [takenIn_append, checkedIn_append, releasedIn_append, taken, checked, released,
        List.append_nil]
      exact before

theorem past_reached (timely : Timely S history clock waiting pending stage) (task : Task)
    (milestone : Milestone) :
    ∀ m ∈ momentsIn (history ++ [.reached task milestone clock]), m.time ≤ clock := by
  intro m hm
  rw [momentsIn_append, momentsIn_reached] at hm
  rcases List.mem_append.1 hm with old | new
  · exact timely.past m old
  · exact Nat.le_of_eq (congrArg Moment.time (List.mem_singleton.1 new))

/-- What the worker has still to log is logged. -/
theorem logged {record : LogRecord} {later : List LogRecord}
    (timely : Timely S history clock waiting (record :: later) stage)
    (within : record.span.isSome = true) :
    Timely S (history ++ [.log record]) clock waiting later stage := by
  have moments : momentsIn [.log record] = [] := rfl
  have entry : entriesIn [.log record] = [record] := by
    obtain ⟨time, span, event⟩ := record
    cases span with
    | none => cases within
    | some span => rfl
  have looks : ∀ id, looksIn [.log record] id = [] := fun _ => rfl
  refine ⟨timely.punctual.snoc (fun m hm => by cases hm), ?_, fun there => ?_, ?_, ?_, ?_⟩
  · rw [momentsIn_append, moments, List.append_nil]
    exact timely.past
  · simpa [submittedIn, takenIn, moments] using timely.queue there
  · rw [entriesIn_append, entry, momentsIn_append, moments, List.append_nil, List.append_assoc]
    exact timely.entries
  · simpa [constructedIn, checkedIn, moments] using timely.made
  · have before := timely.stage
    cases stage with
    | dead => trivial
    | _ =>
      simpa [Stage.Timely, takenIn, checkedIn, releasedIn, submittedIn, moments, looks] using before

/-- The worker takes a dispatch. -/
theorem take (timely : Timely S history clock (task :: rest) [] .idle) :
    Timely S (history ++ [.reached task .taken clock]) clock rest
      (Moment.entries S ⟨task, .taken, clock⟩) (.window task (clock + S.window task)) := by
  obtain ⟨level, even, due⟩ := timely.stage
  obtain ⟨sub, hsub, htask⟩ := timely.front rfl
  obtain ⟨free, hfree⟩ := exists_freeAt (Nat.le_of_eq level)
  refine ⟨timely.punctual.snoc ?_, timely.past_reached _ _, fun _ => ?_, ?_, ?_, ?_⟩
  · rintro m ⟨⟩
    exact ⟨sub, free, hsub, htask, hfree, due sub free hsub hfree⟩
  · simp [timely.queue rfl, Milestone.isSubmitted, Milestone.isTaken]
  · rw [entriesIn_append_reached]
    simpa using timely.entries
  · simpa [Milestone.isConstructed, Milestone.isChecked, Stage.unmade] using timely.made
  · simp [Stage.Timely, Milestone.isTaken, Milestone.isChecked, Milestone.isRelease, level, even]

/-- The window is over, and the dispatch was cancelled. -/
theorem bar {wake : Nat} (timely : Timely S history clock waiting [] (.window task wake))
    (woken : wake ≤ clock) :
    Timely S (history ++ [.reached task (.checked true) clock]) clock waiting
      (Moment.entries S ⟨task, .checked true, clock⟩) .idle := by
  obtain ⟨level, even, early, start, taken, hwake⟩ := timely.stage
  have now : clock = start + S.window task := by omega
  refine ⟨timely.punctual.snoc ?_, timely.past_reached _ _, fun _ => ?_, ?_, ?_, ?_⟩
  · rintro m ⟨⟩
    exact ⟨even, ⟨task, .taken, start⟩, by rw [even]; exact taken, rfl, now⟩
  · simpa [Milestone.isSubmitted, Milestone.isTaken] using timely.queue rfl
  · rw [entriesIn_append_reached]
    simpa using timely.entries
  · simpa [Milestone.isConstructed, Milestone.isChecked, Stage.unmade] using timely.made
  · refine ⟨?_, ?_, fun sub free hsub hfree => ?_⟩
    · simp [Milestone.isTaken, Milestone.isRelease, level]
    · simp [Milestone.isChecked, Milestone.isRelease, even]
    · have hnow : free = clock := by
        simpa [freeAt, Milestone.isTaken, Milestone.isRelease, level] using hfree.symm
      have hsub : sub ∈ momentsIn history := by
        have mem := List.mem_of_getElem? hsub
        simp [Milestone.isSubmitted] at mem
        exact (List.mem_filter.1 mem).1
      have := timely.past sub hsub
      omega

/-- The window is over, and the dispatch was not cancelled. -/
theorem letThrough {wake : Nat} (timely : Timely S history clock waiting [] (.window task wake))
    (woken : wake ≤ clock) :
    Timely S (history ++ [.reached task (.checked false) clock]) clock waiting []
      (.ready task) := by
  obtain ⟨level, even, early, start, taken, hwake⟩ := timely.stage
  have now : clock = start + S.window task := by omega
  refine ⟨timely.punctual.snoc ?_, timely.past_reached _ _, fun _ => ?_, ?_, ?_, ?_⟩
  · rintro m ⟨⟩
    exact ⟨even, ⟨task, .taken, start⟩, by rw [even]; exact taken, rfl, now⟩
  · simpa [Milestone.isSubmitted, Milestone.isTaken] using timely.queue rfl
  · rw [entriesIn_append_reached]
    simpa [Moment.entries] using timely.entries
  · have made := timely.made
    simp only [Stage.unmade, List.append_nil] at made
    simp [Milestone.isConstructed, Milestone.isChecked, Stage.unmade, made, Moment.at]
  · simp [Stage.Timely, Milestone.isTaken, Milestone.isChecked, Milestone.isRelease, level, even]

/-- The operation is constructed. If the construction panics, nothing is left to do. -/
theorem construct {n : Nat} (timely : Timely S history clock waiting [] (.ready task))
    (unlooked : looksIn history task.id = []) :
    Timely S (history ++ [.reached task (.constructed n) clock]) clock waiting []
      (.running task n (if S.breaks n task.request.kind then [] else S.body task.request)
        clock) := by
  obtain ⟨level, even, admitted⟩ := timely.stage
  refine ⟨timely.punctual.snoc ?_, timely.past_reached _ _, fun _ => ?_, ?_, ?_, ?_⟩
  · rintro m ⟨⟩
    trivial
  · simpa [Milestone.isSubmitted, Milestone.isTaken] using timely.queue rfl
  · rw [entriesIn_append_reached]
    simpa [Moment.entries] using timely.entries
  · simpa [Milestone.isConstructed, Milestone.isChecked, Stage.unmade, Moment.at] using timely.made
  · refine ⟨?_, ?_, Nat.le_refl _, clock, 0, ?_, ?_, rfl, fun looks => ?_⟩
    · simpa [Milestone.isTaken, Milestone.isRelease] using level
    · simpa [Milestone.isChecked, Milestone.isRelease] using even
    · simpa [Milestone.isChecked, Milestone.isRelease] using admitted
    · simp
    · simp only [looksIn_append, unlooked, looksIn_reached, Milestone.looked?, Setup.bodyTime]
      cases S.breaks n task.request.kind <;> simp [BodyStep.duration]

/-- The operation looks whether it is cancelled, and goes on. -/
theorem look {n wake : Nat} {steps later : List BodyStep} {value : Bool}
    (timely : Timely S history clock waiting [] (.running task n steps wake))
    (same : ∀ looks, BodyStep.duration steps (value :: looks) = BodyStep.duration later looks) :
    Timely S (history ++ [.reached task (.looked value) clock]) clock waiting []
      (.running task n later wake) := by
  obtain ⟨level, even, early, start, elapsed, admitted, made, hwake, left⟩ := timely.stage
  refine ⟨timely.punctual.snoc ?_, timely.past_reached _ _, fun _ => ?_, ?_, ?_, ?_⟩
  · rintro m ⟨⟩
    trivial
  · simpa [Milestone.isSubmitted, Milestone.isTaken] using timely.queue rfl
  · rw [entriesIn_append_reached]
    simpa [Moment.entries] using timely.entries
  · simpa [Milestone.isConstructed, Milestone.isChecked, Stage.unmade] using timely.made
  · refine ⟨?_, ?_, early, start, elapsed, ?_, ?_, hwake, fun looks => ?_⟩
    · simpa [Milestone.isTaken, Milestone.isRelease] using level
    · simpa [Milestone.isChecked, Milestone.isRelease] using even
    · simpa [Milestone.isChecked, Milestone.isRelease] using admitted
    · simp [made]
    · rw [looksIn_append, looksIn_reached, List.append_assoc]
      exact (left (value :: looks)).trans (by rw [same])

/-- The operation does something that takes some time, or none. -/
theorem goOn {n wake : Nat} {steps later : List BodyStep} (time : Nat)
    (timely : Timely S history clock waiting [] (.running task n steps wake))
    (woken : wake ≤ clock)
    (same : ∀ looks, BodyStep.duration steps looks = time + BodyStep.duration later looks) :
    Timely S history clock waiting [] (.running task n later (clock + time)) := by
  obtain ⟨level, even, early, start, elapsed, admitted, made, hwake, left⟩ := timely.stage
  refine ⟨timely.punctual, timely.past, fun _ => timely.queue rfl, timely.entries, timely.made,
    level, even, Nat.le_add_right _ _, start, elapsed + time, admitted, made, by omega,
    fun looks => ?_⟩
  rw [left, same]
  omega

/-- The operation is over. -/
theorem finish {n wake : Nat} {steps : List BodyStep}
    (timely : Timely S history clock waiting [] (.running task n steps wake))
    (woken : wake ≤ clock) (done : BodyStep.duration steps [] = 0) (result : Option Result) :
    Timely S (history ++ [.reached task (.returned result) clock]) clock waiting
      (Moment.entries S ⟨task, .returned result, clock⟩) (.leaving task result) := by
  obtain ⟨level, even, early, start, elapsed, admitted, made, hwake, left⟩ := timely.stage
  have whole := left []
  rw [List.append_nil, done] at whole
  have now : clock = start + S.bodyTime n task.request (looksIn history task.id) := by omega
  refine ⟨timely.punctual.snoc ?_, timely.past_reached _ _, fun _ => ?_, ?_, ?_, ?_⟩
  · rintro m ⟨⟩
    exact ⟨n, start, admitted, made, now⟩
  · simpa [Milestone.isSubmitted, Milestone.isTaken] using timely.queue rfl
  · rw [entriesIn_append_reached]
    simpa using timely.entries
  · simpa [Milestone.isConstructed, Milestone.isChecked, Stage.unmade] using timely.made
  · simp [Stage.Timely, freeAt, Milestone.isTaken, Milestone.isChecked, Milestone.isRelease, level,
      even]

/-- The worker is free for the next dispatch. -/
theorem leave {result : Option Result}
    (timely : Timely S history clock waiting pending (.leaving task result)) :
    Timely S history clock waiting pending .idle := by
  obtain ⟨level, even, free⟩ := timely.stage
  refine ⟨timely.punctual, timely.past, fun _ => timely.queue rfl, timely.entries, timely.made,
    level, even, fun sub other hsub hfree => ?_⟩
  have hsub := timely.past sub (List.mem_filter.1 (List.mem_of_getElem? hsub)).1
  rw [free] at hfree
  cases hfree
  omega

/-- A dispatch is discarded. -/
theorem discard (timely : Timely S history clock waiting pending stage) (task : Task) :
    Timely S (history ++ [.reached task .discarded clock]) clock waiting pending stage := by
  refine ⟨timely.punctual.snoc ?_, timely.past_reached _ _, fun there => ?_, ?_, ?_, ?_⟩
  · rintro m ⟨⟩
    trivial
  · simpa [Milestone.isSubmitted, Milestone.isTaken] using timely.queue there
  · rw [entriesIn_append_reached]
    simpa [Moment.entries] using timely.entries
  · simpa [Milestone.isConstructed, Milestone.isChecked] using timely.made
  · have before := timely.stage
    have unlooked : ∀ id, looksIn [.reached task .discarded clock] id = [] := by
      intro id
      by_cases hid : task.id = id <;>
        simp [looksIn, milestonesIn, Happening.milestone?, hid, Milestone.looked?]
    cases stage with
    | dead => trivial
    | _ =>
      simpa [Stage.Timely, Milestone.isTaken, Milestone.isChecked, Milestone.isRelease,
        Milestone.isSubmitted, unlooked] using before

/-- The worker comes to its end. -/
theorem close (timely : Timely S history clock waiting pending .idle) (left : List Task) :
    Timely S history clock left pending .ended := by
  obtain ⟨level, even, -⟩ := timely.stage
  exact ⟨timely.punctual, timely.past, (fun h => by cases h), timely.entries, timely.made, level,
    even⟩

/-- Time goes by while the worker has nothing to do. -/
theorem wait (timely : Timely S history clock waiting pending stage) {time : Nat}
    (later : clock ≤ time) (rests : stage.Rests waiting time) :
    Timely S history time waiting pending stage := by
  have before := timely.stage
  refine ⟨timely.punctual, fun m hm => Nat.le_trans (timely.past m hm) later, timely.queue,
    timely.entries, ?_, ?_⟩
  · cases stage with
    | ready task => cases rests
    | _ => exact timely.made
  · cases stage with
    | idle =>
      obtain ⟨level, even, -⟩ := before
      refine ⟨level, even, fun sub free hsub _ => ?_⟩
      -- Nothing waits, so no dispatch is behind those that were taken.
      have queue := congrArg List.length (timely.queue rfl)
      rw [show waiting = [] from rests] at queue
      have hlt := (List.getElem?_eq_some_iff.1 hsub).1
      simp at queue
      omega
    | window task wake =>
      obtain ⟨level, even, -, taken⟩ := before
      exact ⟨level, even, rests, taken⟩
    | running task n rest wake =>
      obtain ⟨level, even, -, within⟩ := before
      exact ⟨level, even, rests, within⟩
    | ready task => cases rests
    | leaving task result => cases rests
    | ended => exact before
    | dead => trivial

/-- A dispatch that is next and has not been taken is not due before now. -/
theorem untaken (timely : Timely S history clock waiting pending stage)
    (going : stage.isOver = false) {k free : Nat} {sub : Moment}
    (hsub : (submittedIn history)[k]? = some sub) (hnone : (takenIn history)[k]? = none)
    (hfree : freeAt (releasedIn history) k = some free) : clock ≤ max sub.time free := by
  have before := timely.stage
  have above := List.getElem?_eq_none_iff.1 hnone
  have below := le_of_freeAt hfree
  cases stage with
  | idle =>
    obtain ⟨level, -, due⟩ := before
    obtain rfl : k = (takenIn history).length := by omega
    exact Nat.le_of_eq (due sub free hsub hfree)
  | leaving task result =>
    obtain ⟨level, -, last⟩ := before
    obtain rfl : k = (takenIn history).length := by omega
    rw [last] at hfree
    cases hfree
    exact Nat.le_max_right _ _
  | ended => cases going
  | dead => cases going
  | _ =>
    obtain ⟨level, -⟩ := before
    omega

/-- A dispatch whose token has not been looked at is in its window. -/
theorem unchecked (timely : Timely S history clock waiting pending stage) (there : stage ≠ .dead)
    {k : Nat} {t : Moment} (ht : (takenIn history)[k]? = some t)
    (hnone : (checkedIn history)[k]? = none) : clock ≤ t.time + S.window t.task := by
  have before := timely.stage
  have above := List.getElem?_eq_none_iff.1 hnone
  have below := (List.getElem?_eq_some_iff.1 ht).1
  cases stage with
  | window task wake =>
    obtain ⟨level, even, early, start, taken, rfl⟩ := before
    obtain rfl : k = (releasedIn history).length := by omega
    obtain rfl := Option.some.inj (taken.symm.trans ht)
    exact early
  | dead => exact absurd rfl there
  | ended =>
    obtain ⟨level, even⟩ := before
    omega
  | _ =>
    obtain ⟨level, even, -⟩ := before
    omega

/-- A dispatch that the worker is not done with, and whose operation is not still to be constructed,
is run. -/
theorem unreleased (timely : Timely S history clock waiting pending stage) (there : stage ≠ .dead)
    (unready : ∀ task, stage ≠ .ready task) {k : Nat} {c : Moment}
    (hc : (checkedIn history)[k]? = some c) (hnone : (releasedIn history)[k]? = none) :
    c.milestone = .checked false ∧ ∃ n, ⟨c.task, .constructed n, c.time⟩ ∈ momentsIn history ∧
      ∀ looks, clock ≤ c.time +
        S.bodyTime n c.task.request (looksIn history c.task.id ++ looks) := by
  have before := timely.stage
  have above := List.getElem?_eq_none_iff.1 hnone
  have below := (List.getElem?_eq_some_iff.1 hc).1
  cases stage with
  | running task n rest wake =>
    obtain ⟨level, even, early, start, elapsed, admitted, made, rfl, left⟩ := before
    obtain rfl : k = (releasedIn history).length := by omega
    obtain rfl := Option.some.inj (admitted.symm.trans hc)
    refine ⟨rfl, n, made, fun looks => ?_⟩
    have whole := left looks
    dsimp only
    omega
  | ready task => exact absurd rfl (unready task)
  | dead => exact absurd rfl there
  | ended =>
    obtain ⟨level, even⟩ := before
    omega
  | _ =>
    obtain ⟨level, even, -⟩ := before
    omega

end Timely

section Reading

variable {S : Setup} {history : List Happening}

/-- The `k`-th moment of a view is reached somewhere in the history, behind `k` others. -/
theorem split_moments {p : Milestone → Bool} {k : Nat} {m : Moment}
    (hm : ((momentsIn history).filter fun m => p m.milestone)[k]? = some m) :
    ∃ before after, history = before ++ .reached m.task m.milestone m.time :: after ∧
      ((momentsIn before).filter fun m => p m.milestone).length = k ∧ p m.milestone = true := by
  induction history generalizing k with
  | nil => cases hm
  | cons h rest ih =>
    have later : ∀ {j : Nat}, ((momentsIn rest).filter fun m => p m.milestone)[j]? = some m →
        ((momentsIn [h]).filter fun m => p m.milestone).length + j = k →
        ∃ before after, h :: rest = before ++ .reached m.task m.milestone m.time :: after ∧
          ((momentsIn before).filter fun m => p m.milestone).length = k ∧
          p m.milestone = true := by
      intro j hj hk
      obtain ⟨before, after, rfl, hlength, hp⟩ := ih hj
      refine ⟨h :: before, after, rfl, ?_, hp⟩
      have whole : momentsIn (h :: before) = momentsIn [h] ++ momentsIn before :=
        momentsIn_append [h] before
      rw [whole, List.filter_append, List.length_append, hlength, hk]
    cases h with
    | reached task milestone time =>
      rw [momentsIn_cons] at hm
      by_cases hp : p milestone = true
      · rw [List.filter_cons_of_pos (by simpa using hp)] at hm
        cases k with
        | zero =>
          cases Option.some.inj hm
          exact ⟨[], rest, rfl, rfl, hp⟩
        | succ k => exact later hm (by simp [hp, Nat.add_comm])
      · rw [List.filter_cons_of_neg (by simpa using hp)] at hm
        exact later hm (by simp [hp])
    | _ => exact later hm (by simp [momentsIn, Happening.moment?])

theorem Punctually.taken (punctual : Punctually S history) {k : Nat} {m : Moment}
    (hm : (takenIn history)[k]? = some m) : ∃ (sub : Moment) (free : Nat),
    (submittedIn history)[k]? = some sub ∧ sub.task = m.task ∧
    freeAt (releasedIn history) k = some free ∧ m.time = max sub.time free := by
  obtain ⟨before, after, rfl, rfl, hp⟩ := split_moments hm
  obtain ⟨task, milestone, time⟩ := m
  cases milestone with
  | taken =>
    obtain ⟨sub, free, hsub, htask, hfree, htime⟩ := punctual _ _ _ _ _ rfl
    refine ⟨sub, free, ?_, htask, ?_, htime⟩
    · rw [submittedIn_append]
      exact getElem?_append_of_some hsub
    · rw [releasedIn_append]
      exact freeAt_append hfree
  | _ => cases hp

theorem Punctually.checked (punctual : Punctually S history) {k : Nat} {m : Moment}
    (hm : (checkedIn history)[k]? = some m) : ∃ t : Moment,
    (takenIn history)[k]? = some t ∧ t.task = m.task ∧ m.time = t.time + S.window m.task := by
  obtain ⟨before, after, rfl, rfl, hp⟩ := split_moments hm
  obtain ⟨task, milestone, time⟩ := m
  cases milestone with
  | checked cancelled =>
    obtain ⟨-, t, ht, htask, htime⟩ := punctual _ _ _ _ _ rfl
    refine ⟨t, ?_, htask, htime⟩
    rw [takenIn_append]
    exact getElem?_append_of_some ht
  | _ => cases hp

end Reading

end SerialDispatch
