import Mathlib.Data.List.Induction
import SerialDispatch.Proofs.Dispatcher.History

/-!
# The ledger of a dispatcher session

A ledger follows the history of a session with an eye to the dispatches only: those that are over,
the one that the worker is at, and those that wait, in order of submission. `Ledger.Step` says which
happening may come next and what it makes of the ledger; a happening that it does not allow cannot
be in the history of a session. `Ledger.Run` is a whole history.
-/
namespace SerialDispatch

/-- An operation that was constructed, or whose construction panicked. -/
structure Execution where
  number : Nat
  broken : Bool
  /-- All signals sent for its dispatch so far, those that came through a kept sink among them. -/
  signals : List Signal
  /-- The signals that its body has sent itself. -/
  own : List Signal
  /-- What it saw each time it looked whether it is cancelled. -/
  looks : List Bool
  deriving DecidableEq

/-- How far the worker is with a dispatch. -/
inductive Place where
  | taken
  /-- Its token was looked at, and it is not cancelled. -/
  | admitted
  /-- Its token was looked at, and it is cancelled. -/
  | barred
  /-- It was discarded. -/
  | dropped
  | made (n : Nat)
  | busy (x : Execution)
  | left (x : Execution) (result : Option Result)
  deriving DecidableEq

/-- How a dispatch has ended. -/
inductive Fate where
  | barred
  | dropped
  | ran (x : Execution) (result : Option Result)
  deriving DecidableEq

namespace Execution

def begin (n : Nat) : Execution := ⟨n, false, [], [], []⟩

/-- The construction panicked. -/
def broke (n : Nat) : Execution := ⟨n, true, [], [], []⟩

/-- A signal was sent for its dispatch. -/
def hear (x : Execution) (signal : Signal) : Execution :=
  { x with signals := x.signals ++ [signal] }

/-- Its body has sent a signal. -/
def emit (x : Execution) (signal : Signal) : Execution :=
  { x.hear signal with own := x.own ++ [signal] }

def look (x : Execution) (value : Bool) : Execution := { x with looks := x.looks ++ [value] }

end Execution

namespace Place

/-- The signals sent for the dispatch so far. -/
def signals : Place → List Signal
  | busy x => x.signals
  | left x _ => x.signals
  | _ => []

/-- The milestones that the dispatch has reached since it left the inbox. -/
def milestones : Place → List Milestone
  | taken => [.taken]
  | admitted => [.taken, .checked false]
  | barred => [.taken, .checked true]
  | dropped => [.discarded]
  | made n => [.taken, .checked false, .constructed n]
  | busy x => [.taken, .checked false, .constructed x.number] ++ x.looks.map .looked
  | left x result =>
    [.taken, .checked false, .constructed x.number] ++ x.looks.map .looked ++ [.returned result]

/-- Whether the operation was begun, so that it may have kept a sink. -/
def hasBegun : Place → Bool
  | busy _ => true
  | left _ _ => true
  | _ => false

/-- The number of the construction, if there was one. -/
def number? : Place → Option Nat
  | made n => some n
  | busy x => some x.number
  | left x _ => some x.number
  | _ => none

def hear (signal : Signal) : Place → Place
  | busy x => busy (x.hear signal)
  | left x result => left (x.hear signal) result
  | p => p

end Place

namespace Fate

/-- The last place of a dispatch that has ended so. -/
def place : Fate → Place
  | barred => .barred
  | dropped => .dropped
  | ran x result => .left x result

/-- The outcome that the terminal signal carries. -/
def outcome (kind : Kind) : Fate → Outcome
  | ran _ result => .completed (result.getD (.ofPanic kind))
  | _ => .cancelledBeforeStart

end Fate

/-- Where a dispatch stands. -/
inductive Stand where
  | waiting
  | at (p : Place)
  | settled (fate : Fate)
  deriving DecidableEq

namespace Stand

def place? : Stand → Option Place
  | waiting => none
  | .at p => some p
  | settled fate => some fate.place

/-- The milestones of a dispatch that stands here. -/
def milestones (slip : Slip) (st : Stand) : List Milestone :=
  .submitted slip.callback :: (st.place?.map Place.milestones).getD []

def number? (st : Stand) : Option Nat := st.place?.bind Place.number?

def hasBegun (st : Stand) : Bool := (st.place?.map Place.hasBegun).getD false

end Stand

structure Ledger where
  settled : List (Slip × Fate)
  /-- The dispatch that the worker is at. -/
  desk : Option (Slip × Place)
  waiting : List Slip
  /-- The callback that was sent ahead of a dispatch which is now to be submitted. -/
  opened : Option (DispatchId × Nat)
  /-- The event that goes through a kept sink next. -/
  late : Option Event
  cancelled : List DispatchId
  stopping : Bool
  torn : Bool

namespace Ledger

def empty : Ledger := ⟨[], none, [], none, none, [], false, false⟩

/-- All dispatches that were accepted and where they stand, in order of submission. -/
def roll (l : Ledger) : List (Slip × Stand) :=
  l.settled.map (fun e => (e.1, .settled e.2)) ++ l.desk.toList.map (fun d => (d.1, .at d.2)) ++
    l.waiting.map (·, .waiting)

def accepted (l : Ledger) : List Slip := l.roll.map (·.1)

/-- How many operations were constructed. -/
def made (l : Ledger) : Nat := (l.roll.filterMap fun e => e.2.number?).length

/-- The operation of a dispatch was begun. -/
def Begun (l : Ledger) (id : DispatchId) : Prop :=
  (∃ slip ∈ l.accepted, slip.id = id) ∧ ∀ entry ∈ l.roll, entry.1.id = id → entry.2.hasBegun = true

/-- A signal has gone through a kept sink: it belongs to its operation unless that is over. -/
def hear (l : Ledger) (e : Event) : Ledger :=
  { l with
    late := none
    desk := l.desk.map fun d => (d.1, if d.1.id = e.id then d.2.hear e.signal else d.2) }

end Ledger

/-- What may happen next to the dispatch that the worker is at, given whether it was cancelled and
how many operations were constructed before. -/
inductive Place.Step (S : Setup) (slip : Slip) (cancelled : Bool) (next : Nat) :
    Place → Happening → Place → Prop
  | checked (time : Nat) : Step S slip cancelled next .taken
      (.reached slip.task (.checked cancelled) time) (if cancelled then .barred else .admitted)
  | constructed (time : Nat) : Step S slip cancelled next .admitted
      (.reached slip.task (.constructed next) time) (.made next)
  | broke {n : Nat} (time : Nat) (breaks : S.breaks n slip.kind = true) :
      Step S slip cancelled next (.made n)
        (.reached slip.task (.returned none) time) (.left (.broke n) none)
  | ran {n : Nat} (works : S.breaks n slip.kind = false) : Step S slip cancelled next (.made n)
      (.note (.ran n slip.task.request slip.task.input slip.kind.isCancellable))
      (.busy (.begin n))
  | looked (x : Execution) (time : Nat) : Step S slip cancelled next (.busy x)
      (.reached slip.task (.looked (slip.kind.isCancellable && cancelled)) time)
      (.busy (x.look (slip.kind.isCancellable && cancelled)))
  | stepped (x : Execution) (word : String) (reply : Reply) : Step S slip cancelled next (.busy x)
      (.note (.stepped x.number word reply)) (.busy x)
  | emitted (x : Execution) {h : Happening} {signal : Signal}
      (posts : h.message? = some (.event ⟨slip.id, signal⟩))
      (unfinished : signal.isFinished = false) :
      Step S slip cancelled next (.busy x) h (.busy (x.emit signal))
  | returned (x : Execution) (result : Option Result) (time : Nat)
      (faithful : BodyStep.evaluate slip.kind (S.body slip.task.request) x.looks =
        (x.own, result)) :
      Step S slip cancelled next (.busy x) (.reached slip.task (.returned result) time)
        (.left x result)

/-- What may happen next, and the ledger after it. -/
inductive Ledger.Step (S : Setup) (l : Ledger) : Happening → Ledger → Prop
  | silent {h : Happening} (silent : h.isSilent = true) : Step S l h l
  | attached {h : Happening} {id : DispatchId} {callback : Callback Command}
      (posts : h.message? = some (.attach id callback)) (alone : l.opened = none)
      (fresh : ∀ slip ∈ l.accepted, slip.id < id) :
      Step S l h { l with opened := some (id, callback.number) }
  | submitted (slip : Slip) (time : Nat) (opened : l.opened = some (slip.id, slip.callback))
      (going : l.stopping = false) (there : l.torn = false) :
      Step S l (.reached slip.task (.submitted slip.callback) time)
        { l with opened := none, waiting := l.waiting ++ [slip] }
  | refused {id : DispatchId} {callback : Nat} (opened : l.opened = some (id, callback))
      (torn : l.torn = true) :
      Step S l (.lost (.event ⟨id, .finished .cancelledBeforeStart⟩)) { l with opened := none }
  | taken {slip : Slip} {rest : List Slip} (time : Nat) (free : l.desk = none)
      (first : l.waiting = slip :: rest) (going : l.stopping = false) :
      Step S l (.reached slip.task .taken time)
        { l with desk := some (slip, .taken), waiting := rest }
  | discarded {slip : Slip} {rest : List Slip} (time : Nat) (free : l.desk = none)
      (first : l.waiting = slip :: rest) (stopping : l.stopping = true) :
      Step S l (.reached slip.task .discarded time)
        { l with desk := some (slip, .dropped), waiting := rest }
  | worked {slip : Slip} {p q : Place} {h : Happening} (desk : l.desk = some (slip, p))
      (alone : l.late = none) (moves : p.Step S slip (decide (slip.id ∈ l.cancelled)) l.made h q) :
      Step S l h { l with desk := some (slip, q) }
  | finished {slip : Slip} {fate : Fate} {h : Happening} (desk : l.desk = some (slip, fate.place))
      (posts : h.message? = some (.event ⟨slip.id, .finished (fate.outcome slip.kind)⟩)) :
      Step S l h { l with desk := none, settled := l.settled ++ [(slip, fate)] }
  | late (e : Event) : Step S l (.late e) { l with late := some e }
  | through {h : Happening} {e : Event} (late : l.late = some e)
      (posts : h.message? = some (.event e)) (begun : l.Begun e.id)
      (unfinished : e.signal.isFinished = false) : Step S l h (l.hear e)
  | cancelled (id : DispatchId) : Step S l (.cancelled id)
      { l with cancelled := l.cancelled ++ [id] }
  | stopping : Step S l .stopping { l with stopping := true }
  | tornDown : Step S l .tornDown { l with torn := true }

/-- A history and the ledger that it leads to, from a given one. -/
inductive Ledger.Run (S : Setup) (l : Ledger) : List Happening → Ledger → Prop
  | nil : Run S l [] l
  | snoc {history : List Happening} {h : Happening} {m n : Ledger} (run : Run S l history m)
      (step : m.Step S h n) : Run S l (history ++ [h]) n

/-- What may happen to one dispatch, wherever it stands, given also what goes through a kept sink
next. -/
inductive Stand.Step (S : Setup) (slip : Slip) (cancelled : Bool) (next : Nat)
    (late : Option Event) : Stand → Happening → Stand → Prop
  | taken (time : Nat) :
      Step S slip cancelled next late .waiting (.reached slip.task .taken time) (.at .taken)
  | discarded (time : Nat) :
      Step S slip cancelled next late .waiting (.reached slip.task .discarded time) (.at .dropped)
  | worked {p q : Place} {h : Happening} (moves : p.Step S slip cancelled next h q) :
      Step S slip cancelled next late (.at p) h (.at q)
  | heard {p : Place} {h : Happening} {signal : Signal} (begun : p.hasBegun = true)
      (kept : late = some ⟨slip.id, signal⟩)
      (posts : h.message? = some (.event ⟨slip.id, signal⟩))
      (unfinished : signal.isFinished = false) :
      Step S slip cancelled next late (.at p) h (.at (p.hear signal))
  | finished (fate : Fate) {h : Happening}
      (posts : h.message? = some (.event ⟨slip.id, .finished (fate.outcome slip.kind)⟩)) :
      Step S slip cancelled next late (.at fate.place) h (.settled fate)

namespace Ledger

variable {S : Setup} {l m n : Ledger} {h : Happening}

/-- What tells of no dispatch that is still on its way: no milestone, and no signal but for a start
that is refused or a dispatch that is over. -/
structure Quiet (l : Ledger) (h : Happening) : Prop where
  accepted : h.accepted? = none
  begun : h.begun? = none
  milestone : ∀ id, h.milestone? id = none
  signal : ∀ id signal, h.signal? id = some signal →
    (l.torn = true ∧ ∃ callback, l.opened = some (id, callback)) ∨
    (l.Begun id ∧ signal.isFinished = false ∧ ∀ slip p, l.desk = some (slip, p) → slip.id ≠ id)

theorem Quiet.of_no_signal (accepted : h.accepted? = none) (begun : h.begun? = none)
    (milestone : ∀ id, h.milestone? id = none) (signal : ∀ id, h.signal? id = none) :
    l.Quiet h := by
  refine ⟨accepted, begun, milestone, fun id signal' hs => ?_⟩
  rw [signal id] at hs
  cases hs

theorem Quiet.of_silent (silent : h.isSilent = true) : l.Quiet h := by
  cases h with
  | told _ _ => exact .of_no_signal rfl rfl (fun _ => rfl) fun _ => rfl
  | did _ _ _ => exact .of_no_signal rfl rfl (fun _ => rfl) fun _ => rfl
  | log _ => exact .of_no_signal rfl rfl (fun _ => rfl) fun _ => rfl
  | note note =>
    cases note with
    | ran _ _ _ _ => cases silent
    | stepped _ _ _ => cases silent
    | _ => exact .of_no_signal rfl rfl (fun _ => rfl) fun _ => rfl
  | _ => cases silent

/-- A message is no milestone and begins nothing. -/
theorem no_milestone_of_message {message : Message Command} (posts : h.message? = some message) :
    h.accepted? = none ∧ h.begun? = none ∧ ∀ id, h.milestone? id = none := by
  cases h with
  | sent _ => exact ⟨rfl, rfl, fun _ => rfl⟩
  | lost _ => exact ⟨rfl, rfl, fun _ => rfl⟩
  | _ => cases posts

theorem signal_of_posts {e : Event} (posts : h.message? = some (.event e)) (id : DispatchId) :
    h.signal? id = if e.id = id then some e.signal else none := by
  simp only [Happening.signal?, posts]

theorem all_waiting (waiting : List Slip) :
    ∀ entry ∈ waiting.map (·, Stand.waiting), entry.2 = .waiting := by
  intro entry hentry
  obtain ⟨slip, -, rfl⟩ := List.mem_map.1 hentry
  rfl

/-- A step leaves all dispatches where they stand, or brings in a new one, or moves one of them that
only waiting ones are behind. -/
theorem Step.roll_cases (step : l.Step S h m) :
    (m.roll = l.roll ∧ l.Quiet h) ∨
    (∃ slip time, h = .reached slip.task (.submitted slip.callback) time ∧
      l.opened = some (slip.id, slip.callback) ∧ l.torn = false ∧
      m.roll = l.roll ++ [(slip, .waiting)]) ∨
    ∃ before slip st st' after, l.roll = before ++ (slip, st) :: after ∧
      m.roll = before ++ (slip, st') :: after ∧ (∀ entry ∈ after, entry.2 = .waiting) ∧
      st.Step S slip (decide (slip.id ∈ l.cancelled)) l.made l.late h st' := by
  cases step with
  | silent silent => exact .inl ⟨rfl, .of_silent silent⟩
  | @attached _ id callback posts alone fresh =>
    obtain ⟨ha, hb, hm⟩ := no_milestone_of_message posts
    exact .inl ⟨rfl, .of_no_signal ha hb hm fun id => by simp only [Happening.signal?, posts]⟩
  | submitted slip time opened going there =>
    exact .inr (.inl ⟨_, time, rfl, opened, there, by simp [roll]⟩)
  | @refused id callback opened torn =>
    refine .inl ⟨rfl, rfl, rfl, fun _ => rfl, fun other signal hs => .inl ⟨torn, callback, ?_⟩⟩
    simp only [Happening.signal?, Happening.message?] at hs
    by_cases hid : id = other
    · rw [← hid, opened]
    · simp [hid] at hs
  | @taken slip rest time free first going =>
    refine .inr (.inr ⟨l.settled.map fun e => (e.1, .settled e.2), slip, .waiting, .at .taken,
      rest.map (·, .waiting), ?_, ?_, all_waiting _, .taken time⟩)
    · simp [roll, free, first]
    · simp [roll]
  | @discarded slip rest time free first stopping =>
    refine .inr (.inr ⟨l.settled.map fun e => (e.1, .settled e.2), slip, .waiting, .at .dropped,
      rest.map (·, .waiting), ?_, ?_, all_waiting _, .discarded time⟩)
    · simp [roll, free, first]
    · simp [roll]
  | @worked slip p q h desk alone moves =>
    refine .inr (.inr ⟨l.settled.map fun e => (e.1, .settled e.2), slip, .at p, .at q,
      l.waiting.map (·, .waiting), ?_, ?_, all_waiting _, .worked moves⟩)
    · simp [roll, desk]
    · simp [roll]
  | @finished slip fate h desk posts =>
    refine .inr (.inr ⟨l.settled.map fun e => (e.1, .settled e.2), slip, .at fate.place,
      .settled fate, l.waiting.map (·, .waiting), ?_, ?_, all_waiting _, .finished fate posts⟩)
    · simp [roll, desk]
    · simp [roll]
  | @through h e late posts begun unfinished =>
    obtain ⟨ha, hb, hm⟩ := no_milestone_of_message posts
    have quiet : (∀ slip p, l.desk = some (slip, p) → slip.id ≠ e.id) → l.Quiet h := by
      refine fun away => ⟨ha, hb, hm, fun id signal hs => .inr ?_⟩
      rw [signal_of_posts posts] at hs
      by_cases hid : e.id = id
      · rw [if_pos hid, Option.some.injEq] at hs
        subst hid hs
        exact ⟨begun, unfinished, away⟩
      · simp [hid] at hs
    cases hd : l.desk with
    | none => exact .inl ⟨by simp [roll, hear, hd], quiet (by simp [hd])⟩
    | some d =>
      obtain ⟨slip, p⟩ := d
      by_cases he : slip.id = e.id
      · refine .inr (.inr ⟨l.settled.map fun e => (e.1, .settled e.2), slip, .at p,
          .at (p.hear e.signal), l.waiting.map (·, .waiting), ?_, ?_, all_waiting _,
          .heard ?_ ?_ ?_ unfinished⟩)
        · simp [roll, hd]
        · simp [roll, hear, hd, he]
        · exact begun.2 (slip, .at p) (by simp [roll, hd]) he
        · rw [late, he]
        · rw [posts, he]
      · refine .inl ⟨by simp [roll, hear, hd, he], quiet fun slip' p' hd' => ?_⟩
        rw [hd] at hd'
        cases hd'
        exact he
  | late e => exact .inl ⟨rfl, .of_no_signal rfl rfl (fun _ => rfl) fun _ => rfl⟩
  | cancelled id => exact .inl ⟨rfl, .of_no_signal rfl rfl (fun _ => rfl) fun _ => rfl⟩
  | stopping => exact .inl ⟨rfl, .of_no_signal rfl rfl (fun _ => rfl) fun _ => rfl⟩
  | tornDown => exact .inl ⟨rfl, .of_no_signal rfl rfl (fun _ => rfl) fun _ => rfl⟩

/-- What becomes of the cancellations and of the two flags. -/
structure Flags (l : Ledger) (h : Happening) (m : Ledger) : Prop where
  cancelled : m.cancelled = l.cancelled ++ h.cancelled?.toList
  stopping : m.stopping = (l.stopping || h.isStopping)
  torn : m.torn = (l.torn || h.isTearing)

theorem Flags.of_neither (hc : h.cancelled? = none) (hs : h.isStopping = false)
    (ht : h.isTearing = false) (cancelled : m.cancelled = l.cancelled)
    (stopping : m.stopping = l.stopping) (torn : m.torn = l.torn) : l.Flags h m := by
  constructor
  · rw [cancelled, hc]
    exact (List.append_nil _).symm
  · rw [stopping, hs, Bool.or_false]
  · rw [torn, ht, Bool.or_false]

theorem Flags.of_message {message : Message Command} (posts : h.message? = some message)
    (cancelled : m.cancelled = l.cancelled) (stopping : m.stopping = l.stopping)
    (torn : m.torn = l.torn) : l.Flags h m := by
  cases h with
  | sent _ => exact .of_neither rfl rfl rfl cancelled stopping torn
  | lost _ => exact .of_neither rfl rfl rfl cancelled stopping torn
  | _ => cases posts

theorem Step.flags (step : l.Step S h m) : l.Flags h m := by
  cases step with
  | silent silent => cases h <;> first | exact .of_neither rfl rfl rfl rfl rfl rfl | cases silent
  | attached posts _ _ => exact .of_message posts rfl rfl rfl
  | worked desk alone moves =>
    cases moves with
    | emitted x posts _ => exact .of_message posts rfl rfl rfl
    | _ => exact .of_neither rfl rfl rfl rfl rfl rfl
  | finished desk posts => exact .of_message posts rfl rfl rfl
  | through late posts begun unfinished => exact .of_message posts rfl rfl rfl
  | cancelled id => exact ⟨rfl, (Bool.or_false _).symm, (Bool.or_false _).symm⟩
  | stopping => exact ⟨(List.append_nil _).symm, (Bool.or_true _).symm, (Bool.or_false _).symm⟩
  | tornDown => exact ⟨(List.append_nil _).symm, (Bool.or_false _).symm, (Bool.or_true _).symm⟩
  | _ => exact .of_neither rfl rfl rfl rfl rfl rfl

/-- The flag of a vanished worker is never lowered. -/
theorem Step.there (step : l.Step S h m) (there : m.torn = false) : l.torn = false := by
  have ht := step.flags.torn
  rw [there] at ht
  exact (Bool.or_eq_false_iff.1 ht.symm).1

/-- The last happening is a step from what the history before it leads to. -/
theorem Run.last {history : List Happening} (run : Run S l (history ++ [h]) n) :
    ∃ m, Run S l history m ∧ m.Step S h n := by
  generalize hall : history ++ [h] = all at run
  cases run with
  | nil => simp at hall
  | snoc run step =>
    obtain ⟨rfl, hh⟩ := List.append_inj' hall rfl
    cases hh
    exact ⟨_, run, step⟩

/-- A history can be read in two parts. -/
theorem Run.split {first second : List Happening} (run : Run S l (first ++ second) n) :
    ∃ m, Run S l first m ∧ Run S m second n := by
  induction second using List.reverseRecOn generalizing n with
  | nil => exact ⟨n, by rwa [List.append_nil] at run, .nil⟩
  | append_singleton second h ih =>
    rw [← List.append_assoc] at run
    obtain ⟨k, run, step⟩ := run.last
    obtain ⟨m, before, after⟩ := ih run
    exact ⟨m, before, after.snoc step⟩

end Ledger
end SerialDispatch
