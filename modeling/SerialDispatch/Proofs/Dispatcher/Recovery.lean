import SerialDispatch.Proofs.Dispatcher.Akin
import SerialDispatch.Proofs.Dispatcher.Evaluation
import SerialDispatch.Proofs.Dispatcher.Occasions
import SerialDispatch.Proofs.Dispatcher.Schedule

/-!
# An operation that panics is like one that fails

Wherever an operation is constructed, another could be constructed in its place that does the same
but returns a failure where the first one panics: `Setup.mended`. Nobody would be told anything
else, and all would come to the same; only, a panic is logged before the end of the dispatch is, and
a failure is not. Main statement: `Session.panic_as_failure`.
-/
namespace SerialDispatch

section Mending

/-- Ends an operation of this kind with the failure that a panic is reported as. -/
def BodyStep.giveUp (kind : Kind) : BodyStep :=
  .finish none (Result.ofPanic kind).status (Result.ofPanic kind).log

/-- The same steps down to the first panic, and there a failure. -/
def BodyStep.mend (kind : Kind) : List BodyStep → List BodyStep
  | [] => []
  | .panic :: _ => [giveUp kind]
  | step :: rest => step :: mend kind rest

theorem BodyStep.mend_cons {kind : Kind} {step : BodyStep} (works : step ≠ .panic)
    (rest : List BodyStep) : mend kind (step :: rest) = step :: mend kind rest := by
  cases step with
  | panic => exact absurd rfl works
  | _ => rfl

theorem BodyStep.totalCost_mend_le (kind : Kind) (body : List BodyStep) :
    totalCost (mend kind body) ≤ totalCost body := by
  induction body with
  | nil => exact Nat.le_refl _
  | cons step rest ih =>
    by_cases panics : step = .panic
    · subst panics
      simp [mend, totalCost, giveUp, cost, total]
    · rw [mend_cons panics]
      simp only [totalCost, List.map_cons, total_cons] at ih ⊢
      exact Nat.add_le_add_left ih _

/-- Makes operations that do the same but fail where they would panic. -/
def Factory.mend (f : Factory) (kind : Kind) : Factory where
  body request := BodyStep.mend kind (f.body request)
  bound := f.bound
  cost_le request := Nat.le_trans (BodyStep.totalCost_mend_le kind _) (f.cost_le request)

/-- Makes operations that do nothing but fail. -/
def Factory.failing (kind : Kind) : Factory where
  body _ := [BodyStep.giveUp kind]
  bound := 1
  cost_le _ := Nat.le_refl _

/-- Construction `n`, of an operation of this kind, does not panic, and no more does its operation:
they fail in its place. -/
def Setup.mended (S : Setup) (n : Nat) (kind : Kind) : Setup :=
  { S with
    registry := S.registry.register kind <|
      if S.breaks n kind then .failing kind
      else ((S.registry.slot kind).map fun factory => factory.mend kind).getD (.failing kind)
    broken := S.broken.filter (· ≠ n) }

variable (S : Setup) (n : Nat) (request : Request)

theorem Setup.breaks_mended (kind : Kind) : (S.mended n kind).breaks n kind = false := by
  simp [breaks, mended, Registry.supports, Registry.slot_register]

theorem Setup.body_mended_of_breaks (breaks : S.breaks n request.kind = true) :
    (S.mended n request.kind).body request = [BodyStep.giveUp request.kind] := by
  simp [body, mended, Registry.slot_register, breaks, Factory.failing]

theorem Setup.body_mended (works : S.breaks n request.kind = false) :
    (S.mended n request.kind).body request = BodyStep.mend request.kind (S.body request) := by
  have supported : (S.registry.slot request.kind).isSome = true := by
    simp only [breaks, Registry.supports, Bool.or_eq_false_iff, Bool.not_eq_false'] at works
    exact works.2
  obtain ⟨factory, slot⟩ := Option.isSome_iff_exists.1 supported
  simp [body, mended, Registry.slot_register, works, slot, Factory.mend]

end Mending

section Histories

/-- What is logged of a dispatch. -/
def Task.logged (task : Task) (time : Nat) (event : LogEvent) : Happening :=
  .log ⟨time, some task.span, event⟩

/-- What is logged at the end of an operation that has panicked. -/
def Task.gaveUp (task : Task) (time : Nat) : Happening :=
  task.logged time (.operationComplete (Result.ofPanic task.request.kind).status)

/-- What a construction that panics leaves out. -/
inductive Task.Omits (task : Task) : List Happening → Prop
  | nothing : Omits task []
  | ran (n : Nat) :
    Omits task [.note (.ran n task.request task.input task.request.kind.isCancellable)]

/-- The operation has panicked in the one trail, and failed in the other. -/
inductive Fell (task : Task) : List Happening → List Happening → Prop
  | mk (later before : List Happening) {omitted : List Happening} (omits : task.Omits omitted)
      (time : Nat) :
      Fell task (later ++ .reached task (.returned none) time :: before)
        (later ++ .reached task (.returned (some (.ofPanic task.request.kind))) time ::
          (omitted ++ before))

/-- The end of the operation is logged, too, and before that the panic in the one trail. -/
inductive Reported (task : Task) : List Happening → List Happening → Prop
  | mk (later : List Happening) {a b : List Happening} (fell : Fell task a b) (time : Nat) :
      Reported task (later ++ task.gaveUp time :: task.logged time .operationPanicked :: a)
        (later ++ task.gaveUp time :: b)

variable {task : Task} {a b : List Happening}

theorem Fell.cons (fell : Fell task a b) (x : Happening) : Fell task (x :: a) (x :: b) := by
  obtain ⟨later, before, omits, time⟩ := fell
  exact .mk (x :: later) before omits time

theorem Reported.cons (reported : Reported task a b) (x : Happening) :
    Reported task (x :: a) (x :: b) := by
  obtain ⟨later, fell, time⟩ := reported
  exact .mk (x :: later) fell time

end Histories

/-- How a session in which an operation may panic compares with one in which it fails instead. -/
inductive Bearing where
  /-- The operation is under way. -/
  | busy
  /-- Worker and delivery have vanished meanwhile. -/
  | torn
  /-- It has panicked in the one and failed in the other, which is to be reported. -/
  | fallen
  /-- It has returned the same. -/
  | spared
  /-- It has panicked in the one and failed in the other, and that is past. -/
  | past

namespace Bearing

/-- Where the workers are, and what the trails have to do with each other. -/
def Kin (task : Task) (n : Nat) : Bearing → Stage → Stage → List Happening → List Happening → Prop
  | busy, g, h, a, b => (∃ rest wake, g = .running task n rest wake ∧
      h = .running task n (BodyStep.mend task.request.kind rest) wake) ∧ a = b
  | torn, g, h, a, b => (g = .dead ∧ h = .dead) ∧ a = b
  | fallen, g, h, a, b => (g = .leaving task none ∧
      h = .leaving task (some (.ofPanic task.request.kind))) ∧ Fell task a b
  | spared, g, h, a, b => g = h ∧ a = b
  | past, g, h, a, b => g = h ∧ Reported task a b

def kinship (task : Task) (n : Nat) (m : Bearing) : Kinship where
  veiled := none
  loose _ := False
  kin := m.Kin task n
  cons x kin := by
    cases m with
    | fallen => exact ⟨kin.1, kin.2.cons x⟩
    | past => exact ⟨kin.1, kin.2.cons x⟩
    | _ => exact ⟨kin.1, congrArg _ kin.2⟩
  requested _ loose := loose.elim

variable {task : Task} {n : Nat} {m : Bearing} {g h : Stage} {a b : List Happening}

theorem abreast (kin : m.Kin task n g h a b) : g.Abreast h := by
  cases m with
  | busy =>
    obtain ⟨⟨rest, wake, rfl, rfl⟩, -⟩ := kin
    refine ⟨rfl, rfl, ⟨(fun h => by cases h), (fun h => by cases h)⟩, fun s => ?_⟩
    cases rest with
    | nil => rfl
    | cons step rest => cases step <;> rfl
  | torn =>
    obtain ⟨⟨rfl, rfl⟩, -⟩ := kin
    exact .refl _
  | fallen =>
    obtain ⟨⟨rfl, rfl⟩, -⟩ := kin
    exact ⟨rfl, rfl, ⟨(fun h => by cases h), (fun h => by cases h)⟩, fun _ => rfl⟩
  | spared => exact kin.1 ▸ .refl _
  | past => exact kin.1 ▸ .refl _

/-- What else is known of the session in which the operation may panic. -/
def Holds (task : Task) : Bearing → Instant → Prop
  | busy, _ => True
  | torn, i => i.focus = .caller ∧
      ∀ result, .returned result ∉ milestonesIn i.session.history task.id
  | fallen, i => i.focus ≠ .caller
  | spared, i => ∃ result, .returned (some result) ∈ milestonesIn i.session.history task.id
  | past, _ => True

end Bearing

namespace Session

variable {S : Setup} {s t : Session} {task : Task}

/-- The factory of an operation was called. -/
def made (s : Session) (task : Task) : Session :=
  ({ s with constructed := s.constructed + 1 }.reach task (.constructed s.constructed)).note
    (.created s.constructed s.clock)

/-- The operation last constructed is begun. -/
def begun (s : Session) (task : Task) (body : List BodyStep) : Session :=
  { s.note (.ran (s.constructed - 1) task.request task.input task.request.kind.isCancellable) with
    stage := .running task (s.constructed - 1) body s.clock }

theorem construct_eq (S : Setup) (s : Session) (task : Task) : s.construct S task =
    if S.breaks s.constructed task.request.kind then (s.made task).leaveBody task none
    else (s.made task).begun task (S.body task.request) := rfl

theorem history_construct (S : Setup) (s : Session) (task : Task) : (s.construct S task).history =
    s.history ++ [.reached task (.constructed s.constructed) s.clock,
      .note (.created s.constructed s.clock),
      if S.breaks s.constructed task.request.kind then .reached task (.returned none) s.clock
      else .note (.ran s.constructed task.request task.input task.request.kind.isCancellable)] := by
  rw [construct_eq]
  split <;> simp [history, made, begun, reach, note, record, leaveBody]

/-- The operation that the worker is in has not returned. -/
theorem Booked.unreturned (booked : Booked S s) {n wake : Nat} {rest : List BodyStep}
    (hs : s.stage = .running task n rest wake) (result : Option Result) :
    .returned result ∉ milestonesIn s.history task.id := by
  obtain ⟨⟨l, run, fits⟩, -⟩ := booked
  have worker := fits.worker
  rw [show s.workerSide.stage = _ from hs] at worker
  obtain ⟨slip, x, rfl, desk, -⟩ := worker
  have hroll : (slip, Stand.at (.busy x)) ∈ l.roll := by simp [Ledger.roll, desk]
  have milestones : milestonesIn s.history slip.task.id = _ := run.milestones _ hroll
  rw [milestones]
  simp [Stand.milestones, Stand.place?, Place.milestones]

/-- What the worker is about to tell of an operation is what that has returned. -/
theorem Booked.returned (booked : Booked S s) {result : Option Result}
    (hs : s.stage = .leaving task result) :
    .returned result ∈ milestonesIn s.history task.id := by
  obtain ⟨⟨l, run, fits⟩, -⟩ := booked
  have worker := fits.worker
  rw [show s.workerSide.stage = _ from hs] at worker
  obtain ⟨slip, x, rfl, desk⟩ := worker
  have hroll : (slip, Stand.at (.left x result)) ∈ l.roll := by simp [Ledger.roll, desk]
  have milestones : milestonesIn s.history slip.task.id = _ := run.milestones _ hroll
  rw [milestones]
  simp [Stand.milestones, Stand.place?, Place.milestones]

/-- Neither callers nor callbacks make an operation return. -/
theorem Arrives.unreturned (arrives : Arrives s t) {id : DispatchId}
    (unreturned : ∀ result, .returned result ∉ milestonesIn s.history id)
    (result : Option Result) : .returned result ∉ milestonesIn t.history id := by
  obtain ⟨more, hmore, passing, -⟩ := arrives.past
  rw [hmore, milestonesIn_append, List.mem_append, not_or]
  refine ⟨unreturned result, fun reached => ?_⟩
  obtain ⟨h, hmem, milestone⟩ := List.mem_filterMap.1 reached
  cases h with
  | reached task found time =>
    simp only [Happening.milestone?] at milestone
    split at milestone
    · cases milestone
      have submitted := ((passing _ hmem).2 _ rfl).1
      cases submitted
    · cases milestone
  | _ => cases milestone

theorem Arrives.still {step : CallerStep} (still : step.begins? s = none)
    (apart : step ≠ .teardown) : Arrives s (s.step S step).1 := by
  cases step with
  | command c => exact .perform S s c
  | sleep duration =>
    rw [step_sleep (rests_of_sleep still)]
    exact .refl s
  | shutdown =>
    rw [step_shutdown (rests_of_shutdown still)]
    exact .refl s
  | lateProgress sink update => exact .through s sink _
  | latePrevent sink => exact .through s sink _
  | teardown => exact absurd rfl apart
  | _ => exact .frame rfl rfl rfl

/-- Nor does a teardown. -/
theorem unreturned_teardown {id : DispatchId}
    (unreturned : ∀ result, .returned result ∉ milestonesIn s.history id)
    (result : Option Result) : .returned result ∉ milestonesIn s.teardown.history id :=
  (Arrives.record s (h := .tornDown) rfl rfl).unreturned unreturned result

end Session

namespace Bearing

open Instant

variable {S : Setup} {task : Task} {n : Nat} {m : Bearing} {i j : Instant}

/-- What is known goes on holding. -/
theorem Holds.next {h : Stage} {a b : List Happening} (holds : m.Holds task i)
    (booked : Session.Booked S i.session) (kin : m.Kin task n i.session.stage h a b)
    (move : Move S i j) : m.Holds task j := by
  cases m with
  | busy => trivial
  | past => trivial
  | spared =>
    obtain ⟨result, returned⟩ := holds
    obtain ⟨more, hmore⟩ := move.past
    exact ⟨result, by rw [← hmore, milestonesIn_append]; exact List.mem_append_left _ returned⟩
  | torn =>
    obtain ⟨caller, unreturned⟩ := holds
    obtain ⟨⟨dead, -⟩, -⟩ := kin
    cases move with
    | @still s step script answers still =>
      refine ⟨rfl, ?_⟩
      by_cases torn : step = .teardown
      · subst torn
        exact Session.unreturned_teardown unreturned
      · exact (Session.Arrives.still still torn).unreturned unreturned
    | begun begins =>
      have alive := (Session.acts_of_begins begins).2
      rw [(booked.2 dead).2] at alive
      cases alive
    | _ => cases caller
  | fallen =>
    obtain ⟨⟨leaving, -⟩, -⟩ := kin
    have onward : ∀ phase limit step events, Focus.onward phase limit step events ≠ .caller := by
      intro phase limit step events
      unfold Focus.onward
      split <;> exact fun h => by cases h
    cases move with
    | still => exact absurd rfl holds
    | begun => exact absurd rfl holds
    | ended settled rests =>
      dsimp only at leaving
      simp [Session.work?, Session.advance?, leaving, Stage.wake] at rests
    | unclaimed => exact onward _ _ _ _
    | resumed => exact onward _ _ _ _
    | _ => exact fun h => by cases h

section Worker

variable {s t : Session}

/-- A step that is no panic leaves the operation under way, or ends it with a result. -/
theorem stage_bodyStep (s : Session) {step : BodyStep} (works : step ≠ .panic)
    (rest : List BodyStep) :
    (∃ others wake, (s.bodyStep S task n rest step).stage = .running task n others wake) ∨
      ∃ result, (s.bodyStep S task n rest step).stage = .leaving task (some result) := by
  cases step with
  | panic => exact absurd rfl works
  | finish kind status log => exact .inr ⟨_, rfl⟩
  | stopIfCancelled steps =>
    simp only [Session.bodyStep]
    split
    · exact .inr ⟨_, rfl⟩
    · exact .inl ⟨_, _, rfl⟩
  | _ => exact .inl ⟨_, _, rfl⟩

/-- What the worker goes on to, from one bearing to another. -/
def Turns (task : Task) (n : Nat) (m : Bearing) (u v : Session) : Prop :=
  ∃ m' : Bearing, Session.Kin (m'.kinship task n) u v ∧ m' ≠ .torn ∧
    (m' = .spared → m = .spared ∨ ∃ result, u.stage = .leaving task (some result))

/-- The steps of the bodies are the same down to a panic. -/
theorem turns_of_busy (kin : Session.Kin (busy.kinship task n) s t) :
    Option.Rel (Turns task n busy) (s.advance? S) (t.advance? S) := by
  obtain ⟨⟨rest, wake, hs, ht⟩, -⟩ := kin.related
  have free : ((busy.kinship task n).pinned s.stage t.stage).Free := Kinship.free_pinned _ _ _
  simp only [Session.advance?, hs, ht]
  cases rest with
  | nil =>
    have left := kin.pin.leaveBody free task (some ⟨task.request.kind, .ok, []⟩)
    exact .some ⟨spared, left.mono rfl fun a b kin => ⟨rfl, kin.2⟩, (fun h => by cases h),
      fun _ => .inr ⟨_, rfl⟩⟩
  | cons step rest =>
    by_cases works : step = .panic
    · subst works
      refine .some ⟨fallen, ?_, (fun h => by cases h), (fun h => by cases h)⟩
      obtain ⟨agree, -, same⟩ := kin
      have fell : Fell task (.reached task (.returned none) s.clock :: s.trail)
          (.reached task (.returned (some (.ofPanic task.request.kind))) s.clock :: s.trail) :=
        .mk [] s.trail .nothing s.clock
      exact .mk agree ⟨⟨rfl, rfl⟩, same ▸ fell⟩
    · rw [BodyStep.mend_cons works]
      obtain ⟨done, stage⟩ := kin.pin.bodyStep free S (Kinship.fair_of_bare rfl s)
        (kin.sees fun _ _ h => by cases h) n
        (f := BodyStep.mend task.request.kind) rfl
      refine .some ?_
      rcases stage_bodyStep s works rest with ⟨others, wake, running⟩ | ⟨result, leaving⟩
      · refine ⟨busy, done.mono rfl fun a b kin => ⟨⟨others, wake, running, ?_⟩, kin.2⟩,
          (fun h => by cases h), (fun h => by cases h)⟩
        rw [stage, running]
        rfl
      · refine ⟨spared, done.mono rfl fun a b kin => ⟨?_, kin.2⟩, (fun h => by cases h),
          fun _ => .inr ⟨result, leaving⟩⟩
        rw [stage, leaving]
        rfl

/-- The panic is reported, and so is the failure. -/
theorem kin_leave (kin : Session.Kin (fallen.kinship task n) s t) :
    Session.Kin (past.kinship task n) (s.leave task none)
      (t.leave task (some (.ofPanic task.request.kind))) := by
  have rested : ∀ {u v : Session}, Session.Kin ((past.kinship task n).pinned .idle .idle) u v →
      Session.Kin (past.kinship task n) { u with stage := .idle, turn := .resumed }
        { v with stage := .idle, turn := .resumed } := by
    rintro u v ⟨agree, kin⟩
    exact .mk agree kin
  obtain ⟨agree, -, fell⟩ := kin
  rename_i tokens stage trail
  let status := (Result.ofPanic task.request.kind).status
  have logged : Session.Kin ((past.kinship task n).pinned .idle .idle)
      ((s.logWithin task .operationPanicked).logWithin task (.operationComplete status))
      ({ s with tokens := tokens, stage := stage, trail := trail }.logWithin task
        (.operationComplete status)) :=
    .mk agree ⟨rfl, .mk [] fell s.clock⟩
  exact rested (logged.emit _ _)

theorem works {limit : Option Nat} (kin : Session.Kin (m.kinship task n) s t)
    (there : m ≠ .torn) : Option.Rel (Turns task n m) (s.work? S limit) (t.work? S limit) := by
  have same : s.stage = t.stage →
      (∀ g a b, m.Kin task n s.stage s.stage a b → m.Kin task n g g a b) →
      Option.Rel (Turns task n m) (s.advance? S) (t.advance? S) := by
    intro same more
    have free : ((m.kinship task n).pinned s.stage t.stage).Free := Kinship.free_pinned _ _ _
    refine rel_of_some (kin.pin.advance free S same.symm (Kinship.fair_of_bare rfl s)
      (Kinship.blind_of_bare rfl s)) ?_
    rintro u v - ⟨kin, stage⟩
    refine ⟨m, kin.mono rfl fun a b kin => ?_, there, fun spared => .inl spared⟩
    rw [stage]
    refine more _ a b ?_
    rw [← same] at kin
    exact kin
  refine kin.work (abreast kin.related) (fun kin => ⟨m, kin, there, fun spared => .inl spared⟩)
    fun _ => ?_
  cases m with
  | busy => exact turns_of_busy kin
  | torn => exact absurd rfl there
  | fallen =>
    obtain ⟨⟨hs, ht⟩, -⟩ := kin.related
    simp only [Session.advance?, hs, ht]
    exact .some ⟨past, kin_leave kin, (fun h => by cases h), (fun h => by cases h)⟩
  | spared =>
    exact same kin.related.1 fun g a b kin => ⟨rfl, kin.2⟩
  | past =>
    exact same kin.related.1 fun g a b kin => ⟨rfl, kin.2⟩

end Worker

end Bearing

namespace Instant

variable {S : Setup} {steps : List CallerStep} {task : Task} {n : Nat} {m : Bearing}
variable {i j : Instant}

/-- The operation may panic in the one, where it fails in the other. -/
structure Beside (task : Task) (n : Nat) (m : Bearing) (i j : Instant) : Prop where
  akin : Akin (m.kinship task n) i j
  holds : m.Holds task i

theorem Beside.next (beside : Beside task n m i j) (occurs : Occurs S steps i) :
    Option.Rel (fun i' j' => ∃ m', Beside task n m' i' j') (i.next? S) (j.next? S) := by
  obtain ⟨akin, holds⟩ := beside
  have booked := Occurs.booked occurs
  have kin := akin.kin.related
  refine akin.next (fun next akin => ⟨m, akin, holds.next booked kin (move_of_next next)⟩)
    (Kinship.fair_of_bare rfl _) (Bearing.abreast kin) ?_ ?_
  · intro limit step focus settled
    have there : m ≠ .torn := by
      rintro rfl
      rw [holds.1] at focus
      cases focus
    refine rel_of_some (Bearing.works akin.kin there) ?_
    rintro u v works ⟨m', kin', there', spared⟩
    have move : Move S i { i with session := u } := move_of_next
      (by simp only [next?, focus, settled, works, Bool.false_eq_true, if_false])
    refine ⟨m', ⟨kin', akin.focus, akin.script, akin.answers⟩, ?_⟩
    cases m' with
    | busy => trivial
    | torn => exact absurd rfl there'
    | fallen =>
      intro caller
      rw [show i.focus = .caller from caller] at focus
      cases focus
    | spared =>
      rcases spared rfl with rfl | ⟨result, leaving⟩
      · exact holds.next (n := n) booked kin move
      · exact ⟨result, (move.booked booked).returned leaving⟩
    | past => trivial
  · intro rest caller script
    have torn : ∀ m' : Bearing, (∀ a b, m.Kin task n i.session.stage j.session.stage a b →
        m'.Kin task n .dead .dead a b) → Akin (m'.kinship task n)
          (i.answered (i.session.teardown, .ok) rest)
          (j.answered (j.session.teardown, .ok) rest) := by
      intro m' more
      have free : ((m.kinship task n).pinned i.session.stage j.session.stage).Free :=
        Kinship.free_pinned _ _ _
      have gone := akin.kin.pin.teardown free
      refine ⟨gone.mono rfl more, rfl, rfl, ?_⟩
      simp only [answered, akin.answers, gone.clock]
    cases m with
    | busy =>
      obtain ⟨⟨left, wake, running, -⟩, -⟩ := kin
      exact ⟨.torn, torn .torn fun a b kin => ⟨⟨rfl, rfl⟩, kin.2⟩, rfl,
        Session.unreturned_teardown (booked.unreturned running)⟩
    | torn =>
      exact ⟨.torn, torn .torn fun a b kin => ⟨⟨rfl, rfl⟩, kin.2⟩, rfl,
        Session.unreturned_teardown holds.2⟩
    | fallen => exact absurd caller holds
    | spared =>
      obtain ⟨result, returned⟩ := holds
      refine ⟨.spared, torn .spared fun a b kin => ⟨rfl, kin.2⟩, result, ?_⟩
      obtain ⟨more, hmore⟩ := Session.past_record i.session .tornDown
      show _ ∈ milestonesIn (i.session.record .tornDown).history task.id
      rw [← hmore, milestonesIn_append]
      exact List.mem_append_left _ returned
    | past => exact ⟨.past, torn .past fun a b kin => ⟨rfl, kin.2⟩, trivial⟩

/-- From where an operation may panic, or fails instead, to where all is done. -/
theorem Beside.outcome (beside : Beside task n m i j) (occurs : Occurs S steps i) :
    ∃ m', Beside task n m' (last (i.outcome S)) (last (j.outcome S)) := by
  refine outcome_of_lockstep (R := fun i' j' => ∃ m', Beside task n m' i' j') ?_ ⟨m, beside⟩
  rintro i' j' leads ⟨m', beside⟩
  exact beside.next (Relation.ReflTransGen.trans occurs leads)

end Instant

section Comparison

/-- What is left of a history when an operation fails where it has panicked. -/
inductive Spares (task : Task) : List Happening → List Happening → Prop
  | mk (before between after : List Happening) {omitted : List Happening}
      (omits : task.Omits omitted) (returned told : Nat) :
      Spares task
        (before ++ .reached task (.returned none) returned ::
          (between ++ task.logged told .operationPanicked :: task.gaveUp told :: after))
        (before ++ omitted ++
          .reached task (.returned (some (.ofPanic task.request.kind))) returned ::
            (between ++ task.gaveUp told :: after))

variable {task : Task} {a b : List Happening}

theorem Reported.spares (reported : Reported task a b) : Spares task a.reverse b.reverse := by
  obtain ⟨later, ⟨between, before, omits, returned⟩, told⟩ := reported
  have spares := Spares.mk before.reverse between.reverse later.reverse omits returned told
  cases omits with
  | nothing => simpa using spares
  | ran n => simpa using spares

theorem Spares.told (spares : Spares task a b) : toldIn b = toldIn a := by
  obtain ⟨before, between, after, omits, returned, told⟩ := spares
  cases omits <;>
    simp [toldIn, Happening.told?, Task.logged, Task.gaveUp, List.filterMap_cons]

theorem Spares.panicked (spares : Spares task a b) : .returned none ∈ milestonesIn a task.id := by
  obtain ⟨before, between, after, omits, returned, told⟩ := spares
  exact mem_milestonesIn.2 ⟨before, task, returned, _, rfl, rfl⟩

end Comparison

namespace Instant

variable {S : Setup} {steps : List CallerStep} {task : Task} {n : Nat} {m : Bearing}
variable {actual mended : Session × List (Reply × Nat)}

/-- The operation that is constructed may panic, where the other one fails. -/
theorem Constructs.beside {i : Instant} (constructs : i.Constructs task) :
    ∃ m n j, Beside task n m { i with session := i.session.construct S task } j ∧ j.outcome S =
      outcome S { i with session :=
        i.session.construct (S.mended i.session.constructed task.request.kind) task } := by
  obtain ⟨s, focus, script, answers⟩ := i
  obtain ⟨⟨limit, step, rfl⟩, -, settled⟩ := constructs
  dsimp only at settled ⊢
  -- The one that fails is always begun.
  have begun : s.construct (S.mended s.constructed task.request.kind) task =
      (s.made task).begun task ((S.mended s.constructed task.request.kind).body task.request) := by
    rw [Session.construct_eq, Setup.breaks_mended, if_neg Bool.false_ne_true]
  rw [begun, Session.construct_eq]
  cases breaks : S.breaks s.constructed task.request.kind with
  | false =>
    rw [S.body_mended _ _ breaks]
    exact ⟨.busy, s.constructed, ⟨(s.made task).begun task
        (BodyStep.mend task.request.kind (S.body task.request)), .work limit step, script, answers⟩,
      ⟨⟨.mk (.refl _) ⟨⟨S.body task.request, s.clock, rfl, rfl⟩, rfl⟩, rfl, rfl, rfl⟩, trivial⟩,
      rfl⟩
  | true =>
    rw [S.body_mended_of_breaks _ _ breaks, if_pos rfl]
    generalize hgiven : (s.made task).begun task [BodyStep.giveUp task.request.kind] = given
    have fails : given.work? S (some limit) =
        some (given.leaveBody task (some (.ofPanic task.request.kind))) := by
      rw [← hgiven]
      exact if_neg (Nat.lt_irrefl s.clock)
    have next : next? S ⟨given, .work limit step, script, answers⟩ =
        some ⟨given.leaveBody task (some (.ofPanic task.request.kind)), .work limit step, script,
          answers⟩ := by
      have quiet : given.mailbox = [] := by
        rw [← hgiven]
        exact settled
      simp only [next?, fails, quiet, List.isEmpty_nil, Bool.not_true, Bool.and_false,
        Bool.false_eq_true, if_false]
    have kin : Session.Kin (Bearing.fallen.kinship task s.constructed)
        ((s.made task).leaveBody task none)
        (given.leaveBody task (some (.ofPanic task.request.kind))) := by
      rw [← hgiven]
      exact .mk (.refl _) ⟨⟨rfl, rfl⟩, .mk [] (s.made task).trail (.ran s.constructed) s.clock⟩
    exact ⟨.fallen, s.constructed, ⟨given.leaveBody task (some (.ofPanic task.request.kind)),
        .work limit step, script, answers⟩,
      ⟨⟨kin, rfl, rfl, rfl⟩, fun h => by cases h⟩, outcome_next next⟩

/-- An operation is constructed where the worker is about to do so. -/
theorem Occurs.constructed {k : Instant} {n time : Nat} (occurs : Occurs S steps k)
    (happened : .reached task (.constructed n) time ∈ k.session.history) :
    ∃ i, Occurs S steps i ∧ i.Constructs task ∧ i.session.constructed = n ∧
      i.session.clock = time := by
  obtain ⟨i, j, before, next, -, occasion, more, hmore, now⟩ :=
    Occurs.occasion (r := .construction) occurs rfl happened
  cases occasion with
  | @commanded c _ command brings => cases c <;> simp [Session.mayBring] at brings
  | @constructing task' constructs =>
    rw [constructs.next] at next
    cases next
    rw [Session.history_construct, List.append_cancel_left_eq] at hmore
    rw [← hmore] at now
    have first : Happening.reached task (.constructed n) time =
        .reached task' (.constructed i.session.constructed) i.session.clock := by
      cases breaks : S.breaks i.session.constructed task'.request.kind <;> simpa [breaks] using now
    cases first
    exact ⟨i, before, constructs, rfl, rfl⟩

end Instant

namespace Session

end Session

end SerialDispatch
