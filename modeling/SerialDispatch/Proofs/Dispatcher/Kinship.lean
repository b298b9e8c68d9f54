import SerialDispatch.Proofs.Dispatcher.Caller
import SerialDispatch.Proofs.Dispatcher.Instants

/-!
# Sessions that hardly differ

Two sessions are kin when they differ at most in the flag of one token, in where the worker is, in
what has happened, and in requests to cancel that only one of them has logged. Where the worker may
be and what may have happened is left open here: `Kinship`. Whatever caller, delivery and worker do
to both leaves them kin, as long as nobody looks at the token. Main statements: `Kin.perform`,
`Kin.advance`.
-/
namespace SerialDispatch

namespace TokenPool

/-- Two pools of as many tokens that show the same, but for one token. -/
structure Agree (veiled : Option Token) (p q : TokenPool) : Prop where
  fresh : p.fresh = q.fresh
  shown : ∀ t, veiled ≠ some t → p.isCancelled t = q.isCancelled t

namespace Agree

variable {veiled : Option Token} {p q : TokenPool}

theorem refl (p : TokenPool) : Agree veiled p p := ⟨rfl, fun _ _ => rfl⟩

theorem symm (agree : Agree veiled p q) : Agree veiled q p :=
  ⟨agree.fresh.symm, fun t ht => (agree.shown t ht).symm⟩

theorem grow (agree : Agree veiled p q) : Agree veiled p.grow q.grow :=
  ⟨by rw [fresh_grow, fresh_grow, agree.fresh], fun t ht => by
    rw [isCancelled_grow, isCancelled_grow, agree.shown t ht]⟩

theorem cancel (agree : Agree veiled p q) (t : Token) :
    Agree veiled (p.cancel t) (q.cancel t) := by
  refine ⟨by rw [fresh_cancel, fresh_cancel, agree.fresh], fun u hu => ?_⟩
  by_cases known : t < p.fresh
  · rw [isCancelled_cancel _ _ _ known, isCancelled_cancel _ _ _ (agree.fresh ▸ known),
      agree.shown u hu]
  · have unknown : ¬ t < q.fresh := agree.fresh ▸ known
    have same : ∀ r : TokenPool, ¬ t < r.fresh → r.cancel t = r := fun r hr => by
      rw [TokenPool.cancel, List.set_eq_of_length_le (Nat.le_of_not_lt hr)]
    rw [same p known, same q unknown, agree.shown u hu]

/-- Raising the flag of the veiled token on one side changes nothing that is shown. -/
theorem cancel_veiled {t : Token} (agree : Agree (some t) p q) : Agree (some t) p (q.cancel t) := by
  refine ⟨by rw [fresh_cancel, agree.fresh], fun u hu => ?_⟩
  have other : t ≠ u := fun same => hu (congrArg some same)
  rw [agree.shown u hu, isCancelled, isCancelled, TokenPool.cancel, List.getElem?_set_ne other]

/-- Where nothing is veiled the pools are the same. -/
theorem eq (agree : Agree none p q) : p = q := by
  obtain ⟨flags⟩ := p
  obtain ⟨others⟩ := q
  obtain ⟨fresh, shown⟩ := agree
  refine congrArg TokenPool.mk (List.ext_getElem fresh fun t ht ht' => ?_)
  have same := shown t (fun h => by cases h)
  simpa [isCancelled, List.getElem?_eq_getElem ht, List.getElem?_eq_getElem ht'] using same

end Agree
end TokenPool

/-- How far two sessions may differ. -/
structure Kinship where
  /-- The token that may be raised in one of them only. -/
  veiled : Option Token
  /-- Who may have been requested to be cancelled in one of them only. -/
  loose : DispatchId → Prop
  /-- Where their workers may be, and what may have happened, the latest first. -/
  kin : Stage → Stage → List Happening → List Happening → Prop
  cons : ∀ {g h : Stage} {a b : List Happening} (x : Happening), kin g h a b →
    kin g h (x :: a) (x :: b)
  requested : ∀ {g h : Stage} {a b : List Happening} {id : DispatchId} (time : Nat), loose id →
    kin g h a b →
      kin g h (.log ⟨time, none, .cancellationRequested id⟩ :: a) b ∧
        kin g h a (.log ⟨time, none, .cancellationRequested id⟩ :: b)

namespace Session

/-- The sessions differ no further. -/
inductive Kin (k : Kinship) (s : Session) : Session → Prop
  | mk {tokens : TokenPool} {stage : Stage} {trail : List Happening}
      (agree : s.tokens.Agree k.veiled tokens) (kin : k.kin s.stage stage s.trail trail) :
      Kin k s { s with tokens := tokens, stage := stage, trail := trail }

end Session

/-- The stage with other steps still to do. -/
def Stage.onRest (f : List BodyStep → List BodyStep) : Stage → Stage
  | .running task n rest wake => .running task n (f rest) wake
  | stage => stage

@[simp] theorem Stage.onRest_id (g : Stage) : g.onRest id = g := by
  cases g <;> rfl

/-- What all others see of where a worker is, is the same of both. -/
structure Stage.Abreast (g h : Stage) : Prop where
  wake : h.wake = g.wake
  isOver : h.isOver = g.isOver
  dead : h = .dead ↔ g = .dead
  givesWay : ∀ s : Session, { s with stage := h }.givesWay = { s with stage := g }.givesWay

theorem Stage.Abreast.refl (g : Stage) : g.Abreast g := ⟨rfl, rfl, .rfl, fun _ => rfl⟩

/-- Whether the operation looks whether it is cancelled. -/
def BodyStep.looks : BodyStep → Bool
  | .poll | .stopIfCancelled _ => true
  | _ => false

namespace Kinship

/-- No handle but those of loose dispatches holds the veiled token. -/
def Fair (k : Kinship) (s : Session) : Prop :=
  ∀ handle ∈ s.handles, k.veiled = some handle.2 → k.loose handle.1

/-- The worker does not look at the veiled token next. -/
def Blind (k : Kinship) (s : Session) : Prop :=
  match s.stage with
  | .idle => ∀ task ∈ s.inbox.waiting, k.veiled ≠ some task.token
  | .window task _ => k.veiled ≠ some task.token
  | .running task _ (step :: _) _ =>
    step.looks = true → task.request.kind.isCancellable = true → k.veiled ≠ some task.token
  | _ => True

/-- It does not matter where the workers are. -/
def Free (k : Kinship) : Prop :=
  ∀ {g h g' h' : Stage} {a b : List Happening}, k.kin g h a b → k.kin g' h' a b

/-- The same, wherever the workers are from now on. -/
def pinned (k : Kinship) (g h : Stage) : Kinship where
  veiled := k.veiled
  loose := k.loose
  kin _ _ := k.kin g h
  cons := k.cons
  requested := k.requested

/-- Where nothing is veiled nobody can find out anything. -/
theorem fair_of_bare {k : Kinship} (bare : k.veiled = none) (s : Session) : k.Fair s :=
  fun _ _ veiled => by rw [bare] at veiled; cases veiled

theorem blind_of_bare {k : Kinship} (bare : k.veiled = none) (s : Session) : k.Blind s := by
  have unveiled : ∀ token : Token, k.veiled ≠ some token := fun _ h => by rw [bare] at h; cases h
  unfold Blind
  split
  · exact fun _ _ => unveiled _
  · exact unveiled _
  · exact fun _ _ => unveiled _
  · trivial

theorem free_pinned (k : Kinship) (g h : Stage) : (k.pinned g h).Free := fun kin => kin

end Kinship

namespace Session
namespace Kin

variable {k : Kinship} {s t : Session} {S : Setup}

section Fields

theorem clock (kin : Kin k s t) : t.clock = s.clock := by
  cases kin
  rfl

theorem owner (kin : Kin k s t) : t.owner = s.owner := by
  cases kin
  rfl

theorem alive (kin : Kin k s t) : t.alive = s.alive := by
  cases kin
  rfl

theorem starts (kin : Kin k s t) : t.starts = s.starts := by
  cases kin
  rfl

theorem nextId (kin : Kin k s t) : t.nextId = s.nextId := by
  cases kin
  rfl

theorem handles (kin : Kin k s t) : t.handles = s.handles := by
  cases kin
  rfl

theorem inbox (kin : Kin k s t) : t.inbox = s.inbox := by
  cases kin
  rfl

theorem phase (kin : Kin k s t) : t.phase = s.phase := by
  cases kin
  rfl

theorem mailbox (kin : Kin k s t) : t.mailbox = s.mailbox := by
  cases kin
  rfl

theorem callbacks (kin : Kin k s t) : t.callbacks = s.callbacks := by
  cases kin
  rfl

/-- Where the workers are and what has happened, for one who knows the kinship. -/
theorem related (kin : Kin k s t) : k.kin s.stage t.stage s.trail t.trail := by
  obtain ⟨-, related⟩ := kin
  exact related

end Fields

section Basics

theorem record (kin : Kin k s t) (h : Happening) : Kin k (s.record h) (t.record h) := by
  obtain ⟨agree, kin⟩ := kin
  exact .mk agree (k.cons h kin)

theorem log (kin : Kin k s t) (event : LogEvent) : Kin k (s.log event) (t.log event) := by
  obtain ⟨agree, kin⟩ := kin
  exact .mk agree (k.cons _ kin)

theorem logWithin (kin : Kin k s t) (task : Task) (event : LogEvent) :
    Kin k (s.logWithin task event) (t.logWithin task event) := by
  obtain ⟨agree, kin⟩ := kin
  exact .mk agree (k.cons _ kin)

theorem note (kin : Kin k s t) (n : WorkerNote) : Kin k (s.note n) (t.note n) := kin.record _

theorem reach (kin : Kin k s t) (task : Task) (milestone : Milestone) :
    Kin k (s.reach task milestone) (t.reach task milestone) := by
  obtain ⟨agree, kin⟩ := kin
  exact .mk agree (k.cons _ kin)

theorem send (kin : Kin k s t) (m : Message Command) : Kin k (s.send m) (t.send m) := by
  obtain ⟨agree, kin⟩ := kin
  unfold Session.send
  dsimp only
  split
  · exact .mk agree (k.cons _ kin)
  · exact .mk agree (k.cons _ kin)

theorem emit (kin : Kin k s t) (id : DispatchId) (signal : Signal) :
    Kin k (s.emit id signal) (t.emit id signal) := kin.send _

theorem raise (kin : Kin k s t) (token : Token) :
    Kin k { s with tokens := s.tokens.cancel token }
      { t with tokens := t.tokens.cancel token } := by
  obtain ⟨agree, kin⟩ := kin
  exact .mk (agree.cancel token) kin

theorem refuse (kin : Kin k s t) (id : DispatchId) (token : Token) :
    Kin k (s.refuse id token) (t.refuse id token) := (kin.raise token).emit _ _

theorem signalStop (kin : Kin k s t) (owner : Owner) :
    Kin k (s.signalStop owner) (t.signalStop owner) := by
  obtain ⟨agree, kin⟩ := kin
  exact .mk agree (k.cons _ kin)

theorem allot (kin : Kin k s t) : Kin k s.allot t.allot := by
  obtain ⟨agree, kin⟩ := kin
  exact .mk agree.grow kin

theorem submit (kin : Kin k s t) (callback : Nat) (task : Task) :
    Kin k (s.submit callback task) (t.submit callback task) := by
  have handed : ∀ {u v : Session} (handle : DispatchId × Token), Kin k u v →
      Kin k { u with handles := u.handles ++ [handle] }
        { v with handles := v.handles ++ [handle] } := by
    rintro u v handle ⟨agree, kin⟩
    exact .mk agree kin
  unfold Session.submit
  rw [kin.inbox]
  refine handed _ ?_
  cases s.inbox.submit task with
  | ok inbox =>
    have taken : Kin k { s with inbox := inbox } { t with inbox := inbox } := by
      obtain ⟨agree, kin⟩ := kin
      exact .mk agree kin
    exact (taken.reach task _).log _
  | error e => exact (kin.log _).refuse _ _

theorem startRequest (kin : Kin k s t) (S : Setup) (request : Request) (input : CryptoInput)
    (surface : Surface) (callback : Callback Command) :
    Kin k (s.startRequest S request input surface callback).1
        (t.startRequest S request input surface callback).1 ∧
      (s.startRequest S request input surface callback).2 =
        (t.startRequest S request input surface callback).2 := by
  have fresh : t.tokens.fresh = s.tokens.fresh := by
    obtain ⟨agree, -⟩ := kin
    exact agree.fresh.symm
  unfold Session.startRequest
  rw [fresh, kin.nextId, kin.handles]
  cases S.registry.resolve request.kind with
  | error refusal => exact ⟨kin, rfl⟩
  | ok factory =>
    dsimp only
    split
    · exact ⟨kin.allot, rfl⟩
    · exact ⟨(kin.allot.send _).submit _ _, rfl⟩

/-- Cancelling is seen in what is loose, and in nothing else. -/
theorem cancel (kin : Kin k s t) (fair : k.Fair s) (handle : Nat) :
    Kin k (s.cancel handle).1 (t.cancel handle).1 ∧ (s.cancel handle).2 = (t.cancel handle).2 := by
  obtain ⟨agree, kin⟩ := kin
  rename_i tokens stage trail
  unfold Session.cancel
  dsimp only
  cases found : s.handles[handle]? with
  | none => exact ⟨.mk agree kin, rfl⟩
  | some pair =>
    obtain ⟨id, token⟩ := pair
    dsimp only
    have marked := k.cons (.cancelled id) kin
    by_cases hidden : k.veiled = some token
    · have loose : k.loose id := fair (id, token) (List.mem_of_getElem? found) hidden
      have raised : s.tokens.Agree k.veiled (tokens.cancel token) := by
        rw [hidden] at agree ⊢
        exact agree.cancel_veiled
      have risen : (s.tokens.cancel token).Agree k.veiled tokens := by
        rw [hidden] at agree ⊢
        exact agree.symm.cancel_veiled.symm
      split <;> split
      · exact ⟨.mk agree marked, rfl⟩
      · exact ⟨.mk raised (k.requested _ loose marked).2, rfl⟩
      · exact ⟨.mk risen (k.requested _ loose marked).1, rfl⟩
      · exact ⟨.mk (agree.cancel token) (k.cons _ marked), rfl⟩
    · rw [agree.shown token hidden]
      split
      · exact ⟨.mk agree marked, rfl⟩
      · exact ⟨.mk (agree.cancel token) (k.cons _ marked), rfl⟩

theorem perform (kin : Kin k s t) (fair : k.Fair s) (S : Setup) (c : Command) :
    Kin k (s.perform S c).1 (t.perform S c).1 ∧ (s.perform S c).2 = (t.perform S c).2 := by
  cases c with
  | start request input surface panicsOn reactions =>
    have counted : Kin k { s with starts := s.starts + 1 } { t with starts := t.starts + 1 } := by
      obtain ⟨agree, kin⟩ := kin
      exact .mk agree kin
    simp only [Session.perform, kin.starts, kin.owner]
    rw [kin.starts, kin.owner] at counted
    split
    · exact ⟨kin, rfl⟩
    · split
      · exact counted.startRequest S _ _ _ _
      · exact ⟨counted, rfl⟩
  | cancel handle => exact kin.cancel fair handle
  | drop =>
    simp only [Session.perform, kin.owner]
    split
    · exact ⟨kin.signalStop .gone, rfl⟩
    · exact ⟨kin, rfl⟩
  | unreadable word fault => exact ⟨kin, rfl⟩

theorem through (kin : Kin k s t) (sink : Nat) (signal : Signal) :
    Kin k (s.through sink signal).1 (t.through sink signal).1 ∧
      (s.through sink signal).2 = (t.through sink signal).2 := by
  have held : t.sinkHeld sink = s.sinkHeld sink := by
    cases kin
    rfl
  unfold Session.through
  rw [held]
  cases s.sinkHeld sink with
  | none => exact ⟨kin, rfl⟩
  | some id => exact ⟨(kin.record _).emit _ _, rfl⟩

theorem ask (kin : Kin k s t) (step : StoreStep) :
    Kin k (s.ask step).1 (t.ask step).1 ∧ (s.ask step).2 = (t.ask step).2 := by
  obtain ⟨agree, kin⟩ := kin
  exact ⟨.mk agree kin, rfl⟩

theorem react (kin : Kin k s t) (fair : k.Fair s) (S : Setup) (callback : Nat) (c : Command) :
    Kin k (s.react S callback c) (t.react S callback c) := by
  obtain ⟨done, same⟩ := kin.perform fair S c
  unfold Session.react
  rw [same]
  exact done.record _

theorem call (kin : Kin k s t) (callback : Callback Command) (e : Event) :
    Kin k (s.call callback e) (t.call callback e) := by
  obtain ⟨agree, kin⟩ := kin
  exact .mk agree (k.cons _ kin)

theorem panicDelivery (kin : Kin k s t) : Kin k s.panicDelivery t.panicDelivery := by
  obtain ⟨agree, kin⟩ := kin
  exact .mk agree kin

theorem taken (kin : Kin k s t) (S : Setup) :
    Kin k (s.taken S) (t.taken S) ∧ s.dueEvents S = t.dueEvents S := by
  obtain ⟨agree, kin⟩ := kin
  exact ⟨.mk agree kin, rfl⟩

theorem look {task : Task} (kin : Kin k s t) (sees : t.seesCancelled task = s.seesCancelled task) :
    Kin k (s.look task) (t.look task) := by
  unfold Session.look
  rw [sees]
  exact kin.reach _ _

theorem beginShutdown (kin : Kin k s t) : Kin k s.beginShutdown t.beginShutdown := by
  unfold Session.beginShutdown
  rw [kin.owner]
  split
  · exact kin.signalStop .closing
  · exact kin

/-- An operation is shown the same, unless it is given the veiled token. -/
theorem sees {task : Task} {looks : Prop} (kin : Kin k s t)
    (blind : looks → task.request.kind.isCancellable = true → k.veiled ≠ some task.token) :
    looks → t.seesCancelled task = s.seesCancelled task := by
  intro looking
  obtain ⟨agree, -⟩ := kin
  unfold Session.seesCancelled
  cases cancellable : task.request.kind.isCancellable with
  | false => rfl
  | true => rw [agree.shown _ (blind looking cancellable)]

theorem logShutdown (kin : Kin k s t) (dead : t.stage = .dead ↔ s.stage = .dead) :
    Kin k s.logShutdown t.logShutdown := by
  have reported : ∀ {u v : Session}, Kin k u v →
      Kin k (if u.phase = .alive then u else u.log .deliveryDied)
        (if v.phase = .alive then v else v.log .deliveryDied) := by
    rintro u v ⟨agree, kin⟩
    dsimp only
    split
    · exact .mk agree kin
    · exact .mk agree (k.cons _ kin)
  have there : ∀ {u : Session}, u.stage ≠ .dead →
      u.logShutdown = if u.phase = .alive then u else u.log .deliveryDied := by
    intro u there
    unfold Session.logShutdown
    cases hs : u.stage with
    | dead => exact absurd hs there
    | _ => rfl
  by_cases gone : s.stage = .dead
  · unfold Session.logShutdown
    rw [gone, dead.2 gone]
    exact reported (kin.log _)
  · rw [there gone, there (mt dead.1 gone)]
    exact reported kin

theorem isComplete (kin : Kin k s t) (isOver : t.stage.isOver = s.stage.isOver) :
    t.isComplete = s.isComplete := by
  obtain ⟨agree, kin⟩ := kin
  unfold Session.isComplete
  rw [isOver]
  rfl

theorem finishShutdown (kin : Kin k s t) (dead : t.stage = .dead ↔ s.stage = .dead) :
    Kin k s.finishShutdown t.finishShutdown := by
  have gone : Kin k { s with owner := .gone } { t with owner := .gone } := by
    obtain ⟨agree, kin⟩ := kin
    exact .mk agree kin
  have noted := (gone.logShutdown dead).note (.shutdownDone s.clock)
  obtain ⟨agree, kin⟩ := kin
  exact noted

/-- A shutdown in the background ends in both sessions or in neither. -/
theorem concludes (kin : Kin k s t) (same : t.stage = s.stage) :
    Option.Rel (fun u v => Kin k u v ∧ v.stage = u.stage)
      (if s.owner = .closing && s.isComplete then some s.finishShutdown else none)
      (if t.owner = .closing && t.isComplete then some t.finishShutdown else none) := by
  have complete := kin.isComplete (congrArg Stage.isOver same)
  have stays : ∀ u : Session, u.finishShutdown.stage = u.stage := fun u =>
    (logShutdown_same { u with owner := .gone }).1
  rw [complete, kin.owner]
  split
  · refine .some ⟨kin.finishShutdown (by rw [same]), ?_⟩
    rw [stays, stays, same]
  · exact .none

/-- A step that gives no way does the same to both and is answered alike. -/
theorem still {step : CallerStep} (kin : Kin k s t) (fair : k.Fair s) (S : Setup)
    (still : step.begins? s = none) (apart : step ≠ .teardown) :
    Kin k (s.step S step).1 (t.step S step).1 ∧ (s.step S step).2 = (t.step S step).2 := by
  cases step with
  | command c => exact kin.perform fair S c
  | sleep duration =>
    have rests := rests_of_sleep still
    rw [step_sleep rests, step_sleep (kin.alive ▸ rests), kin.alive]
    exact ⟨kin, rfl⟩
  | shutdown =>
    have rests := rests_of_shutdown still
    rw [step_shutdown rests, step_shutdown (kin.alive ▸ kin.owner ▸ rests), kin.alive]
    exact ⟨kin, rfl⟩
  | lateProgress sink update => exact kin.through sink _
  | latePrevent sink => exact kin.through sink _
  | release sink =>
    obtain ⟨agree, kin⟩ := kin
    exact ⟨.mk agree kin, rfl⟩
  | store step => exact kin.ask step
  | teardown => exact absurd rfl apart
  | unreadable fault => exact ⟨kin, rfl⟩

/-- A step gives way in both sessions, until the same time, or in neither. -/
theorem begins (kin : Kin k s t) (step : CallerStep) :
    Option.Rel (fun p q => p.1 = q.1 ∧ Kin k p.2 q.2) (step.begins? s) (step.begins? t) := by
  have signalled := kin.signalStop .gone
  obtain ⟨agree, kin⟩ := kin
  cases step with
  | sleep duration =>
    simp only [CallerStep.begins?]
    split
    · exact .some ⟨rfl, .mk agree kin⟩
    · exact .none
  | shutdown =>
    simp only [CallerStep.begins?]
    split
    · obtain ⟨agree, kin⟩ := signalled
      exact .some ⟨rfl, .mk agree kin⟩
    · exact .none
  | _ => exact .none

theorem ends (kin : Kin k s t) (abreast : s.stage.Abreast t.stage) (limit : Nat)
    (step : CallerStep) :
    Kin k (step.ends limit s).1 (step.ends limit t).1 ∧
      (step.ends limit s).2 = (step.ends limit t).2 := by
  have timed : Kin k { s with clock := limit } { t with clock := limit } := by
    obtain ⟨agree, kin⟩ := kin
    exact .mk agree kin
  cases step with
  | shutdown =>
    simp only [CallerStep.ends, kin.isComplete abreast.isOver]
    split
    · exact ⟨kin.logShutdown abreast.dead, rfl⟩
    · exact ⟨timed, rfl⟩
  | _ => exact ⟨timed, rfl⟩

/-- Delivery goes before both workers or before none. -/
theorem givesWay (kin : Kin k s t) (abreast : s.stage.Abreast t.stage) :
    t.givesWay = s.givesWay := by
  obtain ⟨agree, kin⟩ := kin
  exact abreast.givesWay s

/-- Both workers go on, or wait for the same time. -/
theorem work {r : Session → Session → Prop} {limit : Option Nat} (kin : Kin k s t)
    (abreast : s.stage.Abreast t.stage)
    (waits : Kin k { s with clock := s.stage.wake } { t with clock := s.stage.wake } →
      r { s with clock := s.stage.wake } { t with clock := s.stage.wake })
    (goes : s.stage.wake ≤ s.clock → Option.Rel r (s.advance? S) (t.advance? S)) :
    Option.Rel r (s.work? S limit) (t.work? S limit) := by
  unfold Session.work?
  rw [kin.clock, abreast.wake]
  split
  · split
    · refine .some (waits ?_)
      obtain ⟨agree, kin⟩ := kin
      exact .mk agree kin
    · exact .none
  · rename_i woken
    exact goes (Nat.le_of_not_lt woken)

end Basics

/-- Of one kinship follows another. -/
theorem mono {other : Kinship} (kin : Kin k s t) (veiled : other.veiled = k.veiled)
    (more : ∀ a b, k.kin s.stage t.stage a b → other.kin s.stage t.stage a b) : Kin other s t := by
  obtain ⟨agree, kin⟩ := kin
  exact .mk (veiled ▸ agree) (more _ _ kin)

theorem pin (kin : Kin k s t) : Kin (k.pinned s.stage t.stage) s t := kin.mono rfl fun _ _ h => h

section Worker

variable (free : k.Free)

include free

/-- The workers go wherever they go. -/
theorem restage (kin : Kin k s t) (g h : Stage) :
    Kin k { s with stage := g } { t with stage := h } := by
  obtain ⟨agree, kin⟩ := kin
  exact .mk agree (free kin)

theorem teardown (kin : Kin k s t) : Kin k s.teardown t.teardown := by
  obtain ⟨agree, kin⟩ := kin
  exact .mk agree (free (k.cons _ kin))

theorem check {task : Task} (kin : Kin k s t) (unveiled : k.veiled ≠ some task.token) :
    Kin k (s.check task) (t.check task) ∧ (t.check task).stage = (s.check task).stage := by
  have same : t.tokens.isCancelled task.token = s.tokens.isCancelled task.token := by
    obtain ⟨agree, -⟩ := kin
    exact (agree.shown _ unveiled).symm
  unfold Session.check
  rw [same]
  split
  · exact ⟨(((kin.reach _ _).logWithin _ _).emit _ _).restage free _ _, rfl⟩
  · exact ⟨(kin.reach _ _).restage free _ _, rfl⟩

theorem take (S : Setup) {task : Task} (kin : Kin k s t) (unveiled : k.veiled ≠ some task.token)
    (rest : List Task) :
    Kin k (s.take S task rest) (t.take S task rest) ∧
      (t.take S task rest).stage = (s.take S task rest).stage := by
  have taken : Kin k
      { s with inbox := { s.inbox with waiting := rest }, turn := s.turn.worked }
      { t with inbox := { t.inbox with waiting := rest }, turn := t.turn.worked } := by
    obtain ⟨agree, kin⟩ := kin
    exact .mk agree kin
  have reached := taken.reach task .taken
  unfold Session.take
  dsimp only
  split
  · refine ⟨(reached.logWithin _ _).restage free _ _, ?_⟩
    show Stage.window task (Timer.due t.clock _) = .window task (Timer.due s.clock _)
    rw [kin.clock]
  · exact reached.check free unveiled

theorem leaveBody (kin : Kin k s t) (task : Task) (result : Option Result) :
    Kin k (s.leaveBody task result) (t.leaveBody task result) :=
  (kin.reach _ _).restage free _ _

theorem construct (S : Setup) (kin : Kin k s t) (task : Task) :
    Kin k (s.construct S task) (t.construct S task) ∧
      (t.construct S task).stage = (s.construct S task).stage := by
  obtain ⟨agree, kin⟩ := kin
  unfold Session.construct
  dsimp only
  split
  · exact ⟨.mk agree (free (k.cons _ (k.cons _ (k.cons _ kin)))), rfl⟩
  · exact ⟨.mk agree (free (k.cons _ (k.cons _ (k.cons _ kin)))), rfl⟩

/-- The operations may have different steps still to do. -/
theorem bodyStep (S : Setup) {task : Task} {step : BodyStep} (kin : Kin k s t) (fair : k.Fair s)
    (sees : step.looks = true → t.seesCancelled task = s.seesCancelled task) (n : Nat)
    {rest : List BodyStep} {f : List BodyStep → List BodyStep}
    (flush : f (.flush :: rest) = .flush :: f rest) :
    Kin k (s.bodyStep S task n rest step) (t.bodyStep S task n (f rest) step) ∧
      (t.bodyStep S task n (f rest) step).stage =
        ((s.bodyStep S task n rest step).stage).onRest f := by
  have next : ∀ {u v : Session}, Kin k u v →
      Kin k { u with stage := .running task n rest u.clock }
          { v with stage := .running task n (f rest) v.clock } ∧
        Stage.running task n (f rest) v.clock = (Stage.running task n rest u.clock).onRest f := by
    rintro u v ⟨agree, kin⟩
    exact ⟨.mk agree (free kin), rfl⟩
  have noted : ∀ {u v : Session} {a b : Reply} (word : String), Kin k u v ∧ a = b →
      Kin k (u.note (.stepped n word a)) (v.note (.stepped n word b)) := by
    rintro u v a b word ⟨kin, rfl⟩
    exact kin.note _
  cases step with
  | progress update => exact next (kin.emit _ _)
  | prevent => exact next (kin.emit _ _)
  | flush => exact next kin
  | work duration =>
    obtain ⟨agree, kin⟩ := kin
    exact ⟨.mk agree (free kin), rfl⟩
  | poll =>
    have seen := sees rfl
    exact next (noted "poll" ⟨kin.look seen, by rw [seen]⟩)
  | stopIfCancelled steps =>
    have seen := sees rfl
    simp only [Session.bodyStep, seen]
    split
    · exact ⟨(kin.look seen).leaveBody free _ _, rfl⟩
    · exact next (kin.look seen)
  | leak =>
    refine next (noted "leak" ?_)
    obtain ⟨agree, kin⟩ := kin
    exact ⟨.mk agree kin, rfl⟩
  | panic => exact ⟨kin.leaveBody free _ _, rfl⟩
  | finish kind status log => exact ⟨kin.leaveBody free _ _, rfl⟩
  | store step => exact next (noted step.word (kin.ask step))
  | command c => exact next (noted c.word (kin.perform fair S c))
  | shutdown =>
    have begun := noted "shutdown" ⟨kin.beginShutdown, (rfl : Reply.ok = .ok)⟩
    refine ⟨begun.restage free _ _, ?_⟩
    show Stage.running task n (.flush :: f rest) t.clock =
      .running task n (f (.flush :: rest)) s.clock
    rw [kin.clock, flush]
  | unreadable word fault => exact next (noted word ⟨kin, rfl⟩)

theorem leave (kin : Kin k s t) (task : Task) (result : Option Result) :
    Kin k (s.leave task result) (t.leave task result) := by
  have rested : ∀ {u v : Session}, Kin k u v →
      Kin k { u with stage := .idle, turn := .resumed }
        { v with stage := .idle, turn := .resumed } := by
    rintro u v ⟨agree, kin⟩
    exact .mk agree (free kin)
  unfold Session.leave
  cases result.isNone with
  | true => exact rested (((kin.logWithin _ _).logWithin _ _).emit _ _)
  | false => exact rested ((kin.logWithin _ _).emit _ _)

theorem windDown (kin : Kin k s t) : Kin k s.windDown t.windDown := by
  have discards : ∀ tasks : List Task,
      Kin k (tasks.foldl Session.discard s) (tasks.foldl Session.discard t) := fun tasks =>
    List.foldl_rel kin fun task _ u v kin =>
      (((kin.raise task.token).reach task .discarded).log _).emit _ _
  have ended : ∀ {u v : Session}, Kin k u v →
      Kin k { u with stage := .ended, inbox := u.inbox.close }
        { v with stage := .ended, inbox := v.inbox.close } := by
    rintro u v ⟨agree, kin⟩
    exact .mk agree (free kin)
  unfold Session.windDown
  rw [kin.inbox]
  exact ended (discards _)

/-- The worker of both sessions goes on alike, if it does not look at the veiled token. -/
theorem advance (S : Setup) (kin : Kin k s t) (same : t.stage = s.stage) (fair : k.Fair s)
    (blind : k.Blind s) :
    Option.Rel (fun u v => Kin k u v ∧ v.stage = u.stage) (s.advance? S) (t.advance? S) := by
  cases hs : s.stage with
  | idle =>
    simp only [Kinship.Blind, hs] at blind
    simp only [Session.advance?, same, hs, kin.inbox]
    split
    · exact .some ⟨kin.windDown free, rfl⟩
    · cases hw : s.inbox.waiting with
      | nil => exact .none
      | cons task rest =>
        exact .some (kin.take free S (blind task (by rw [hw]; exact List.mem_cons_self)) rest)
  | window task wake =>
    simp only [Kinship.Blind, hs] at blind
    rw [Session.advance_window hs, Session.advance_window (same.trans hs)]
    have resumed : Kin k { s with turn := .resumed } { t with turn := .resumed } := by
      obtain ⟨agree, kin⟩ := kin
      exact .mk agree kin
    exact .some (resumed.check free blind)
  | ready task =>
    simp only [Session.advance?, same, hs]
    exact .some (kin.construct free S task)
  | running task n rest wake =>
    simp only [Session.advance?, same, hs]
    cases rest with
    | nil => exact .some ⟨kin.leaveBody free _ _, rfl⟩
    | cons step rest =>
      simp only [Kinship.Blind, hs] at blind
      obtain ⟨done, stage⟩ := kin.bodyStep free S fair (kin.sees blind) n (f := id) rfl
      exact .some ⟨done, stage.trans (Stage.onRest_id _)⟩
  | leaving task result =>
    simp only [Session.advance?, same, hs]
    exact .some ⟨kin.leave free _ _, rfl⟩
  | ended =>
    simp only [Session.advance?, same, hs]
    exact kin.concludes same
  | dead =>
    simp only [Session.advance?, same, hs]
    exact kin.concludes same

end Worker
end Kin
end Session

end SerialDispatch
