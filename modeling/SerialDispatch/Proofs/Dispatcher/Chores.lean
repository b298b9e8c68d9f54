import Mathlib.Logic.Relation
import SerialDispatch.Proofs.Dispatcher.History

/-!
# The chores of the worker

Whatever the worker does, it changes what is its own, writes something down, or sends a message,
one after another; only the construction of an operation, a command that an operation gives, and the
end of a shutdown in the background are more than that. So what holds of these few chores, and of
the three exceptions, holds of every step of the worker. Main statement: `Session.turn_of_advance`.
-/
namespace SerialDispatch

/-- Whether the worker may write it down at any time: it is no message and no call, accepts,
constructs, cancels and refuses nothing, and is no part of the report of a shutdown. -/
def Happening.isRoutine : Happening → Bool
  | .reached _ (.submitted _) _ | .reached _ (.constructed _) _ | .note (.shutdownDone _) => false
  | .log record =>
    match record.event with
    | .dispatchRefused .. | .cancellationRequested _ | .unclaimed .. | .deliveryDied
    | .workerDied => false
    | _ => true
  | .reached .. | .note _ | .late _ | .stopping => true
  | _ => false

/-- What is no message, no call, and no dispatch that is accepted. -/
structure Happening.Plain (h : Happening) : Prop where
  unsent : h.message? = none
  untold : h.told? = none
  unaccepted : h.accepted? = none

theorem Happening.plain_of_routine {h : Happening} (routine : h.isRoutine = true) : h.Plain := by
  cases h with
  | reached task milestone time =>
    cases milestone with
    | submitted callback => cases routine
    | _ => exact ⟨rfl, rfl, rfl⟩
  | sent | lost | told => cases routine
  | _ => exact ⟨rfl, rfl, rfl⟩

namespace Session

open Relation

/-- What holds of each part, and of one part after another, holds of all that is done. -/
theorem lift_parts {part R : Session → Session → Prop} {s t : Session}
    (parts : ReflTransGen part s t) (refl : ∀ s, R s s)
    (trans : ∀ {s t u}, R s t → R t u → R s u) (one : ∀ {s t}, part s t → R s t) : R s t := by
  induction parts with
  | refl => exact refl _
  | tail _ next ih => exact trans ih (one next)

/-- One chore of the worker. -/
inductive Chore : Session → Session → Prop
  /-- What delivery and the callers depend on stays as it is. -/
  | own {s t : Session} (same : t = { s with
      owner := t.owner, tokens := t.tokens, inbox := t.inbox, stage := t.stage, turn := t.turn,
      constructed := t.constructed, sinks := t.sinks, store := t.store }) : Chore s t
  | wrote (s : Session) {h : Happening} (routine : h.isRoutine = true) : Chore s (s.record h)
  | sent (s : Session) (m : Message Command) : Chore s (s.send m)

/-- One chore after another. -/
def Chores : Session → Session → Prop := ReflTransGen Chore

namespace Chores

variable {S : Setup} {s t u : Session}

theorem refl (s : Session) : Chores s s := ReflTransGen.refl

theorem trans (first : Chores s t) (second : Chores t u) : Chores s u :=
  ReflTransGen.trans first second

/-- Whatever the worker does, it does at once. -/
theorem clock (chores : Chores s t) : t.clock = s.clock := by
  refine lift_parts (R := fun u v => v.clock = u.clock) chores (fun _ => rfl)
    (fun first second => second.trans first) fun {u v} chore => ?_
  cases chore with
  | own same => rw [same]
  | wrote routine => rfl
  | sent m =>
    unfold send
    split <;> rfl

theorem own (same : t = { s with
    owner := t.owner, tokens := t.tokens, inbox := t.inbox, stage := t.stage, turn := t.turn,
    constructed := t.constructed, sinks := t.sinks, store := t.store }) : Chores s t :=
  .single (.own same)

theorem wrote (s : Session) {h : Happening} (routine : h.isRoutine = true) :
    Chores s (s.record h) := .single (.wrote s routine)

theorem emit (s : Session) (id : DispatchId) (signal : Signal) : Chores s (s.emit id signal) :=
  .single (.sent s _)

theorem signalStop (s : Session) (owner : Owner) : Chores s (s.signalStop owner) :=
  have signalled : Chores s { s with owner := owner, inbox := s.inbox.stop } := own rfl
  signalled.trans (wrote _ rfl)

theorem through (s : Session) (sink : Nat) (signal : Signal) :
    Chores s (s.through sink signal).1 := by
  unfold Session.through
  cases s.sinkHeld sink with
  | none => exact refl s
  | some id => exact (wrote s rfl).trans (emit _ _ _)

variable (S s) (task : Task)

theorem check : Chores s (s.check task) := by
  unfold Session.check
  split
  · exact (((wrote s rfl).trans (wrote _ rfl)).trans (emit _ _ _)).trans (own rfl)
  · exact (wrote s rfl).trans (own rfl)

theorem take (rest : List Task) : Chores s (s.take S task rest) := by
  have taken : Chores s { s with
      inbox := { s.inbox with waiting := rest }, turn := s.turn.worked } := own rfl
  have reached := taken.trans (wrote _ (h := .reached task .taken s.clock) rfl)
  unfold Session.take
  dsimp only
  split
  · exact (reached.trans (wrote _ rfl)).trans (own rfl)
  · exact reached.trans (check _ _)

theorem leaveBody (result : Option Result) : Chores s (s.leaveBody task result) :=
  (wrote s rfl).trans (own rfl)

theorem beginShutdown : Chores s s.beginShutdown := by
  unfold Session.beginShutdown
  split
  · exact signalStop s .closing
  · exact refl s

/-- A step of a body that gives no command. -/
theorem bodyStep {step : BodyStep} (plain : ∀ c, step ≠ .command c) (n : Nat)
    (rest : List BodyStep) : Chores s (s.bodyStep S task n rest step) := by
  have next : ∀ {t : Session}, Chores s t →
      Chores s { t with stage := .running task n rest t.clock } :=
    fun chores => chores.trans (own rfl)
  have noted : ∀ {t : Session} (word : String) (reply : Reply), Chores s t →
      Chores s (t.note (.stepped n word reply)) := fun _ _ chores => chores.trans (wrote _ rfl)
  have looked : Chores s (s.look task) := wrote s rfl
  cases step with
  | progress update => exact next (emit _ _ _)
  | prevent => exact next (emit _ _ _)
  | flush => exact next (refl s)
  | work duration => exact own rfl
  | poll => exact next (noted _ _ looked)
  | stopIfCancelled steps =>
    simp only [Session.bodyStep]
    split
    · exact looked.trans (leaveBody _ _ _)
    · exact next looked
  | leak => exact next (noted _ _ (own rfl))
  | panic => exact leaveBody _ _ _
  | finish kind status log => exact leaveBody _ _ _
  | store step => exact next (noted _ _ (own rfl))
  | command c => exact absurd rfl (plain c)
  | shutdown => exact (noted "shutdown" .ok (beginShutdown s)).trans (own rfl)
  | unreadable word fault => exact next (noted _ _ (refl s))

theorem leave (result : Option Result) : Chores s (s.leave task result) := by
  have ended : ∀ {t : Session} (status : Status) (signal : Signal), Chores s t →
      Chores s { (t.logWithin task (.operationComplete status)).emit task.id signal with
        stage := .idle, turn := .resumed } := fun _ _ chores =>
    ((chores.trans (wrote _ rfl)).trans (emit _ _ _)).trans (own rfl)
  unfold Session.leave
  cases result.isNone with
  | true => exact ended _ _ (wrote s rfl)
  | false => exact ended _ _ (refl s)

theorem discard : Chores s (s.discard task) :=
  have raised : Chores s { s with tokens := s.tokens.cancel task.token } := own rfl
  ((raised.trans (wrote _ rfl)).trans (wrote _ rfl)).trans (emit _ _ _)

theorem windDown : Chores s s.windDown := by
  have discards : Chores s (s.inbox.waiting.foldl Session.discard s) :=
    List.foldlRecOn _ _ (motive := (Chores s ·)) (refl s)
      fun u chores task _ => chores.trans (discard u task)
  exact discards.trans (own rfl)

end Chores

/-- The report at the end of a shutdown does nothing but log. -/
theorem logShutdown_induct {motive : Session → Prop} {s : Session} (same : motive s)
    (worker : ∀ u, motive u → motive (u.log .workerDied))
    (delivery : ∀ u, motive u → motive (u.log .deliveryDied)) : motive s.logShutdown := by
  have reported : ∀ u, motive u → motive (if u.phase = .alive then u else u.log .deliveryDied) := by
    intro u holds
    split
    · exact holds
    · exact delivery u holds
  unfold logShutdown
  cases s.stage with
  | dead => exact reported _ (worker s same)
  | _ => exact reported _ same

/-- What a step of the worker can be. -/
inductive WorkerTurn (S : Setup) (s : Session) : Session → Prop
  | routine {t : Session} (chores : Chores s t) : WorkerTurn S s t
  | constructing {t : Session} (task : Task) (ready : s.stage = .ready task)
      (chores : Chores ({ s with constructed := s.constructed + 1 }.reach task
        (.constructed s.constructed)) t) : WorkerTurn S s t
  | commanded (task : Task) (n : Nat) (c : Command) (rest : List BodyStep) (wake : Nat)
      (running : s.stage = .running task n (.command c :: rest) wake) :
      WorkerTurn S s (s.bodyStep S task n rest (.command c))
  | finishing (halted : s.stage.isOver = true) (closing : s.owner = .closing)
      (complete : s.isComplete = true) : WorkerTurn S s s.finishShutdown

theorem turn_of_advance {S : Setup} {s t : Session} (h : s.advance? S = some t) :
    WorkerTurn S s t := by
  cases advance_cases h with
  | windDown => exact .routine (.windDown s)
  | take => exact .routine (.take S s _ _)
  | check =>
    have turned : Chores s { s with turn := .resumed } := .own rfl
    exact .routine (turned.trans (.check _ _))
  | @construct task ready =>
    refine .constructing task ready ?_
    unfold construct
    dsimp only
    split
    · exact (Chores.wrote _ rfl).trans (.leaveBody _ _ _)
    · exact ((Chores.wrote _ rfl).trans (.wrote _ rfl)).trans (.own rfl)
  | endBody => exact .routine (.leaveBody s _ _)
  | @bodyStep task n wake step rest runs =>
    by_cases plain : ∃ c, step = .command c
    · obtain ⟨c, rfl⟩ := plain
      exact .commanded task n c rest wake runs
    · exact .routine (.bodyStep S s task (fun c hc => plain ⟨c, hc⟩) n rest)
  | leave => exact .routine (.leave s _ _)
  | finishShutdown halted closing complete => exact .finishing halted closing complete

end Session
end SerialDispatch
