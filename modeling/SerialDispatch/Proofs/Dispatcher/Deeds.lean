import Mathlib.Data.List.Basic
import SerialDispatch.Proofs.Dispatcher.Dealings

/-!
# The deeds of caller and worker

What caller and worker do is written down in the history. As long as delivery takes messages all
that they send waits in the mailbox; when it does not, all is lost. They tell no callback anything.
`Session.Does` says so; the reports of a shutdown that comes to its end are apart.
-/
namespace SerialDispatch

/-- The message that delivery has taken. -/
def Happening.sent? : Happening → Option (Message Command)
  | .sent m => some m
  | _ => none

/-- The message that was sent in vain. -/
def Happening.lost? : Happening → Option (Message Command)
  | .lost m => some m
  | _ => none

/-- Whether caller or worker may have done it, in this phase of delivery. -/
def Happening.isDeed (phase : Phase) : Happening → Bool
  | .sent _ => phase = .alive
  | .lost _ => phase ≠ .alive
  | .told .. | .did .. | .tornDown | .note (.shutdownDone _) => false
  | .log record => record.event ≠ .deliveryDied && record.event ≠ .workerDied
  | _ => true

theorem Happening.deed_of_routine {h : Happening} (routine : h.isRoutine = true) (phase : Phase) :
    h.isDeed phase = true := by
  cases h with
  | log record =>
    cases hevent : record.event <;>
      simp [Happening.isRoutine, Happening.isDeed, hevent] at routine ⊢
  | note n => cases n <;> simp [Happening.isRoutine, Happening.isDeed] at routine ⊢
  | sent | lost | told | did | tornDown => cases routine
  | _ => rfl

/-- The messages that delivery has taken, in order. -/
def sentIn (history : List Happening) : List (Message Command) :=
  history.filterMap Happening.sent?

/-- The messages that were sent in vain, in order. -/
def lostIn (history : List Happening) : List (Message Command) :=
  history.filterMap Happening.lost?

namespace Session

/-- From one session to the other these deeds were done. -/
structure Does (s t : Session) (deeds : List Happening) : Prop where
  history : t.history = s.history ++ deeds
  phase : t.phase = s.phase
  callbacks : t.callbacks = s.callbacks
  alive : t.alive = s.alive
  mailbox : t.mailbox = s.mailbox ++ sentIn deeds
  deed : ∀ h ∈ deeds, h.isDeed s.phase = true

/-- What delivery has, and what has happened. -/
def deliveryPart (s : Session) :
    List Happening × Phase × Callbacks Command × Bool × List (Message Command) :=
  (s.trail, s.phase, s.callbacks, s.alive, s.mailbox)

namespace Does

variable {s t u : Session} {deeds more : List Happening}

theorem frame (part : t.deliveryPart = s.deliveryPart) : Does s t [] := by
  simp only [deliveryPart, Prod.mk.injEq] at part
  obtain ⟨trail, phase, callbacks, alive, mailbox⟩ := part
  exact ⟨by rw [Session.history, trail, List.append_nil]; rfl, phase, callbacks, alive,
    by rw [mailbox, sentIn, List.filterMap_nil, List.append_nil], fun _ h => by cases h⟩

theorem refl (s : Session) : Does s s [] := frame rfl

theorem trans (first : Does s t deeds) (second : Does t u more) : Does s u (deeds ++ more) := by
  refine ⟨?_, second.phase.trans first.phase, second.callbacks.trans first.callbacks,
    second.alive.trans first.alive, ?_, fun h hmem => ?_⟩
  · rw [second.history, first.history, List.append_assoc]
  · rw [second.mailbox, first.mailbox, List.append_assoc, sentIn, sentIn, sentIn,
      List.filterMap_append]
  · rcases List.mem_append.1 hmem with hmem | hmem
    · exact first.deed h hmem
    · rw [← first.phase]
      exact second.deed h hmem

/-- What is no message may be done in any phase. -/
theorem record (s : Session) {h : Happening} (unsent : h.message? = none)
    (deed : ∀ phase, h.isDeed phase = true) : Does s (s.record h) [h] := by
  refine ⟨history_record s h, rfl, rfl, rfl, ?_, fun k hk => ?_⟩
  · have nothing : sentIn [h] = [] := by
      cases h with
      | sent m => cases unsent
      | _ => rfl
    rw [nothing, List.append_nil]
    rfl
  · rw [List.mem_singleton.1 hk]
    exact deed s.phase

theorem send (s : Session) (m : Message Command) : ∃ deeds, Does s (s.send m) deeds := by
  unfold Session.send
  by_cases hp : s.phase = .alive
  · rw [if_pos hp]
    refine ⟨[.sent m], history_record _ _, rfl, rfl, rfl, rfl, fun k hk => ?_⟩
    rw [List.mem_singleton.1 hk]
    simp [Happening.isDeed, hp]
  · rw [if_neg hp]
    refine ⟨[.lost m], history_record _ _, rfl, rfl, rfl, (List.append_nil _).symm, fun k hk => ?_⟩
    rw [List.mem_singleton.1 hk]
    simp [Happening.isDeed, hp]

/-- While delivery goes on nothing is lost. -/
theorem unlost (does : Does s t deeds) (alive : s.phase = .alive) : lostIn deeds = [] := by
  refine List.filterMap_eq_nil_iff.2 fun h hh => ?_
  have deed := does.deed h hh
  cases h with
  | lost m => simp [Happening.isDeed, alive] at deed
  | _ => rfl

theorem messages (does : Does s t deeds) (alive : s.phase = .alive) :
    messagesIn deeds = sentIn deeds := by
  refine List.filterMap_congr fun h hh => ?_
  have deed := does.deed h hh
  cases h with
  | lost m => simp [Happening.isDeed, alive] at deed
  | _ => rfl

theorem untold (does : Does s t deeds) : toldIn deeds = [] := by
  refine List.filterMap_eq_nil_iff.2 fun h hh => ?_
  have deed := does.deed h hh
  cases h with
  | told callback e => cases deed
  | _ => rfl

end Does

/-- Some deeds were done from one session to the other. -/
def Acts (s t : Session) : Prop := ∃ deeds, Does s t deeds

namespace Acts

variable {s t u : Session}

theorem refl (s : Session) : Acts s s := ⟨[], .refl s⟩

theorem past (acts : Acts s t) : s.history <+: t.history := by
  obtain ⟨deeds, does⟩ := acts
  exact ⟨deeds, does.history.symm⟩

theorem phase (acts : Acts s t) : t.phase = s.phase := by
  obtain ⟨deeds, does⟩ := acts
  exact does.phase

theorem alive (acts : Acts s t) : t.alive = s.alive := by
  obtain ⟨deeds, does⟩ := acts
  exact does.alive

theorem trans (first : Acts s t) (second : Acts t u) : Acts s u := by
  obtain ⟨deeds, first⟩ := first
  obtain ⟨more, second⟩ := second
  exact ⟨deeds ++ more, first.trans second⟩

theorem frame (part : t.deliveryPart = s.deliveryPart) : Acts s t := ⟨[], .frame part⟩

theorem record (s : Session) {h : Happening} (unsent : h.message? = none)
    (deed : ∀ phase, h.isDeed phase = true) : Acts s (s.record h) := ⟨[h], .record s unsent deed⟩

theorem send (s : Session) (m : Message Command) : Acts s (s.send m) := Does.send s m

theorem emit (s : Session) (id : DispatchId) (signal : Signal) : Acts s (s.emit id signal) :=
  send s _

theorem reach (s : Session) (task : Task) (milestone : Milestone) :
    Acts s (s.reach task milestone) := record s rfl fun _ => rfl

theorem note (s : Session) {n : WorkerNote}
    (deed : ∀ phase, (Happening.note n).isDeed phase = true) : Acts s (s.note n) :=
  record s rfl deed

theorem log (s : Session) {event : LogEvent}
    (deed : event ≠ .deliveryDied ∧ event ≠ .workerDied) : Acts s (s.log event) :=
  record s rfl fun _ => by simp [Happening.isDeed, deed]

theorem logWithin (s : Session) (task : Task) {event : LogEvent}
    (deed : event ≠ .deliveryDied ∧ event ≠ .workerDied) : Acts s (s.logWithin task event) :=
  record s rfl fun _ => by simp [Happening.isDeed, deed]

/-- The chores of the worker are deeds. -/
theorem chores (chores : Chores s t) : Acts s t := by
  refine lift_parts chores refl trans fun chore => ?_
  cases chore with
  | own same => exact frame (by rw [same]; rfl)
  | wrote routine =>
    exact record _ (Happening.plain_of_routine routine).unsent (Happening.deed_of_routine routine)
  | sent m => exact send _ m

theorem signalStop (s : Session) (owner : Owner) : Acts s (s.signalStop owner) :=
  chores (.signalStop s owner)

/-- Commands are deeds. -/
theorem perform (S : Setup) (s : Session) (c : Command) : Acts s (s.perform S c).1 := by
  refine lift_parts (Dealings.perform S s c) refl trans fun {u v} dealing => ?_
  cases dealing with
  | own same => exact frame (by rw [same]; rfl)
  | sent m => exact send u m
  | @accepted callback task inbox =>
    have taken : Acts u { u with inbox := inbox } := frame rfl
    exact (taken.trans (reach _ _ _)).trans (log _ (by simp))
  | refused => exact log u (by simp)
  | handed handle => exact frame rfl
  | cancelled id => exact record u rfl fun _ => rfl
  | requested id => exact log u (by simp)
  | stopped => exact signalStop u .gone

theorem through (s : Session) (sink : Nat) (signal : Signal) :
    Acts s (s.through sink signal).1 := chores (.through s sink signal)

/-- The worker acts, or a shutdown in the background comes to its end. -/
theorem advance (S : Setup) (h : s.advance? S = some t) : Acts s t ∨
    s.stage.isOver = true ∧ s.owner = .closing ∧ s.isComplete = true ∧ t = s.finishShutdown := by
  cases turn_of_advance h with
  | routine did => exact .inl (chores did)
  | constructing task ready did =>
    have counted : Acts s { s with constructed := s.constructed + 1 } := frame rfl
    exact .inl ((counted.trans (reach _ task _)).trans (chores did))
  | commanded task n c rest =>
    exact .inl (((perform S s c).trans (note _ fun _ => rfl)).trans (frame rfl))
  | finishing halted closing complete => exact .inr ⟨halted, closing, complete, rfl⟩

end Acts
end Session
end SerialDispatch
