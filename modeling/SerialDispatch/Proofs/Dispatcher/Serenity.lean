import SerialDispatch.Proofs.Dispatcher.Calm
import SerialDispatch.Proofs.Dispatcher.Course
import SerialDispatch.Proofs.Dispatcher.Panic

/-!
# A calm session stays calm

Steps of the caller have their calm counterparts too. A session that is its own counterpart remains
so in a calm setup, so no callback in it ever panics. Main statement: `Session.serene_runScript`.
-/
namespace SerialDispatch

variable {S : Setup}

theorem BodyStep.calm_calm (step : BodyStep) : step.calm.calm = step.calm := by
  cases step with
  | command c => rw [calm, calm, c.calm_calm]
  | _ => rfl

theorem CallerStep.calm_calm (step : CallerStep) : step.calm.calm = step.calm := by
  cases step with
  | command c => rw [calm, calm, c.calm_calm]
  | _ => rfl

theorem Factory.calm_calm (f : Factory) : f.calm.calm = f.calm := by
  obtain ⟨body, bound, cost_le⟩ := f
  simp [calm, Function.comp_def, BodyStep.calm_calm]

theorem Setup.calm_calm (S : Setup) : S.calm.calm = S.calm := by
  simp [calm, Function.comp_def, Factory.calm_calm]

namespace Session

variable {s t : Session} {limit : Option Nat}

theorem history_calm (s : Session) : s.calm.history = s.history.map Happening.calm := by
  unfold history
  rw [show s.calm.trail = s.trail.map Happening.calm from rfl, List.map_reverse]

/-- A step that begins no run has the same effect and the same answer. -/
theorem calm_still {step : CallerStep} (still : step.begins? s = none) :
    s.calm.step S.calm step.calm = ((s.step S step).1.calm, (s.step S step).2) := by
  cases step with
  | command command => exact calm_perform S s command
  | sleep duration =>
    have rests := rests_of_sleep still
    rw [step_sleep rests]
    exact step_sleep rests
  | shutdown =>
    have rests := rests_of_shutdown still
    rw [step_shutdown rests]
    exact step_shutdown rests
  | lateProgress sink update => exact calm_through s sink _
  | latePrevent sink => exact calm_through s sink _
  | _ => rfl

theorem calm_begins {step : CallerStep} : step.calm.begins? s.calm =
    (step.begins? s).map fun run => (run.1, run.2.calm) := by
  cases step with
  | sleep duration =>
    simp only [CallerStep.calm, CallerStep.begins?, show s.calm.alive = s.alive from rfl]
    split <;> rfl
  | shutdown =>
    simp only [CallerStep.calm, CallerStep.begins?, show s.calm.alive = s.alive from rfl,
      show s.calm.owner = s.owner from rfl]
    split <;> rfl
  | _ => rfl

theorem calm_ends (limit : Nat) (step : CallerStep) :
    step.calm.ends limit s.calm = ((step.ends limit s).1.calm, (step.ends limit s).2) := by
  cases step with
  | shutdown =>
    simp only [CallerStep.calm, CallerStep.ends, isComplete_calm, ← calm_logShutdown]
    split <;> rfl
  | _ => rfl

theorem calm_taken (S : Setup) (s : Session) : (s.taken S).calm = s.calm.taken S.calm := by
  unfold taken
  simp only [show S.calm.config = S.config from rfl,
    show s.calm.mailbox = s.mailbox.map Message.calm from rfl, Message.nextBatch_calm,
    show s.calm.callbacks = s.callbacks.calm from rfl, Message.registered_calm]
  rfl

theorem dueEvents_calm (S : Setup) (s : Session) : s.calm.dueEvents S.calm = s.dueEvents S := by
  unfold dueEvents
  simp only [show S.calm.config = S.config from rfl,
    show s.calm.mailbox = s.mailbox.map Message.calm from rfl, Message.nextBatch_calm,
    Message.events_calm]

/-- The session is calm, and delivery has not panicked in it. -/
structure Serene (s : Session) : Prop where
  itself : s.calm = s
  unharmed : s.phase ≠ .panicked

namespace Serene

/-- No callback that a calm session knows panics. -/
theorem unmoved (serene : s.Serene) {id : DispatchId} {callback : Callback Command}
    (found : s.callbacks.find? id = some callback) : callback.panicsOn = none := by
  have callbacks : s.callbacks.calm = s.callbacks := congrArg Session.callbacks serene.itself
  have itself := s.callbacks.find_calm id
  rw [callbacks, found, Option.map_some] at itself
  exact congrArg Callback.panicsOn (Option.some.inj itself)

/-- Nor has any in its history. -/
theorem tame (serene : s.Serene) (call : Nat × Event) : ¬ PanicsIn s.history call := by
  rintro ⟨callback, attached, -, panics⟩
  obtain ⟨h, hh, sent⟩ := List.mem_filterMap.1 attached
  cases h with
  | sent m =>
    cases sent
    have history : s.history.map Happening.calm = s.history := by
      rw [← history_calm, serene.itself]
    have itself := List.map_inj_left.1 (history.trans (List.map_id _).symm) _ hh
    simp only [Happening.calm, Message.calm, id_eq, Happening.sent.injEq, Message.attach.injEq]
      at itself
    have never := congrArg Callback.panicsOn itself.2
    rw [panics] at never
    cases never
  | _ => cases sent

theorem begins (serene : s.Serene) {step : CallerStep} (same : step.calm = step) {limit : Nat}
    (begins : step.begins? s = some (limit, t)) : t.Serene := by
  have follows : step.calm.begins? s.calm = (step.begins? s).map fun run => (run.1, run.2.calm) :=
    calm_begins
  rw [same, serene.itself, begins] at follows
  have begun : t = t.calm := congrArg Prod.snd (Option.some.inj follows)
  refine ⟨begun.symm, ?_⟩
  rw [(acts_of_begins begins).1.phase]
  exact serene.unharmed

section Setting

variable (calmly : S.calm = S)

include calmly

theorem deliverEvent (serene : s.Serene) (e : Event) : (s.deliverEvent S e).Serene := by
  have phase : (s.deliverEvent S e).phase = s.phase := by
    rcases deliverEvent_outcome S s e with ⟨-, h⟩ | ⟨callback, found, ⟨panics, -⟩ | ⟨-, h⟩⟩
    · rw [h]
      rfl
    · rw [serene.unmoved found] at panics
      cases panics
    · rw [h]
      exact (Posts.reactions S _ _ _).phase
  have unharmed : (s.deliverEvent S e).phase ≠ .panicked := by
    rw [phase]
    exact serene.unharmed
  have counterpart := calm_deliverEvent S s e unharmed
  rw [calmly, serene.itself] at counterpart
  exact ⟨counterpart, unharmed⟩

theorem deliverEvents (serene : s.Serene) (events : List Event) :
    (s.deliverEvents S events).Serene :=
  deliverEvents_induct (fun _ e serene => serene.deliverEvent calmly e) events serene

theorem deliverRound (serene : s.Serene) : (s.deliverRound S).Serene := by
  have taken : (s.taken S).calm = s.taken S := by
    have counterpart := calm_taken S s
    rwa [calmly, serene.itself] at counterpart
  exact deliverEvents (s := s.taken S) calmly ⟨taken, serene.unharmed⟩ _

theorem next (serene : s.Serene) (next : s.next? S limit = some t) : t.Serene := by
  have counterpart : s.calm.next? S.calm limit = (s.next? S limit).map calm :=
    calm_next fun _ => (serene.deliverRound calmly).unharmed
  rw [calmly, serene.itself, next] at counterpart
  refine ⟨(Option.some.inj counterpart).symm, ?_⟩
  by_cases gives : (s.givesWay && !s.mailbox.isEmpty) = true
  · rw [next_of_waiting gives] at next
    cases next
    exact (serene.deliverRound calmly).unharmed
  · rw [Bool.not_eq_true] at gives
    rw [phase_of_settled gives next]
    exact serene.unharmed

theorem run (limit : Option Nat) (serene : s.Serene) : (s.run S limit).Serene := by
  fun_induction Session.run S limit s with
  | case1 s _ => exact serene
  | case2 s t next ih => exact ih (serene.next calmly next)

/-- Delivery goes on in it as long as it is given something to run on. -/
theorem alive_run (limit : Option Nat) (serene : s.Serene) (alive : s.phase = .alive) :
    (s.run S limit).phase = .alive := by
  rcases (follows_run S limit s).phase with same | panicked
  · exact same.trans alive
  · exact absurd panicked (serene.run calmly limit).unharmed

theorem step (serene : s.Serene) {step : CallerStep} (same : step.calm = step) :
    (s.step S step).1.Serene := by
  cases begins : step.begins? s with
  | none =>
    have counterpart := calm_still (S := S) begins
    rw [calmly, serene.itself, same] at counterpart
    refine ⟨(congrArg Prod.fst counterpart).symm, ?_⟩
    rcases acts_of_still (S := S) begins with ⟨acts, -⟩ | rfl
    · rw [acts.phase]
      exact serene.unharmed
    · exact fun h => by cases h
  | some run =>
    obtain ⟨limit, u⟩ := run
    have ran := (serene.begins same begins).run calmly (some limit)
    rw [step_of_begins begins]
    refine ⟨?_, by rw [phase_ends]; exact ran.unharmed⟩
    have counterpart := calm_ends (s := u.run S (some limit)) limit step
    rw [same, ran.itself] at counterpart
    exact (congrArg Prod.fst counterpart).symm

end Setting
end Serene

/-- The calm counterpart of a script leads to a calm session. -/
theorem serene_runScript (S : Setup) (steps : List CallerStep) :
    (start.runScript S.calm (steps.map CallerStep.calm)).Serene := by
  unfold runScript
  induction steps using List.reverseRecOn with
  | nil => exact ⟨rfl, fun h => by cases h⟩
  | append_singleton steps step ih =>
    rw [List.map_append, List.foldl_append]
    exact ih.step S.calm_calm step.calm_calm

end Session
end SerialDispatch
