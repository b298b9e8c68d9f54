import SerialDispatch.Dispatcher.Run

/-!
# Sessions that are over within a number of steps

How long a session runs is found out by running it, so `Session.run` does not compute within a
proof. Here a session is given a number of steps, and one that needs no more of them is as it would
be without: `runScript_of_within`.
-/
namespace SerialDispatch
namespace Session

variable {S : Setup}

/-- Does all that is to be done before the limit, if that takes less than so many steps. -/
def runWithin (S : Setup) (limit : Option Nat) : Nat → Session → Option Session
  | 0, _ => none
  | fuel + 1, s =>
    match s.next? S limit with
    | none => some s
    | some t => runWithin S limit fuel t

theorem run_of_within {fuel : Nat} {limit : Option Nat} {s t : Session}
    (h : runWithin S limit fuel s = some t) : s.run S limit = t := by
  induction fuel generalizing s with
  | zero => cases h
  | succ fuel ih =>
    rw [runWithin] at h
    rw [run]
    split at h
    · rename_i hnext
      rw [hnext]
      exact Option.some.inj h
    · rename_i u hnext
      rw [hnext]
      exact ih h

/-- A step of the caller, where each run takes less than so many steps. -/
def stepWithin (S : Setup) (fuel : Nat) (s : Session) : CallerStep → Option (Session × Reply)
  | .sleep duration =>
    let time := Timer.due s.clock duration
    if !s.alive then some (s, .refused .noRuntime)
    else if duration = 0 then some (s, .ok)
    else (runWithin S (some time) fuel { s with turn := .first }).map fun ran =>
      ({ ran with clock := time }, .ok)
  | .shutdown =>
    let limit := s.clock + patience
    if !s.alive then some (s, .refused .noRuntime)
    else if s.owner = .held then
      (runWithin S (some limit) fuel { s.signalStop .gone with turn := .first }).map fun ran =>
        if ran.isComplete then (ran.logShutdown, .stopped)
        else ({ ran with clock := limit }, .pending)
    else some (s, .refused .gone)
  | step => some (s.step S step)

theorem step_of_within {fuel : Nat} {s : Session} {step : CallerStep} {done : Session × Reply}
    (h : s.stepWithin S fuel step = some done) : s.step S step = done := by
  cases step with
  | sleep duration =>
    simp only [stepWithin] at h
    simp only [step]
    split at h
    · rename_i gone
      rw [if_pos gone]
      exact Option.some.inj h
    · rename_i there
      rw [if_neg there]
      split at h
      · rename_i short
        rw [if_pos short]
        exact Option.some.inj h
      · rename_i long
        obtain ⟨ran, hran, rfl⟩ := Option.map_eq_some_iff.1 h
        rw [if_neg long, sleepUntil, run_of_within hran]
  | shutdown =>
    simp only [stepWithin] at h
    simp only [step]
    split at h
    · rename_i gone
      rw [if_pos gone]
      exact Option.some.inj h
    · rename_i there
      rw [if_neg there]
      split at h
      · rename_i held
        obtain ⟨ran, hran, rfl⟩ := Option.map_eq_some_iff.1 h
        rw [if_pos held, shutdown, run_of_within hran]
      · rename_i free
        rw [if_neg free]
        exact Option.some.inj h
  | _ => exact Option.some.inj h

/-- The session after a script, where each run takes less than so many steps. -/
def scriptWithin (S : Setup) (fuel : Nat) (s : Session) : List CallerStep → Option Session
  | [] => some s
  | step :: rest => (s.stepWithin S fuel step).bind fun done => done.1.scriptWithin S fuel rest

theorem script_of_within {fuel : Nat} {s t : Session} {steps : List CallerStep}
    (h : s.scriptWithin S fuel steps = some t) : s.runScript S steps = t := by
  induction steps generalizing s with
  | nil => exact Option.some.inj h
  | cons step rest ih =>
    obtain ⟨done, hdone, hrest⟩ := Option.bind_eq_some_iff.1 h
    rw [← ih hrest, ← step_of_within hdone]
    rfl

section Views

variable {α : Type} {a : α} {steps : List CallerStep}

/-- What is found out about a script within so many steps is true of it. -/
theorem runScript_of_within (fuel : Nat) (view : Session → α)
    (h : (start.scriptWithin S fuel steps).map view = some a) :
    view (start.runScript S steps) = a := by
  obtain ⟨t, ht, rfl⟩ := Option.map_eq_some_iff.1 h
  rw [script_of_within ht]

/-- So is what is found out about one more step of the caller. -/
theorem answer_of_within {step : CallerStep} (fuel : Nat) (view : Session × Reply → α)
    (h : ((start.scriptWithin S fuel steps).bind fun s => s.stepWithin S fuel step).map view =
      some a) : view ((start.runScript S steps).step S step) = a := by
  obtain ⟨done, hdone, rfl⟩ := Option.map_eq_some_iff.1 h
  obtain ⟨t, ht, hstep⟩ := Option.bind_eq_some_iff.1 hdone
  rw [script_of_within ht, step_of_within hstep]

end Views
end Session

/-- Every operation reports its progress, takes ten units of time and looks whether it is cancelled.
The constructions `broken` panic. -/
def Setup.sample (broken : List Nat) : Setup where
  config := {}
  registry := .ofAll (.ofBodies [[.progress ⟨none, 1, 2⟩, .work 10, .poll]] fun _ => some 0)
  broken := broken
  startLimit := 300

/-- Operations of one kind only, and with nothing to do. -/
def Setup.only (kind : Kind) : Setup := { Setup.sample [] with
  registry := Registry.empty.register kind (.ofBodies [] fun _ => none) }

/-- Starts an operation on no data, with a callback that does nothing of its own. -/
def CallerStep.begin (kind : Kind) (surface : Surface) : CallerStep :=
  .command (.start ⟨kind, ⟨[]⟩⟩ .default surface none [])

end SerialDispatch
