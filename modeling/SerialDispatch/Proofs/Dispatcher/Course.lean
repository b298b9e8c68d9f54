import SerialDispatch.Proofs.Dispatcher.Deeds
import SerialDispatch.Proofs.Dispatcher.Outline

/-!
# The course of the work

Delivery reaches the work through the commands of the callbacks only. While no callback gives one, a
delivered batch is not to be seen in the outline of a session, and the steps of the worker are
determined by the outline; so one outline leads to one outline, whatever is delivered in between.
Main statement: `Session.run_like`.
-/
namespace SerialDispatch

/-- A command that a callback has performed, with the answer to it. -/
def Happening.did? : Happening → Option (Nat × String × Reply)
  | .did callback word reply => some (callback, word, reply)
  | _ => none

/-- The commands that the callbacks have performed, in order. -/
def didIn (history : List Happening) : List (Nat × String × Reply) :=
  history.filterMap Happening.did?

theorem didIn_append (history more : List Happening) :
    didIn (history ++ more) = didIn history ++ didIn more := List.filterMap_append

/-- Nothing is done by callbacks on a part of the way if nothing is on the whole way. -/
theorem didIn_between {before between after : List Happening} (first : before <+: between)
    (second : between <+: after) (idle : didIn after = didIn before) :
    didIn between = didIn before ∧ didIn after = didIn between := by
  have hfirst : didIn before <+: didIn between := first.filterMap _
  have hsecond : didIn between <+: didIn after := second.filterMap _
  have same : didIn between = didIn before :=
    (hfirst.eq_of_length_le (by rw [← idle]; exact hsecond.length_le)).symm
  exact ⟨same, idle.trans same.symm⟩

namespace Session

variable {S : Setup} {r : Regard} {s t : Session} {limit : Option Nat}

/-- A callback that reacts gives a command. -/
theorem didIn_reactions (S : Setup) (callback : Nat) (s : Session) {commands : List Command}
    (idle : didIn (commands.foldl (react S callback) s).history = didIn s.history) :
    commands = [] := by
  cases commands with
  | nil => rfl
  | cons c rest =>
    have did : didIn (s.react S callback c).history =
        didIn (s.perform S c).1.history ++ [(callback, c.word, (s.perform S c).2)] := by
      rw [react, history_record, didIn, List.filterMap_append]
      rfl
    obtain ⟨same, -⟩ := didIn_between (Posts.react S callback s c).past
      (Posts.reactions S callback (s.react S callback c) rest).past idle
    have hpast : didIn s.history <+: didIn (s.perform S c).1.history :=
      (Posts.perform S s c).past.filterMap _
    have hlength := congrArg List.length (did.symm.trans same)
    rw [List.length_append, List.length_singleton] at hlength
    exact absurd hpast.length_le (by omega)

/-- An event that makes no callback give a command is not seen. -/
theorem deliverEvent_unseen (e : Event)
    (idle : didIn (s.deliverEvent S e).history = didIn s.history) :
    Like r (s.deliverEvent S e) s := by
  have told : ∀ callback : Callback Command, Like r
      ({ s with callbacks := s.callbacks.after e }.record (.told callback.number e)) s :=
    fun _ => .unseen { s with callbacks := s.callbacks.after e } rfl
  rcases deliverEvent_outcome S s e with ⟨-, h⟩ | ⟨callback, -, ⟨-, h⟩ | ⟨-, h⟩⟩
  · rw [h]
    exact .unseen s (by cases r <;> rfl)
  · rw [h]
    exact told callback
  · rw [h] at idle ⊢
    rw [didIn_reactions S callback.number _ (idle.trans ?_)]
    · exact told callback
    · rw [history_record, didIn, didIn, List.filterMap_append]
      exact (List.append_nil _).symm

theorem deliverEvents_unseen (events : List Event)
    (idle : didIn (s.deliverEvents S events).history = didIn s.history) :
    Like r (s.deliverEvents S events) s := by
  induction events generalizing s with
  | nil => exact .refl s
  | cons e rest ih =>
    rw [deliverEvents] at idle ⊢
    by_cases hp : (s.deliverEvent S e).phase = .alive
    · simp only [hp, if_true] at idle ⊢
      obtain ⟨first, others⟩ := didIn_between
        (follows_of_carrying (carrying_deliverEvent S s e)).past
        (follows_deliverEvents S _ rest).past idle
      exact (ih others).trans (deliverEvent_unseen e first)
    · simp only [hp, if_false] at idle ⊢
      exact deliverEvent_unseen e idle

/-- Nor is a batch that makes no callback give a command. -/
theorem deliverRound_unseen (idle : didIn (s.deliverRound S).history = didIn s.history) :
    Like r (s.deliverRound S) s :=
  deliverEvents_unseen (r := r) _ idle

/-- The next thing that the worker or the clock does. -/
def work? (S : Setup) (limit : Option Nat) (s : Session) : Option Session :=
  if s.clock < s.stage.wake then
    if Timer.isBefore s.stage.wake limit then some { s with clock := s.stage.wake } else none
  else s.advance? S

theorem work_cases (h : s.work? S limit = some t) : t = { s with clock := s.stage.wake } ∨
    s.stage.wake ≤ s.clock ∧ s.advance? S = some t := by
  unfold work? at h
  split at h
  · split at h
    · exact .inl (Option.some.inj h).symm
    · cases h
  · rename_i woken
    exact .inr ⟨Nat.le_of_not_lt woken, h⟩

theorem Posts.work (h : s.work? S limit = some t) : Posts s t := by
  rcases work_cases h with rfl | ⟨-, works⟩
  · exact .frame rfl
  · exact .advance S works

theorem next_of_waiting (gives : (s.givesWay && !s.mailbox.isEmpty) = true) :
    s.next? S limit = some (s.deliverRound S) := if_pos gives

theorem next_of_settled (settled : (s.givesWay && !s.mailbox.isEmpty) = false) :
    s.next? S limit = s.work? S limit := by
  unfold next?
  rw [if_neg (by simp [settled])]
  rfl

/-- What is not done by delivery leaves it as it is. -/
theorem phase_of_settled (settled : (s.givesWay && !s.mailbox.isEmpty) = false)
    (next : s.next? S limit = some t) : t.phase = s.phase := by
  rw [next_of_settled settled] at next
  exact (Posts.work next).phase

/-- When the worker is over, only a shutdown in the background can still come to its end. -/
theorem work_over (halted : s.stage.isOver = true) :
    s.work? S limit =
      if s.owner = .closing && s.isComplete then some s.finishShutdown else none := by
  rw [← advance_of_over halted]
  unfold work?
  cases hs : s.stage with
  | ended | dead => rfl
  | _ => rw [hs] at halted; cases halted

/-- What the worker does next in the sessions of an outline, as long as the outline shows it. -/
def workSeen? (r : Regard) (S : Setup) (limit : Option Nat) (o : Session) : Option Session :=
  match r, o.stage.isOver with
  | .labour, true => none
  | _, _ => (o.work? S limit).map (outline r)

theorem finishShutdown_like (like : Like .effects s t) (phase : s.phase = .alive)
    (other : t.phase = .alive) : Like .effects s.finishShutdown t.finishShutdown := by
  have gone : Like .effects { s with owner := .gone } { t with owner := .gone } :=
    like.update (fun u => { u with owner := .gone }) fun _ => rfl
  refine (gone.logShutdown (iff_of_true phase other)).record ?_
  rw [like.clock (.inl rfl)]

/-- The outline tells what is done next, but for what is delivered before. -/
theorem work_outline (seen : s.stage.isOver = true →
      r = .effects ∧ s.phase = .alive ∧ s.mailbox = []) :
    (s.work? S limit).map (outline r) = workSeen? r S limit (s.outline r) := by
  have like : Like r s (s.outline r) := (outline_like r s).symm
  by_cases halted : s.stage.isOver = true
  · obtain ⟨rfl, phase, empty⟩ := seen halted
    have complete : (s.outline .effects).isComplete = s.isComplete := by
      simp [isComplete, outline, phase, empty, noSinkHeld]
    show _ = ((s.outline .effects).work? S limit).map (outline .effects)
    rw [work_over halted, work_over (s := s.outline .effects) halted, complete, ← like.owner]
    split
    · exact congrArg some (finishShutdown_like like phase rfl).eq
    · rfl
  · rw [Bool.not_eq_true] at halted
    have clock : (s.outline r).clock = s.clock := (like.clock (.inr halted)).symm
    have hseen : workSeen? r S limit (s.outline r) =
        ((s.outline r).work? S limit).map (outline r) := by
      unfold workSeen?
      rw [show (s.outline r).stage.isOver = false from halted]
      cases r <;> rfl
    rw [hseen, work?, work?, clock, show (s.outline r).stage = s.stage from rfl]
    split
    · split
      · exact congrArg some (like.atClock s.stage.wake).eq
      · rfl
    · exact like.advance S halted

theorem mailbox_of_settled (settled : (s.givesWay && !s.mailbox.isEmpty) = false)
    (halted : s.stage.isOver = true) : s.mailbox = [] := by
  have gives : s.givesWay = true := by
    unfold givesWay
    cases hs : s.stage with
    | ended => rfl
    | dead => rfl
    | _ => simp [hs, Stage.isOver] at halted
  simpa [gives] using settled

/-- A step without a command of a callback is not seen, or the outline tells of it. -/
theorem next_outline (next : s.next? S limit = some t)
    (idle : didIn t.history = didIn s.history) (unharmed : r = .effects → s.phase = .alive) :
    Like r t s ∨ workSeen? r S limit (s.outline r) = some (t.outline r) := by
  by_cases gives : (s.givesWay && !s.mailbox.isEmpty) = true
  · rw [next_of_waiting gives] at next
    cases next
    exact .inl (deliverRound_unseen idle)
  · rw [Bool.not_eq_true] at gives
    rw [next_of_settled gives] at next
    by_cases ending : r = .labour ∧ s.stage.isOver = true
    · obtain ⟨rfl, halted⟩ := ending
      rw [work_over halted] at next
      split at next
      · rename_i complete
        cases next
        simp only [Bool.and_eq_true, decide_eq_true_eq] at complete
        exact .inl (Like.finishShutdown_unseen complete.1)
      · cases next
    · right
      rw [← work_outline fun halted => ?_, next]
      · rfl
      · cases r with
        | effects => exact ⟨rfl, unharmed rfl, mailbox_of_settled gives halted⟩
        | labour => exact absurd ⟨rfl, halted⟩ ending

/-- When there is nothing left to be done, the outline tells of nothing. -/
theorem outline_stops (stops : s.next? S limit = none)
    (unharmed : r = .effects → s.phase = .alive) :
    workSeen? r S limit (s.outline r) = none := by
  by_cases gives : (s.givesWay && !s.mailbox.isEmpty) = true
  · rw [next_of_waiting gives] at stops
    cases stops
  · rw [Bool.not_eq_true] at gives
    rw [next_of_settled gives] at stops
    by_cases ending : r = .labour ∧ s.stage.isOver = true
    · obtain ⟨rfl, halted⟩ := ending
      unfold workSeen?
      rw [show (s.outline .labour).stage.isOver = true from halted]
    · rw [← work_outline fun halted => ?_, stops]
      · rfl
      · cases r with
        | effects => exact ⟨rfl, unharmed rfl, mailbox_of_settled gives halted⟩
        | labour => exact absurd ⟨rfl, halted⟩ ending

/-- Following a rule as long as it says how to go on leads from the one to the other. -/
inductive Leads (rule : Session → Option Session) : Session → Session → Prop
  | rest {o : Session} (stops : rule o = none) : Leads rule o o
  | go {o p q : Session} (goes : rule o = some p) (rest : Leads rule p q) : Leads rule o q

theorem Leads.unique {rule : Session → Option Session} {o p q : Session} (first : Leads rule o p)
    (second : Leads rule o q) : p = q := by
  induction first with
  | rest stops =>
    cases second with
    | rest _ => rfl
    | go goes _ => rw [stops] at goes; cases goes
  | go goes _ ih =>
    cases second with
    | rest stops => rw [stops] at goes; cases goes
    | go other rest =>
      rw [goes] at other
      cases other
      exact ih rest

theorem phase_of_run (alive : (s.run S limit).phase = .alive) : s.phase = .alive := by
  rcases (follows_run S limit s).phase with h | h
  · exact h.symm.trans alive
  · rw [h] at alive
    cases alive

/-- Without a command of a callback, a run goes where its outline leads. -/
theorem leads_run (idle : didIn (s.run S limit).history = didIn s.history)
    (unharmed : r = .effects → (s.run S limit).phase = .alive) :
    Leads (workSeen? r S limit) (s.outline r) ((s.run S limit).outline r) := by
  fun_induction Session.run S limit s with
  | case1 s stops => exact .rest (outline_stops stops unharmed)
  | case2 s t next ih =>
    obtain ⟨first, others⟩ := didIn_between (follows_next next).past
      (follows_run S limit t).past idle
    have lead := ih others unharmed
    have alive : r = .effects → s.phase = .alive := fun h => by
      rcases (follows_next next).phase with hp | hp
      · exact hp.symm.trans (phase_of_run (unharmed h))
      · have := phase_of_run (unharmed h)
        rw [hp] at this
        cases this
    rcases next_outline next first alive with unseen | goes
    · rw [← unseen.eq]
      exact lead
    · exact .go goes lead

/-- When there is nothing left to be done, nothing waits for delivery. -/
theorem mailbox_of_rest (stops : s.next? S limit = none) : s.mailbox = [] := by
  obtain ⟨delivered, ⟨early, -⟩ | ⟨-, nothing⟩⟩ := next_none_cases stops
  all_goals
    refine delivered ?_
    unfold givesWay
  · cases hs : s.stage with
    | idle => rw [hs] at early; cases early
    | window task wake =>
      rw [hs] at early
      exact decide_eq_true early
    | running task n rest wake =>
      rw [hs] at early
      exact Bool.or_eq_true_iff.2 (.inl (decide_eq_true early))
    | _ => rfl
  · cases going : s.stage.isOver with
    | false =>
      obtain ⟨idle, stopping, waiting⟩ := idle_of_advance_none going nothing
      rw [idle, stopping, waiting]
      rfl
    | true =>
      cases hs : s.stage with
      | idle | window | running => rw [hs] at going; cases going
      | _ => rfl

end Session

/-- Two setups that differ in the delivery of signals only. -/
structure Setup.Alike (S T : Setup) : Prop where
  perform : ∀ (s : Session) (c : Command), s.perform S c = s.perform T c
  work : ∀ (limit : Option Nat) (s : Session), s.work? S limit = s.work? T limit

theorem Setup.Alike.refl (S : Setup) : S.Alike S := ⟨fun _ _ => rfl, fun _ _ => rfl⟩

namespace Session

variable {S T : Setup} {r : Regard} {s t : Session} {limit other : Option Nat}

/-- No callback gives a command in the run and, where all effects are to be seen, none panics. -/
structure Undisturbed (r : Regard) (S : Setup) (limit : Option Nat) (s : Session) : Prop where
  idle : didIn (s.run S limit).history = didIn s.history
  unharmed : r = .effects → (s.run S limit).phase = .alive

/-- When the worker is over, nothing more is seen of its work. -/
theorem run_over (halted : s.stage.isOver = true) (undisturbed : Undisturbed .labour S limit s) :
    Like .labour (s.run S limit) s := by
  refine (Leads.unique (.rest ?_) (leads_run undisturbed.idle undisturbed.unharmed)).symm
  unfold workSeen?
  rw [show (s.outline .labour).stage.isOver = true from halted]

/-- Without a command of a callback, one outline leads to one outline; the limit matters as long as
the worker is not over only. -/
theorem run_like (alike : S.Alike T) (like : Like r s t)
    (same : limit = other ∨ r = .labour ∧ s.stage.isOver = true)
    (undisturbed : Undisturbed r S limit s) (nor : Undisturbed r T other t) :
    Like r (s.run S limit) (t.run T other) := by
  rcases same with rfl | ⟨rfl, halted⟩
  · have lead := leads_run undisturbed.idle undisturbed.unharmed
    have follow := leads_run nor.idle nor.unharmed
    have rule : workSeen? r T limit = workSeen? r S limit := by
      funext o
      unfold workSeen?
      rw [alike.work]
    rw [rule, ← like.eq] at follow
    exact lead.unique follow
  · have stays := run_over (by rw [← like.stage]; exact halted) nor
    exact ((run_over halted undisturbed).trans like).trans stays.symm

end Session

namespace CallerStep

/-- The run that the caller gives way for, and the time that it lasts at most. -/
def begins? (s : Session) : CallerStep → Option (Nat × Session)
  | .sleep duration =>
    if s.alive && duration ≠ 0 then some (Timer.due s.clock duration, { s with turn := .first })
    else none
  | .shutdown =>
    if s.alive && s.owner = .held then
      some (s.clock + Session.patience, { s.signalStop .gone with turn := .first })
    else none
  | _ => none

/-- What the caller does when the run is over. -/
def ends (limit : Nat) (ran : Session) : CallerStep → Session × Reply
  | .shutdown =>
    if ran.isComplete then (ran.logShutdown, .stopped) else ({ ran with clock := limit }, .pending)
  | _ => ({ ran with clock := limit }, .ok)

end CallerStep

namespace Session

variable {S T : Setup} {r : Regard} {s t : Session} {step : CallerStep}

/-- The steps that give way, with what calls for it. -/
inductive Begins (s : Session) : CallerStep → Nat → Session → Prop
  | sleep {duration : Nat} (there : s.alive = true) (lasts : duration ≠ 0) :
      Begins s (.sleep duration) (Timer.due s.clock duration) { s with turn := .first }
  | shutdown (there : s.alive = true) (held : s.owner = .held) :
      Begins s .shutdown (s.clock + patience) { s.signalStop .gone with turn := .first }

theorem begins_cases {limit : Nat} {u : Session} (begins : step.begins? s = some (limit, u)) :
    Begins s step limit u := by
  cases step with
  | sleep duration =>
    simp only [CallerStep.begins?] at begins
    split at begins
    · rename_i runs
      simp only [Bool.and_eq_true, decide_eq_true_eq] at runs
      cases begins
      exact .sleep runs.1 runs.2
    · cases begins
  | shutdown =>
    simp only [CallerStep.begins?] at begins
    split at begins
    · rename_i runs
      simp only [Bool.and_eq_true, decide_eq_true_eq] at runs
      cases begins
      exact .shutdown runs.1 runs.2
    · cases begins
  | _ => cases begins

theorem step_of_begins {limit : Nat} {u : Session} (begins : step.begins? s = some (limit, u)) :
    s.step S step = step.ends limit (u.run S (some limit)) := by
  cases begins_cases begins with
  | sleep there lasts => simp [Session.step, there, lasts, sleepUntil, CallerStep.ends]
  | shutdown there held => simp [Session.step, there, held, Session.shutdown, CallerStep.ends]

/-- A caller that gives no way although it sleeps. -/
theorem rests_of_sleep {duration : Nat} (still : (CallerStep.sleep duration).begins? s = none) :
    s.alive = false ∨ duration = 0 := by
  simpa [CallerStep.begins?, Classical.or_iff_not_imp_left] using still

theorem step_sleep {duration : Nat} (rests : s.alive = false ∨ duration = 0) :
    s.step S (.sleep duration) = (s, if s.alive then .ok else .refused .noRuntime) := by
  simp only [Session.step]
  rcases rests with gone | rfl
  · simp [gone]
  · cases s.alive <;> rfl

/-- A caller that gives no way although it shuts down. -/
theorem rests_of_shutdown (still : CallerStep.shutdown.begins? s = none) :
    s.alive = false ∨ s.owner ≠ .held := by
  simpa [CallerStep.begins?, Classical.or_iff_not_imp_left] using still

theorem step_shutdown (rests : s.alive = false ∨ s.owner ≠ .held) :
    s.step S .shutdown = (s, .refused (if s.alive then .gone else .noRuntime)) := by
  simp only [Session.step]
  rcases rests with gone | free
  · simp [gone]
  · cases s.alive <;> simp [free]

/-- A step that begins no run does the same to both sessions and is answered alike. -/
theorem still_like (alike : S.Alike T) (like : Like r s t) (still : step.begins? s = none) :
    Like r (s.step S step).1 (t.step T step).1 ∧ (s.step S step).2 = (t.step T step).2 := by
  cases step with
  | command command =>
    simp only [Session.step, ← alike.perform]
    exact like.perform S command
  | sleep duration =>
    have rests := rests_of_sleep still
    rw [step_sleep rests, step_sleep (like.alive ▸ rests), like.alive]
    exact ⟨like, rfl⟩
  | shutdown =>
    have rests := rests_of_shutdown still
    have other : t.alive = false ∨ t.owner ≠ .held := by
      rw [← like.alive, Ne, ← like.held]
      exact rests
    rw [step_shutdown rests, step_shutdown other, like.alive]
    exact ⟨like, rfl⟩
  | lateProgress sink update => exact like.through sink _
  | latePrevent sink => exact like.through sink _
  | release sink =>
    have held : s.sinkHeld sink = t.sinkHeld sink := by rw [sinkHeld, sinkHeld, like.sinks]
    exact ⟨like.update (fun u => { u with sinks := u.sinks.set sink none }) fun _ => rfl,
      by simp only [Session.step, held]⟩
  | store step => exact like.ask step
  | teardown => exact ⟨like.teardown, rfl⟩
  | unreadable fault => exact ⟨like, rfl⟩

/-- A step that begins a run does so in both sessions. -/
theorem begins_like (like : Like r s t) {limit : Nat} {u : Session}
    (begins : step.begins? s = some (limit, u)) :
    ∃ other v, step.begins? t = some (other, v) ∧ Like r u v ∧
      (limit = other ∨ r = .labour ∧ u.stage.isOver = true) := by
  have clocks : s.clock = t.clock ∨ r = .labour ∧ s.stage.isOver = true := by
    cases r with
    | effects => exact .inl (like.clock (.inl rfl))
    | labour =>
      cases halted : s.stage.isOver with
      | true => exact .inr ⟨rfl, rfl⟩
      | false => exact .inl (like.clock (.inr halted))
  cases begins_cases begins with
  | @sleep duration there lasts =>
    refine ⟨Timer.due t.clock duration, { t with turn := .first }, ?_, like, ?_⟩
    · rw [like.alive] at there
      simp [CallerStep.begins?, there, lasts]
    · exact clocks.imp (fun same => by rw [same]) id
  | shutdown there held =>
    refine ⟨t.clock + patience, { t.signalStop .gone with turn := .first }, ?_,
      like.signalStop .gone, ?_⟩
    · rw [like.alive] at there
      simp [CallerStep.begins?, there, like.held.1 held]
    · exact clocks.imp (fun same => by rw [same]) id

/-- What the caller does after a run is the same if the runs have come to one outline, and have both
come to their end where the worker has. -/
theorem ends_like {limit other : Nat} (like : Like r s t)
    (same : limit = other ∨ r = .labour ∧ s.stage.isOver = true)
    (peace : r = .effects →
      (s.phase = .alive ∧ s.mailbox = []) ∧ t.phase = .alive ∧ t.mailbox = []) :
    Like r (step.ends limit s).1 (step.ends other t).1 ∧
      (r = .effects → (step.ends limit s).2 = (step.ends other t).2) := by
  have timed : Like r { s with clock := limit } { t with clock := other } := by
    rcases same with rfl | ⟨rfl, halted⟩
    · exact like.atClock limit
    · exact like.atAnyClock halted limit other
  cases step with
  | shutdown =>
    cases r with
    | effects =>
      obtain ⟨⟨phase, empty⟩, otherPhase, otherEmpty⟩ := peace rfl
      have complete : t.isComplete = s.isComplete := by
        simp only [isComplete, noSinkHeld, phase, empty, otherPhase, otherEmpty, like.stage,
          like.sinks]
      simp only [CallerStep.ends, complete]
      split
      · exact ⟨like.logShutdown (iff_of_true phase otherPhase), fun _ => rfl⟩
      · exact ⟨timed, fun _ => rfl⟩
    | labour =>
      refine ⟨?_, fun h => by cases h⟩
      have ended : ∀ (u : Session) (limit : Nat), u.stage.isOver = true →
          Like .labour (CallerStep.shutdown.ends limit u).1 u := by
        intro u limit halted
        simp only [CallerStep.ends]
        split
        · exact Like.logShutdown_unseen u
        · exact (Like.refl u).atAnyClock halted limit u.clock
      cases halted : s.stage.isOver with
      | true =>
        refine ((ended s limit halted).trans like).trans (ended t other ?_).symm
        rw [← like.stage]
        exact halted
      | false =>
        have unfinished : ∀ u : Session, u.stage.isOver = false → u.isComplete = false := by
          intro u halted
          simp [isComplete, halted]
        simp only [CallerStep.ends, unfinished s halted,
          unfinished t (by rw [← like.stage]; exact halted), Bool.false_eq_true, if_false]
        exact timed
  | _ => exact ⟨timed, fun _ => rfl⟩

/-- When the run is over, a shutdown may report what it finds; otherwise nothing but time passes. -/
theorem ends_cases (limit : Nat) (ran : Session) (step : CallerStep) :
    (step.ends limit ran).1 = ran.logShutdown ∨
      (step.ends limit ran).1 = { ran with clock := limit } := by
  cases step with
  | shutdown =>
    simp only [CallerStep.ends]
    split
    · exact .inl rfl
    · exact .inr rfl
  | _ => exact .inr rfl

theorem Posts.ends (limit : Nat) (ran : Session) (step : CallerStep) :
    Posts ran (step.ends limit ran).1 := by
  rcases ends_cases limit ran step with h | h <;> rw [h]
  · exact .logShutdown ran
  · exact .frame rfl

/-- A run is part of the history that its step leads to. -/
theorem past_ends (limit : Nat) (ran : Session) (step : CallerStep) :
    ran.history <+: (step.ends limit ran).1.history := (Posts.ends limit ran step).past

theorem phase_ends (limit : Nat) (ran : Session) (step : CallerStep) :
    (step.ends limit ran).1.phase = ran.phase := (Posts.ends limit ran step).phase

/-- To give way is a deed. -/
theorem acts_of_begins {limit : Nat} {u : Session} (begins : step.begins? s = some (limit, u)) :
    Acts s u ∧ s.alive = true := by
  cases begins_cases begins with
  | sleep there => exact ⟨.frame rfl, there⟩
  | shutdown there => exact ⟨(Acts.signalStop s .gone).trans (.frame rfl), there⟩

/-- So is a step that begins no run, and it leaves the worker where it is; unless worker and
delivery vanish. -/
theorem acts_of_still (still : step.begins? s = none) :
    Acts s (s.step S step).1 ∧ Unmoved S s (s.step S step).1 ∨ step = .teardown := by
  have through : ∀ (sink : Nat) (signal : Signal), Unmoved S s (s.through sink signal).1 := by
    intro sink signal
    unfold Session.through
    cases s.sinkHeld sink with
    | none => exact .refl s
    | some id => exact (Unmoved.record s _).trans (Unmoved.send _ _)
  have idle : Acts s s ∧ Unmoved S s s := ⟨.refl s, .refl s⟩
  cases step with
  | command command => exact .inl ⟨.perform S s command, .perform s command⟩
  | sleep duration =>
    rw [step_sleep (rests_of_sleep still)]
    exact .inl idle
  | shutdown =>
    rw [step_shutdown (rests_of_shutdown still)]
    exact .inl idle
  | lateProgress sink update => exact .inl ⟨.through s sink _, through sink _⟩
  | latePrevent sink => exact .inl ⟨.through s sink _, through sink _⟩
  | release sink => exact .inl ⟨.frame rfl, rfl, rfl, Iff.rfl, Nat.le_refl _⟩
  | store step => exact .inl ⟨.frame rfl, rfl, rfl, Iff.rfl, Nat.le_refl _⟩
  | teardown => exact .inr rfl
  | unreadable fault => exact .inl idle

/-- In a step without a command of a callback, the run that it begins has none. -/
theorem undisturbed_of_begins {limit : Nat} {u : Session}
    (begins : step.begins? s = some (limit, u))
    (idle : didIn (s.step S step).1.history = didIn s.history)
    (unharmed : r = .effects → s.alive = true → (s.step S step).1.phase = .alive) :
    Undisturbed r S (some limit) u := by
  obtain ⟨acts, there⟩ := acts_of_begins begins
  rw [step_of_begins begins] at idle unharmed
  have ran : u.history <+: (u.run S (some limit)).history := (follows_run S _ u).past
  have ended := past_ends limit (u.run S (some limit)) step
  obtain ⟨whole, rest⟩ := didIn_between (acts.past.trans ran) ended idle
  refine ⟨(didIn_between acts.past ran whole).2, fun h => ?_⟩
  rw [← phase_ends limit (u.run S (some limit)) step]
  exact unharmed h there

/-- A step of the caller without a command of a callback leads from one outline to one outline. -/
theorem step_like (alike : S.Alike T) (like : Like r s t)
    (idle : didIn (s.step S step).1.history = didIn s.history)
    (nor : didIn (t.step T step).1.history = didIn t.history)
    (unharmed : r = .effects → s.alive = true → (s.step S step).1.phase = .alive)
    (unscathed : r = .effects → t.alive = true → (t.step T step).1.phase = .alive) :
    Like r (s.step S step).1 (t.step T step).1 ∧
      (r = .effects → (s.step S step).2 = (t.step T step).2) := by
  cases begins : step.begins? s with
  | none =>
    obtain ⟨after, reply⟩ := still_like alike like begins
    exact ⟨after, fun _ => reply⟩
  | some run =>
    obtain ⟨limit, u⟩ := run
    obtain ⟨other, v, follows, together, same⟩ := begins_like like begins
    have undisturbed := undisturbed_of_begins begins idle unharmed
    have neither := undisturbed_of_begins follows nor unscathed
    have ran := run_like alike together (same.imp (fun h => by rw [h]) id) undisturbed neither
    have stops : ∀ (R : Setup) (limit : Option Nat) (w : Session), (w.run R limit).mailbox = [] :=
      fun R limit w => mailbox_of_rest (run_next_none R limit w)
    rw [step_of_begins begins, step_of_begins follows]
    refine ends_like ran ?_ fun h => ⟨⟨undisturbed.unharmed h, stops _ _ _⟩,
      neither.unharmed h, stops _ _ _⟩
    refine same.imp id fun ⟨labour, halted⟩ => ⟨labour, ?_⟩
    subst labour
    rw [(run_over halted undisturbed).stage]
    exact halted

end Session
end SerialDispatch
