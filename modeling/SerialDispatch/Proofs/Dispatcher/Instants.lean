import Mathlib.Logic.Relation
import SerialDispatch.Proofs.Dispatcher.Panic

/-!
# The instants of a session

A script is taken apart into the smallest things that are done one after another: a step of the
caller that gives no way, the beginning and the end of a run, the next thing that the worker or the
clock does, the taking of a batch, the call of one callback, and one command of its reaction. From
every instant on, these lead to what the script comes to (`Instant.leads_outcome`), so what holds of
every instant holds at every moment of every session.
-/
namespace SerialDispatch

/-- What a session is in the middle of. -/
inductive Focus where
  /-- The caller is about to take its next step. -/
  | caller
  /-- Worker and delivery go on up to a time, during a step of the caller. -/
  | work (limit : Nat) (step : CallerStep)
  /-- Delivery has these events of a batch still to bring. -/
  | batch (limit : Nat) (step : CallerStep) (events : List Event)
  /-- A callback has these commands of its reaction still to perform. -/
  | reaction (limit : Nat) (step : CallerStep) (events : List Event) (callback : Nat)
      (commands : List Command)

/-- Delivery goes on with its batch unless a callback has panicked. -/
def Focus.onward (phase : Phase) (limit : Nat) (step : CallerStep) (events : List Event) : Focus :=
  if phase = .alive then .batch limit step events else .work limit step

structure Instant where
  session : Session
  focus : Focus
  /-- The steps that the caller has still to take. -/
  script : List CallerStep
  /-- What the caller was answered so far, and when. -/
  answers : List (Reply × Nat)

namespace Session

/-- The session when a callback is called. -/
def call (s : Session) (callback : Callback Command) (e : Event) : Session :=
  { s with callbacks := s.callbacks.after e }.record (.told callback.number e)

theorem Booked.call {S : Setup} {s : Session} (booked : Booked S s) (callback : Callback Command)
    (e : Event) : Booked S (s.call callback e) := by
  have called : Booked S { s with callbacks := s.callbacks.after e } := booked.frame rfl rfl id
  exact called.silent rfl

/-- What a script is answered, and when. -/
def answers (S : Setup) (s : Session) (steps : List CallerStep) : List (Reply × Nat) :=
  (s.entries S steps).map fun entry => (entry.reply, entry.clock)

end Session

namespace Instant

def first (steps : List CallerStep) : Instant := ⟨.start, .caller, steps, []⟩

/-- The caller is answered, and comes to its next step. -/
def answered (i : Instant) (done : Session × Reply) (script : List CallerStep) : Instant :=
  ⟨done.1, .caller, script, i.answers ++ [(done.2, done.1.clock)]⟩

/-- The next instant; there is none when the script is over. -/
def next? (S : Setup) (i : Instant) : Option Instant :=
  match i.focus with
  | .caller =>
    match i.script with
    | [] => none
    | step :: rest =>
      match step.begins? i.session with
      | none => some (i.answered (i.session.step S step) rest)
      | some (limit, u) => some { i with session := u, focus := .work limit step, script := rest }
  | .work limit step =>
    if i.session.givesWay && !i.session.mailbox.isEmpty then
      some { i with
        session := i.session.taken S
        focus := .batch limit step (i.session.dueEvents S) }
    else match i.session.work? S (some limit) with
      | some t => some { i with session := t }
      | none => some (i.answered (step.ends limit i.session) i.script)
  | .batch limit step [] => some { i with focus := .work limit step }
  | .batch limit step (e :: rest) =>
    match i.session.callbacks.find? e.id with
    | none => some { i with
        session := i.session.log (.unclaimed e.id e.signal.trigger)
        focus := .onward i.session.phase limit step rest }
    | some callback =>
      if callback.panicsOn = some e.signal.trigger then
        some { i with
          session := (i.session.call callback e).panicDelivery
          focus := .work limit step }
      else some { i with
        session := i.session.call callback e
        focus := .reaction limit step rest callback.number (callback.reaction e.signal.trigger) }
  | .reaction limit step events _ [] => some { i with
      focus := .onward i.session.phase limit step events }
  | .reaction limit step events callback (c :: rest) => some { i with
      session := i.session.react S callback c
      focus := .reaction limit step events callback rest }

/-- The session and the answers when all that is still to be done after a run is done. -/
def concluded (S : Setup) (i : Instant) (done : Session × Reply) : Session × List (Reply × Nat) :=
  (done.1.runScript S i.script,
    i.answers ++ (done.2, done.1.clock) :: done.1.answers S i.script)

/-- What worker, delivery and caller come to when all that is still to be done is done. -/
def outcome (S : Setup) (i : Instant) : Session × List (Reply × Nat) :=
  match i.focus with
  | .caller => (i.session.runScript S i.script, i.answers ++ i.session.answers S i.script)
  | .work limit step => i.concluded S (step.ends limit (i.session.run S (some limit)))
  | .batch limit step events =>
    i.concluded S (step.ends limit ((i.session.deliverEvents S events).run S (some limit)))
  | .reaction limit step events callback commands =>
    let reacted := commands.foldl (Session.react S callback) i.session
    let delivered := if reacted.phase = .alive then reacted.deliverEvents S events else reacted
    i.concluded S (step.ends limit (delivered.run S (some limit)))

/-- The one instant comes before the other. -/
def Leads (S : Setup) : Instant → Instant → Prop :=
  Relation.ReflTransGen fun i j => i.next? S = some j

/-- The instant is one of the script. -/
def Occurs (S : Setup) (steps : List CallerStep) (i : Instant) : Prop := Leads S (first steps) i

/-- The instant at which the script is over. -/
def last (done : Session × List (Reply × Nat)) : Instant := ⟨done.1, .caller, [], done.2⟩

section Leads

variable {S : Setup} {s : Session} {limit : Nat} {step : CallerStep}
variable {script : List CallerStep} {answers : List (Reply × Nat)}

theorem next_last (done : Session × List (Reply × Nat)) : (last done).next? S = none := rfl

theorem leads_reaction (events : List Event) (callback : Nat) (commands : List Command) :
    Leads S ⟨s, .reaction limit step events callback commands, script, answers⟩
      ⟨commands.foldl (Session.react S callback) s,
        .onward (commands.foldl (Session.react S callback) s).phase limit step events, script,
        answers⟩ := by
  induction commands generalizing s with
  | nil => exact .single rfl
  | cons c rest ih => exact .head rfl ih

/-- An event is brought to its callback, which may react. -/
theorem leads_event (e : Event) (rest : List Event) :
    Leads S ⟨s, .batch limit step (e :: rest), script, answers⟩
      ⟨s.deliverEvent S e, .onward (s.deliverEvent S e).phase limit step rest, script,
        answers⟩ := by
  rcases Session.deliverEvent_outcome S s e with
    ⟨found, h⟩ | ⟨callback, found, ⟨panics, h⟩ | ⟨unmoved, h⟩⟩
  · rw [h]
    exact .single (by simp only [next?, found]; rfl)
  · rw [h]
    refine .single ?_
    simp only [next?, found, if_pos panics]
    rfl
  · rw [h]
    refine .head ?_ (leads_reaction rest callback.number (callback.reaction e.signal.trigger))
    simp only [next?, found, if_neg unmoved]
    rfl

theorem leads_batch (events : List Event) :
    Leads S ⟨s, .batch limit step events, script, answers⟩
      ⟨s.deliverEvents S events, .work limit step, script, answers⟩ := by
  induction events generalizing s with
  | nil => exact .single rfl
  | cons e rest ih =>
    refine (leads_event e rest).trans ?_
    unfold Session.deliverEvents Focus.onward
    dsimp only
    split
    · exact ih
    · exact .refl

/-- The next thing that is done in a run is done in one instant, or batch by batch. -/
theorem leads_next {t : Session} (next : s.next? S (some limit) = some t) :
    Leads S ⟨s, .work limit step, script, answers⟩ ⟨t, .work limit step, script, answers⟩ := by
  by_cases gives : (s.givesWay && !s.mailbox.isEmpty) = true
  · rw [Session.next_of_waiting gives] at next
    cases next
    refine .head ?_ (leads_batch (s.dueEvents S))
    show (if (s.givesWay && !s.mailbox.isEmpty) = true then _ else _) = _
    rw [if_pos gives]
    rfl
  · rw [Bool.not_eq_true] at gives
    rw [Session.next_of_settled gives] at next
    exact .single (by simp only [next?, gives, next, Bool.false_eq_true, if_false])

theorem leads_run :
    Leads S ⟨s, .work limit step, script, answers⟩
      (answered ⟨s, .work limit step, script, answers⟩
        (step.ends limit (s.run S (some limit))) script) := by
  generalize horizon : some limit = bound
  fun_induction Session.run S bound s with
  | case1 s stops =>
    subst horizon
    have empty := Session.mailbox_of_rest stops
    rw [Session.next_of_settled (by simp [empty])] at stops
    exact .single (by simp [next?, empty, stops])
  | case2 s t next ih =>
    subst horizon
    exact (leads_next next).trans ih

theorem leads_steps (steps rest : List CallerStep) :
    Leads S ⟨s, .caller, steps ++ rest, answers⟩
      ⟨s.runScript S steps, .caller, rest, answers ++ s.answers S steps⟩ := by
  induction steps generalizing s answers with
  | nil =>
    have nothing : s.answers S [] = [] := rfl
    rw [nothing, List.append_nil]
    exact .refl
  | cons step steps ih =>
    have more : answers ++ s.answers S (step :: steps) = answers ++
        [((s.step S step).2, (s.step S step).1.clock)] ++ (s.step S step).1.answers S steps := by
      rw [List.append_assoc]
      rfl
    rw [more]
    refine Relation.ReflTransGen.trans ?_ (ih (s := (s.step S step).1))
    rw [List.cons_append]
    cases begins : step.begins? s with
    | none => exact .single (by simp only [next?, begins]; rfl)
    | some run =>
      obtain ⟨limit, u⟩ := run
      rw [Session.step_of_begins begins]
      exact .head (by simp only [next?, begins]) leads_run

theorem leads_script (steps : List CallerStep) :
    Leads S ⟨s, .caller, steps, answers⟩
      (last (s.runScript S steps, answers ++ s.answers S steps)) := by
  have leads : Leads S ⟨s, .caller, steps ++ [], answers⟩ _ := leads_steps steps []
  rwa [List.append_nil] at leads

/-- Before every step of a script the caller is about to do it. -/
theorem occurs_between (earlier rest : List CallerStep) :
    Occurs S (earlier ++ rest) ⟨Session.start.runScript S earlier, .caller, rest,
      Session.start.answers S earlier⟩ :=
  leads_steps earlier rest

/-- Every instant leads to its outcome. -/
theorem leads_outcome (i : Instant) : Leads S i (last (i.outcome S)) := by
  obtain ⟨s, focus, script, answers⟩ := i
  have concludes : ∀ {u : Session} {limit : Nat} {step : CallerStep},
      Leads S ⟨u, .work limit step, script, answers⟩ (last (concluded S
        ⟨s, focus, script, answers⟩ (step.ends limit (u.run S (some limit))))) := by
    intro u limit step
    refine leads_run.trans ?_
    have answered : ∀ done : Session × Reply,
        answers ++ (done.2, done.1.clock) :: done.1.answers S script =
          answers ++ [(done.2, done.1.clock)] ++ done.1.answers S script := by simp
    rw [concluded, answered]
    exact leads_script script
  cases focus with
  | caller => exact leads_script script
  | work limit step => exact concludes
  | batch limit step events => exact (leads_batch events).trans concludes
  | reaction limit step events callback commands =>
    refine (leads_reaction events callback commands).trans ?_
    unfold Focus.onward
    simp only [outcome]
    split
    · exact (leads_batch events).trans concludes
    · exact concludes

variable {i j : Instant}

/-- What is next lies on the way to the end. -/
theorem Leads.onward {done : Session × List (Reply × Nat)} (leads : Leads S i (last done))
    (next : i.next? S = some j) : Leads S j (last done) := by
  rcases Relation.ReflTransGen.cases_head leads with rfl | ⟨k, goes, rest⟩
  · cases next
  · rw [next] at goes
    cases goes
    exact rest

theorem Leads.unique {done other : Session × List (Reply × Nat)} (leads : Leads S i (last done))
    (follows : Leads S i (last other)) : done = other := by
  unfold Leads at leads
  induction leads using Relation.ReflTransGen.head_induction_on with
  | refl =>
    rcases Relation.ReflTransGen.cases_head follows with same | ⟨k, goes, -⟩
    · exact Prod.ext (congrArg Instant.session same) (congrArg Instant.answers same)
    · cases goes
  | head next _ ih => exact ih (Leads.onward follows next)

/-- What is done next is part of what the session comes to. -/
theorem outcome_next (next : i.next? S = some j) : j.outcome S = i.outcome S :=
  (leads_outcome j).unique ((leads_outcome i).onward next)

theorem outcome_leads (leads : Leads S i j) : j.outcome S = i.outcome S := by
  induction leads with
  | refl => rfl
  | tail _ next ih => exact (outcome_next next).trans ih

/-- The instants of a script lead to what the script comes to. -/
theorem Occurs.outcome {steps : List CallerStep} (occurs : Occurs S steps i) :
    i.outcome S = (Session.start.runScript S steps, Session.start.answers S steps) :=
  outcome_leads occurs

end Leads

section Commands

/-- The command that is carried out next, by the caller, by an operation or by a callback. -/
def command? (i : Instant) : Option Command :=
  match i.focus with
  | .caller =>
    match i.script with
    | .command c :: _ => some c
    | _ => none
  | .work _ _ =>
    match i.session.stage with
    | .running _ _ (.command c :: _) wake => if i.session.clock < wake then none else some c
    | _ => none
  | .batch .. => none
  | .reaction _ _ _ _ commands => commands.head?

/-- The next instant, by what carrying out the command has led to and is answered. -/
def carriedOut (i : Instant) (done : Session × Reply) : Instant :=
  match i.focus with
  | .caller => i.answered done i.script.tail
  | .work _ _ =>
    match i.session.stage with
    | .running task n (.command c :: rest) _ => { i with session :=
        { done.1.note (.stepped n c.word done.2) with
          stage := .running task n rest done.1.clock } }
    | _ => i
  | .reaction limit step events callback (c :: rest) => { i with
      session := done.1.record (.did callback c.word done.2)
      focus := .reaction limit step events callback rest }
  | _ => i

/-- A command is carried out at once. -/
theorem next_of_command {S : Setup} {i : Instant} {c : Command} (command : i.command? = some c) :
    i.next? S = some (i.carriedOut (i.session.perform S c)) := by
  obtain ⟨s, focus, script, answers⟩ := i
  cases focus with
  | caller =>
    cases script with
    | nil => cases command
    | cons step rest =>
      cases step with
      | command c => cases command; rfl
      | _ => cases command
  | work limit step =>
    simp only [command?] at command
    cases hs : s.stage with
    | running task n steps wake =>
      simp only [hs] at command
      cases steps with
      | nil => cases command
      | cons first rest =>
        cases first with
        | command c =>
          simp only at command
          split at command
          · cases command
          · rename_i ready
            cases command
            simp [next?, Session.givesWay, Session.work?, Session.advance?, Session.bodyStep,
              carriedOut, hs, Stage.wake, ready]
            rfl
        | _ => cases command
    | _ => simp [hs] at command
  | batch limit step events => cases command
  | reaction limit step events callback commands =>
    cases commands with
    | nil => cases command
    | cons c rest => cases command; rfl

/-- An operation that has come to a command carries it out. -/
theorem command_of_running {s : Session} {task : Task} {n wake : Nat} {c : Command}
    {rest : List BodyStep} (running : s.stage = .running task n (.command c :: rest) wake)
    (ready : s.stage.wake ≤ s.clock) (limit : Nat) (step : CallerStep)
    (script : List CallerStep) (answers : List (Reply × Nat)) :
    command? ⟨s, .work limit step, script, answers⟩ = some c := by
  rw [running] at ready
  simp only [command?, running]
  exact if_neg (Nat.not_lt.2 ready)

/-- Whoever carries out a command notes it, or is answered, and goes on behind it. -/
theorem carriedOut_cases {i : Instant} {c : Command} (command : i.command? = some c) :
    (∀ done, i.carriedOut done = i.answered done i.script.tail) ∨
    (∃ task n rest, ∀ done, i.carriedOut done = { i with session :=
      { done.1.note (.stepped n c.word done.2) with
        stage := .running task n rest done.1.clock } }) ∨
    ∃ callback focus, ∀ done, i.carriedOut done = { i with
      session := done.1.record (.did callback c.word done.2)
      focus := focus } := by
  obtain ⟨s, focus, script, answers⟩ := i
  cases focus with
  | caller => exact .inl fun _ => rfl
  | work limit step =>
    simp only [command?] at command
    cases hs : s.stage with
    | running task n steps wake =>
      simp only [hs] at command
      cases steps with
      | nil => cases command
      | cons first rest =>
        cases first with
        | command d =>
          simp only at command
          split at command
          · cases command
          · cases command
            exact .inr (.inl ⟨task, n, rest, fun done => by simp only [carriedOut, hs]⟩)
        | _ => cases command
    | _ => simp [hs] at command
  | batch limit step events => cases command
  | reaction limit step events callback commands =>
    cases commands with
    | nil => cases command
    | cons d rest =>
      cases command
      exact .inr (.inr ⟨callback, .reaction limit step events callback rest, fun _ => rfl⟩)

/-- What carrying out a command adds to the history stands in it at the next instant. -/
theorem past_carriedOut {i : Instant} {c : Command} (command : i.command? = some c)
    (done : Session × Reply) : done.1.history <+: (i.carriedOut done).session.history := by
  rcases carriedOut_cases command with same | ⟨task, n, rest, same⟩ | ⟨callback, focus, same⟩
  · rw [same]
    exact List.prefix_rfl
  · rw [same]
    exact Session.past_record _ _
  · rw [same]
    exact Session.past_record _ _

end Commands

section Moves

/-- All that can be done from one instant to the next. -/
inductive Move (S : Setup) : Instant → Instant → Prop
  | still {s : Session} {step : CallerStep} {script : List CallerStep}
      {answers : List (Reply × Nat)} (still : step.begins? s = none) :
      Move S ⟨s, .caller, step :: script, answers⟩
        ⟨(s.step S step).1, .caller, script,
          answers ++ [((s.step S step).2, (s.step S step).1.clock)]⟩
  | begun {s u : Session} {step : CallerStep} {script : List CallerStep}
      {answers : List (Reply × Nat)} {limit : Nat} (begins : step.begins? s = some (limit, u)) :
      Move S ⟨s, .caller, step :: script, answers⟩ ⟨u, .work limit step, script, answers⟩
  | taken {s : Session} {step : CallerStep} {script : List CallerStep}
      {answers : List (Reply × Nat)} {limit : Nat} (gives : s.givesWay = true)
      (waiting : s.mailbox ≠ []) :
      Move S ⟨s, .work limit step, script, answers⟩
        ⟨s.taken S, .batch limit step (s.dueEvents S), script, answers⟩
  | worked {s t : Session} {step : CallerStep} {script : List CallerStep}
      {answers : List (Reply × Nat)} {limit : Nat}
      (settled : (s.givesWay && !s.mailbox.isEmpty) = false)
      (works : s.work? S (some limit) = some t) :
      Move S ⟨s, .work limit step, script, answers⟩ ⟨t, .work limit step, script, answers⟩
  | ended {s : Session} {step : CallerStep} {script : List CallerStep}
      {answers : List (Reply × Nat)} {limit : Nat}
      (settled : (s.givesWay && !s.mailbox.isEmpty) = false)
      (rests : s.work? S (some limit) = none) :
      Move S ⟨s, .work limit step, script, answers⟩
        ⟨(step.ends limit s).1, .caller, script,
          answers ++ [((step.ends limit s).2, (step.ends limit s).1.clock)]⟩
  | brought {s : Session} {step : CallerStep} {script : List CallerStep}
      {answers : List (Reply × Nat)} {limit : Nat} :
      Move S ⟨s, .batch limit step [], script, answers⟩ ⟨s, .work limit step, script, answers⟩
  | unclaimed {s : Session} {step : CallerStep} {script : List CallerStep}
      {answers : List (Reply × Nat)} {limit : Nat} {e : Event} {rest : List Event}
      (unknown : s.callbacks.find? e.id = none) :
      Move S ⟨s, .batch limit step (e :: rest), script, answers⟩
        ⟨s.log (.unclaimed e.id e.signal.trigger), .onward s.phase limit step rest, script,
          answers⟩
  | panicked {s : Session} {step : CallerStep} {script : List CallerStep}
      {answers : List (Reply × Nat)} {limit : Nat} {e : Event} {rest : List Event}
      {callback : Callback Command} (found : s.callbacks.find? e.id = some callback)
      (panics : callback.panicsOn = some e.signal.trigger) :
      Move S ⟨s, .batch limit step (e :: rest), script, answers⟩
        ⟨(s.call callback e).panicDelivery, .work limit step, script, answers⟩
  | called {s : Session} {step : CallerStep} {script : List CallerStep}
      {answers : List (Reply × Nat)} {limit : Nat} {e : Event} {rest : List Event}
      {callback : Callback Command} (found : s.callbacks.find? e.id = some callback)
      (unmoved : callback.panicsOn ≠ some e.signal.trigger) :
      Move S ⟨s, .batch limit step (e :: rest), script, answers⟩
        ⟨s.call callback e, .reaction limit step rest callback.number
          (callback.reaction e.signal.trigger), script, answers⟩
  | reacted {s : Session} {step : CallerStep} {script : List CallerStep}
      {answers : List (Reply × Nat)} {limit : Nat} {events : List Event} {callback : Nat}
      {c : Command} {rest : List Command} :
      Move S ⟨s, .reaction limit step events callback (c :: rest), script, answers⟩
        ⟨s.react S callback c, .reaction limit step events callback rest, script, answers⟩
  | resumed {s : Session} {step : CallerStep} {script : List CallerStep}
      {answers : List (Reply × Nat)} {limit : Nat} {events : List Event} {callback : Nat} :
      Move S ⟨s, .reaction limit step events callback [], script, answers⟩
        ⟨s, .onward s.phase limit step events, script, answers⟩

variable {S : Setup} {i j : Instant}

theorem move_of_next (next : i.next? S = some j) : Move S i j := by
  obtain ⟨s, focus, script, answers⟩ := i
  cases focus with
  | caller =>
    cases script with
    | nil => cases next
    | cons step rest =>
      cases begins : step.begins? s with
      | none =>
        simp only [next?, begins] at next
        cases next
        exact .still begins
      | some run =>
        simp only [next?, begins] at next
        cases next
        exact .begun begins
  | work limit step =>
    by_cases gives : (s.givesWay && !s.mailbox.isEmpty) = true
    · simp only [next?, if_pos gives] at next
      cases next
      simp only [Bool.and_eq_true, Bool.not_eq_true', List.isEmpty_eq_false_iff] at gives
      exact .taken gives.1 gives.2
    · rw [Bool.not_eq_true] at gives
      cases works : s.work? S (some limit) with
      | none =>
        simp only [next?, gives, works, Bool.false_eq_true, if_false] at next
        cases next
        exact .ended gives works
      | some t =>
        simp only [next?, gives, works, Bool.false_eq_true, if_false] at next
        cases next
        exact .worked gives works
  | batch limit step events =>
    cases events with
    | nil => cases next; exact .brought
    | cons e rest =>
      cases found : s.callbacks.find? e.id with
      | none =>
        simp only [next?, found] at next
        cases next
        exact .unclaimed found
      | some callback =>
        simp only [next?, found] at next
        split at next
        · rename_i panics
          cases next
          exact .panicked found panics
        · rename_i unmoved
          cases next
          exact .called found unmoved
  | reaction limit step events callback commands =>
    cases commands with
    | nil => cases next; exact .resumed
    | cons c rest => cases next; exact .reacted

/-- Whatever is done only adds to the history. -/
theorem Move.past (move : Move S i j) : i.session.history <+: j.session.history := by
  cases move with
  | @still s step => exact Session.past_step S s step
  | begun begins => exact (Session.acts_of_begins begins).1.past
  | worked settled works =>
    rw [← Session.next_of_settled settled] at works
    exact (Session.follows_next works).past
  | @ended s step => exact Session.past_ends _ s step
  | unclaimed => exact Session.past_record _ _
  | panicked => exact Session.past_record _ _
  | called => exact Session.past_record _ _
  | @reacted s _ _ _ _ _ callback c => exact (Session.Posts.react S callback s c).past
  | _ => exact List.prefix_rfl

theorem past_leads (leads : Leads S i j) : i.session.history <+: j.session.history := by
  induction leads with
  | refl => exact List.prefix_rfl
  | tail _ next ih => exact ih.trans (move_of_next next).past

/-- Every instant keeps the ledger. -/
theorem Move.booked (move : Move S i j) (booked : Session.Booked S i.session) :
    Session.Booked S j.session := by
  cases move with
  | @still s step => exact booked.step step
  | begun begins => exact booked.begins begins
  | taken => exact booked.frame rfl rfl id
  | worked settled works =>
    rw [← Session.next_of_settled settled] at works
    exact booked.next works
  | @ended s step _ _ limit =>
    rcases Session.ends_cases limit s step with h | h <;> rw [h]
    · exact booked.logShutdown
    · exact booked.frame rfl rfl id
  | unclaimed => exact booked.log _
  | panicked => exact (booked.call _ _).frame rfl rfl fun silenced =>
      ⟨(fun h => by cases h), silenced.2⟩
  | called => exact booked.call _ _
  | reacted => exact booked.react _ _
  | _ => exact booked

theorem Occurs.booked {steps : List CallerStep} (occurs : Occurs S steps i) :
    Session.Booked S i.session := by
  induction occurs with
  | refl => exact Session.booked_start
  | tail _ next ih => exact (move_of_next next).booked ih

/-- What has happened at an instant is part of what happens. -/
theorem Occurs.past {steps : List CallerStep} (occurs : Occurs S steps i) :
    i.session.history <+: (Session.start.runScript S steps).history := by
  have whole := past_leads (leads_outcome (S := S) i)
  rw [occurs.outcome] at whole
  exact whole

end Moves
end Instant
end SerialDispatch
