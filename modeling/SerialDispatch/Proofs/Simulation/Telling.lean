import SerialDispatch.Proofs.Simulation.Requests

/-!
# What the callbacks of a simulation are told

All callbacks are attached before the first signal is sent, and the signals of one request are sent
before those of the next. So a relay tells each callback all signals of its request, request by
request. Delivery does the same, save that coalescing leaves out progress, at any point of a run;
main statements: `Options.exists_underway`, `Options.told_plain`.
-/
namespace SerialDispatch

namespace Relay

variable {α : Type} {r : Relay} {id : DispatchId} {n : Nat}

/-- Before the terminal signal of a dispatch, its callback is told of all events. -/
theorem passAll_open {signals : List Signal} (known : r.known id = some n)
    (unfinished : ∀ signal ∈ signals, signal.isFinished = false) :
    r.passAll (signals.map fun signal => (.event ⟨id, signal⟩ : Message α)) =
      { r with told := r.told ++ signals.map fun signal => (n, ⟨id, signal⟩) } := by
  induction signals generalizing r with
  | nil => simp [passAll]
  | cons signal rest ih =>
    have going : signal.isFinished = false := unfinished signal List.mem_cons_self
    have first : r.pass (.event ⟨id, signal⟩ : Message α) = r.tell n ⟨id, signal⟩ := by
      simp [pass, known, going]
    have others := ih (r := r.tell n ⟨id, signal⟩) known fun signal h =>
      unfinished signal (List.mem_cons_of_mem _ h)
    rw [List.map_cons, passAll, List.foldl_cons, first]
    refine others.trans ?_
    simp [tell]

/-- The callback of a dispatch is told of all that is sent for it up to its terminal signal, and is
not known any more behind it. -/
theorem passAll_closed {signals : List Signal} (outcome : Outcome) (known : r.known id = some n)
    (unfinished : ∀ signal ∈ signals, signal.isFinished = false) :
    r.passAll ((signals ++ [Signal.finished outcome]).map fun signal =>
        (.event ⟨id, signal⟩ : Message α)) =
      { r with told := r.told ++ (signals ++ [Signal.finished outcome]).map fun signal =>
          (n, (⟨id, signal⟩ : Event)) }.set id none := by
  rw [List.map_append, passAll_append, passAll_open known unfinished]
  simp [passAll, pass, known, Signal.isFinished, tell, set]

end Relay

namespace Simulation.Options

open Session

variable (o : Options)

theorem unfinished_newsOf (i : Nat) : ∀ signal ∈ o.newsOf i, signal.isFinished = false := by
  intro signal there
  unfold newsOf at there
  split at there
  · cases there
  · rw [List.mem_append, List.mem_map] at there
    rcases there with ⟨n, -, rfl⟩ | there
    · rfl
    · simp only [List.mem_cons, List.not_mem_nil, or_false] at there
      rcases there with rfl | rfl <;> rfl

/-- What the callback of request `i` is told. -/
def callsOf (i : Nat) : List (Nat × Event) := (o.eventsOf i).map fun e => (i, e)

theorem callsOf_eq (i : Nat) : o.callsOf i =
    ((o.newsOf i).map fun signal => (i, (⟨i + 1, signal⟩ : Event))) ++
      [(i, ⟨i + 1, .finished (o.outcomeOf i)⟩)] := by
  rw [callsOf, eventsOf, List.map_map, List.map_append]
  rfl

/-- What the callbacks are told if nothing is left out. -/
def calls : List (Nat × Event) := (List.range o.count).flatMap o.callsOf

theorem announced_mail : Announced o.mail := by
  refine List.pairwise_append.2 ⟨?_, ?_, ?_⟩
  · refine List.pairwise_map.2 (List.pairwise_lt_range.imp fun {i j} before same => ?_)
    cases same
    exact Nat.lt_irrefl _ before
  · refine List.pairwise_of_forall_mem_list fun earlier _ later there => ?_
    obtain ⟨i, -, there⟩ := List.mem_flatMap.1 there
    obtain ⟨e, -, rfl⟩ := List.mem_map.1 there
    simp [Message.attached?]
  · intro earlier _ later there
    obtain ⟨i, -, there⟩ := List.mem_flatMap.1 there
    obtain ⟨e, -, rfl⟩ := List.mem_map.1 there
    simp [Message.attached?]

/-- Attaching tells nobody anything, and makes the callbacks of the requests known, and no others. -/
theorem passAll_attaches (n : Nat) :
    (Relay.start.passAll ((List.range n).map attachOf)).told = [] ∧
      (∀ i < n, (Relay.start.passAll ((List.range n).map attachOf)).known (i + 1) = some i) ∧
      ∀ id, (∀ i < n, id ≠ i + 1) →
        (Relay.start.passAll ((List.range n).map attachOf)).known id = none := by
  induction n with
  | zero => exact ⟨rfl, fun i impossible => absurd impossible (Nat.not_lt_zero i), fun _ _ => rfl⟩
  | succ n ih =>
    obtain ⟨nothing, known, unknown⟩ := ih
    have last : Relay.start.passAll ((List.range (n + 1)).map attachOf) =
        (Relay.start.passAll ((List.range n).map attachOf)).set (n + 1) (some n) := by
      rw [List.range_succ, List.map_append, Relay.passAll_append]
      rfl
    rw [last]
    refine ⟨nothing, fun i there => ?_, fun id other => ?_⟩
    · by_cases new : i = n
      · simp [Relay.set, new]
      · simpa [Relay.set, new] using known i (by omega)
    · exact (if_neg (other n (Nat.lt_succ_self n))).trans
        (unknown id fun i there => other i (Nat.lt_succ_of_lt there))

/-- One request after the other is told of to its end. -/
theorem told_passAll_requests {is : List Nat} {r : Relay} (distinct : is.Nodup)
    (known : ∀ i ∈ is, r.known (i + 1) = some i) :
    (r.passAll (is.flatMap fun i => (o.eventsOf i).map (.event : Event → Message Command))).told =
      r.told ++ is.flatMap o.callsOf := by
  induction is generalizing r with
  | nil => exact (List.append_nil _).symm
  | cons i rest ih =>
    obtain ⟨other, distinct⟩ := List.nodup_cons.1 distinct
    have first := Relay.passAll_closed (α := Command) (o.outcomeOf i) (known i List.mem_cons_self)
      (o.unfinished_newsOf i)
    have events : (o.eventsOf i).map (.event : Event → Message Command) =
        (o.newsOf i ++ [Signal.finished (o.outcomeOf i)]).map fun signal =>
          .event ⟨i + 1, signal⟩ := List.map_map
    have others : ∀ j ∈ rest, (Relay.set { r with told := r.told ++
        (o.newsOf i ++ [Signal.finished (o.outcomeOf i)]).map fun signal => (i, ⟨i + 1, signal⟩) }
        (i + 1) none).known (j + 1) = some j := by
      intro j there
      have differ : j ≠ i := fun same => other (same ▸ there)
      simpa [Relay.set, differ] using known j (List.mem_cons_of_mem _ there)
    rw [List.flatMap_cons, Relay.passAll_append, events, first, ih distinct others,
      List.flatMap_cons, ← List.append_assoc, callsOf, eventsOf, List.map_map]
    rfl

theorem told_mail : (Relay.start.passAll o.mail).told = o.calls := by
  obtain ⟨nothing, known, -⟩ := passAll_attaches o.count
  rw [mail, Relay.passAll_append, o.told_passAll_requests List.nodup_range fun i there =>
    known i (List.mem_range.1 there), nothing, List.nil_append, calls]

theorem events_mail : o.mail.filterMap Message.event? = o.calls.map Prod.snd := by
  have attaches : ((List.range o.count).map attachOf).filterMap Message.event? = [] := by
    rw [List.filterMap_map, List.filterMap_eq_nil_iff]
    exact fun i _ => rfl
  rw [mail, List.filterMap_append, attaches, List.nil_append, List.filterMap_flatMap, calls,
    List.map_flatMap]
  refine List.flatMap_congr fun i _ => ?_
  rw [callsOf, List.map_map, List.filterMap_map]
  exact (List.filterMap_some).trans (List.map_id _).symm

theorem finished_mem_eventsOf (i : Nat) :
    (⟨i + 1, .finished (o.outcomeOf i)⟩ : Event) ∈ o.eventsOf i :=
  List.mem_map.2 ⟨_, List.mem_append_right _ (List.mem_singleton_self _), rfl⟩

/-- When all is passed on, no callback is known any more. -/
theorem known_mail (id : DispatchId) : (Relay.start.passAll o.mail).known id = none := by
  have events : (List.range o.count).flatMap (fun i =>
      (o.eventsOf i).map (.event : Event → Message Command)) =
        ((List.range o.count).flatMap o.eventsOf).map .event := List.map_flatMap.symm
  rw [mail, Relay.passAll_append, events]
  refine Relay.known_passAll_of_ended ?_
  by_cases own : ∃ i < o.count, id = i + 1
  · obtain ⟨i, there, rfl⟩ := own
    exact .inr ⟨_, List.mem_flatMap.2 ⟨i, List.mem_range.2 there, o.finished_mem_eventsOf i⟩,
      rfl, rfl⟩
  · refine .inl ((passAll_attaches o.count).2.2 id fun i there same => own ⟨i, there, same⟩)

/-- The session is on the way of a simulation whose requests are all made, and these messages have
been taken from its mailbox. -/
structure Underway (s : Session) (taken : List (Message Command)) : Prop where
  simple : s.Simple
  sinks : s.sinks = []
  mail : o.mail = taken ++ (s.mailbox ++ (s.errands o.setup).filterMap Errand.message?)
  known : ∀ id, (Relay.start.passAll taken).known id = s.callbacks.number? id
  told : Thinned CallSuperseded (Relay.start.passAll taken).told (toldIn s.history)
  plain : o.config.coalescing = false → toldIn s.history = (Relay.start.passAll taken).told

variable {o} {s : Session} {taken : List (Message Command)}

theorem exists_underway (steps : Steps o.setup none (o.made o.count) s) :
    ∃ taken, o.Underway s taken := by
  have made := made_script o (Nat.le_refl _)
  obtain ⟨done, goes⟩ := made.simple.steps o.isSimple_setup steps
  obtain ⟨batches, sent, echoes⟩ :=
    ((passing_runScript o.setup o.script).steps steps) goes.simple.there
  have mail : o.mail =
      batches.flatten ++ (s.mailbox ++ (s.errands o.setup).filterMap Errand.message?) := by
    have all := made.errands
    rw [goes.left] at all
    rw [← List.append_assoc, ← sent, messages_of_yield goes.yield, made.messages, made.mailbox,
      List.append_assoc, ← List.filterMap_append, all, List.filterMap_flatMap, List.length_map,
      List.length_range]
    simp only [messages_errandsOf, Options.mail]
  have announced : Announced batches.flatten := by
    have whole := o.announced_mail
    rw [mail] at whole
    exact (List.pairwise_append.1 whole).1
  obtain ⟨known, told⟩ := Relay.passBatches_thinned announced (r := Relay.start) rfl (.refl _)
    o.setup.config.coalescing
  refine ⟨batches.flatten, goes.simple, goes.sinks.trans made.sinks, mail, fun id => ?_, ?_,
    fun plain => ?_⟩
  · rw [known, echoes.known]
  · rwa [echoes.told]
  · rw [echoes.told, show o.setup.config.coalescing = false from plain,
      Relay.passAll_flatten _ announced]

variable (o) in
theorem underway_settled : o.Underway o.settled o.mail := by
  obtain ⟨taken, underway⟩ := exists_underway (steps_run o.setup none (o.made o.count))
  have settles := o.settles
  have done : (o.settled.errands o.setup).filterMap Errand.message? = [] := by
    rw [errands, settles.stage, settles.waiting]
    rfl
  have whole := underway.mail
  rw [← settled_eq, settles.mailbox, done, List.append_nil, List.append_nil] at whole
  rwa [whole]

variable (o) in
/-- Without coalescing they are told of everything. -/
theorem told_plain (plain : o.config.coalescing = false) :
    toldIn o.settled.history = o.calls := by
  rw [← o.told_mail]
  exact o.underway_settled.plain plain

end Simulation.Options
end SerialDispatch
