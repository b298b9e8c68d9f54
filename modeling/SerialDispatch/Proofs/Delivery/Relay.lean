import SerialDispatch.Delivery
import SerialDispatch.Proofs.Delivery.Thinning

/-!
# Passing messages on one by one, and in batches

A `Relay` passes messages on to callbacks in the order in which they were sent. Delivery takes them
in batches: it registers the callbacks of a batch first and may coalesce the events of it. Where
every callback is attached before anything else is sent for its dispatch this makes no difference
but for superseded progress, wherever the batches end; main statement: `Relay.passBatches_thinned`.
-/
namespace SerialDispatch

def Signal.isFinished : Signal → Bool
  | .finished _ => true
  | _ => false

theorem Event.Superseded.unfinished {a b : Event} (superseded : a.Superseded b) :
    a.signal.isFinished = false := by
  have progress := (superseded_iff.1 superseded).1
  cases hs : a.signal with
  | finished outcome => simp [hs, Signal.trigger] at progress
  | _ => rfl

namespace Callbacks

variable {α : Type} (cs : Callbacks α) (id other : DispatchId)

theorem find_remove :
    (cs.remove id).find? other = if other = id then Option.none else cs.find? other := by
  unfold find? remove
  induction cs with
  | nil => simp
  | cons pair rest ih =>
    obtain ⟨key, callback⟩ := pair
    by_cases hkey : key = id
    · subst hkey
      rw [List.filter_cons_of_neg (by simp), ih, List.lookup_cons]
      by_cases ho : other = key
      · simp [ho]
      · simp [ho, beq_eq_false_iff_ne.2 ho]
    · rw [List.filter_cons_of_pos (by simpa using hkey), List.lookup_cons, List.lookup_cons, ih]
      by_cases ho : other = key
      · simp [ho, hkey]
      · simp [beq_eq_false_iff_ne.2 ho]

theorem find_attach (callback : Callback α) :
    (cs.attach id callback).find? other = if other = id then some callback else cs.find? other := by
  have hremove := find_remove cs id other
  unfold find? attach at *
  rw [List.lookup_cons, hremove]
  by_cases ho : other = id
  · simp [ho]
  · simp [ho, beq_eq_false_iff_ne.2 ho]

/-- The register after a call. -/
theorem find_after (e : Event) : (cs.after e).find? id =
    if id = e.id then
      if e.signal.trigger = .finished then Option.none
      else (cs.find? e.id).map fun c => c.after e.signal.trigger
    else cs.find? id := by
  unfold after
  cases ht : e.signal.trigger with
  | finished => simp [find_remove]
  | progress =>
    cases hc : cs.find? e.id with
    | none => by_cases hid : id = e.id <;> simp [hid, hc]
    | some c => simp [find_attach]
  | prevent =>
    cases hc : cs.find? e.id with
    | none => by_cases hid : id = e.id <;> simp [hid, hc]
    | some c => simp [find_attach]

/-- The number of the callback that is registered for a dispatch. -/
def number? : Option Nat := (cs.find? id).map Callback.number

theorem number_attach (callback : Callback α) : (cs.attach id callback).number? other =
    if other = id then some callback.number else cs.number? other := by
  unfold number?
  rw [find_attach]
  by_cases ho : other = id <;> simp [ho]

theorem number_after {cs : Callbacks α} {e : Event} {callback : Callback α}
    (h : cs.find? e.id = some callback) : (cs.after e).number? other =
      if e.signal.isFinished = true ∧ other = e.id then Option.none else cs.number? other := by
  have hcall : ∀ t, (cs.attach e.id (callback.after t)).number? other = cs.number? other := by
    intro t
    rw [number_attach]
    by_cases ho : other = e.id
    · simp [ho, number?, h, Callback.after]
    · rw [if_neg ho]
  unfold Callbacks.after
  cases hs : e.signal with
  | finished outcome =>
    simp only [Signal.trigger, number?, find_remove]
    by_cases ho : other = e.id <;> simp [ho, Signal.isFinished]
  | progress update => simpa [Signal.trigger, h, Signal.isFinished] using hcall .progress
  | preventCancel => simpa [Signal.trigger, h, Signal.isFinished] using hcall .prevent

end Callbacks

/-- Who has been told what, and who is to be told of which dispatch. -/
@[ext] structure Relay where
  known : DispatchId → Option Nat
  told : List (Nat × Event)

namespace Relay

def start : Relay := ⟨fun _ => none, []⟩

/-- Other callbacks for one dispatch, or none. -/
def set (r : Relay) (id : DispatchId) (callback : Option Nat) : Relay :=
  { r with known := fun other => if other = id then callback else r.known other }

def tell (r : Relay) (callback : Nat) (e : Event) : Relay :=
  { r with told := r.told ++ [(callback, e)] }

/-- Passes a message on. The terminal signal is the last that a callback is told. -/
def pass {α : Type} (r : Relay) : Message α → Relay
  | .attach id callback => r.set id callback.number
  | .event e =>
    match r.known e.id with
    | none => r
    | some callback => if e.signal.isFinished then (r.tell callback e).set e.id none
      else r.tell callback e

/-- Passes messages on in order. -/
def passAll {α : Type} (r : Relay) (messages : List (Message α)) : Relay := messages.foldl pass r

variable {α : Type} (r : Relay) {callback : Nat} {e : Event}

theorem passAll_append (first second : List (Message α)) :
    r.passAll (first ++ second) = (r.passAll first).passAll second := List.foldl_append

theorem pass_unknown (h : r.known e.id = none) : r.pass (.event e : Message α) = r := by
  simp only [pass, h]

theorem told_pass (h : r.known e.id = some callback) :
    (r.pass (.event e : Message α)).told = r.told ++ [(callback, e)] := by
  simp only [pass, h]
  split <;> rfl

theorem known_pass (id : DispatchId) : (r.pass (.event e : Message α)).known id =
    if e.signal.isFinished = true ∧ id = e.id then none else r.known id := by
  cases h : r.known e.id with
  | none =>
    rw [pass_unknown r h]
    by_cases hid : id = e.id
    · simp [hid, h]
    · simp [hid]
  | some callback =>
    cases hf : e.signal.isFinished with
    | true => simp [pass, h, hf, set, tell]
    | false => simp [pass, h, hf, tell]

end Relay

namespace Message

variable {α : Type}

/-- The dispatch that a message is about. -/
def id : Message α → DispatchId
  | .attach id _ => id
  | .event e => e.id

/-- The dispatch that a callback is attached for. -/
def attached? : Message α → Option DispatchId
  | .attach id _ => some id
  | .event _ => none

end Message

/-- For every dispatch at most one callback is attached, and before anything else is sent. -/
def Announced {α : Type} (messages : List (Message α)) : Prop :=
  messages.Pairwise fun earlier later => later.attached? ≠ some earlier.id

instance {α : Type} (messages : List (Message α)) : Decidable (Announced messages) :=
  inferInstanceAs (Decidable (messages.Pairwise _))

/-- Of two calls the first is superseded by the second: the same callback, and progress both. -/
def CallSuperseded (earlier later : Nat × Event) : Prop :=
  earlier.1 = later.1 ∧ Event.Superseded earlier.2 later.2

namespace Relay

variable {α : Type}

/-- Registers a callback; an event is left for later. -/
def register (r : Relay) : Message α → Relay
  | .attach id callback => r.pass (.attach id callback)
  | .event _ => r

/-- Passes a batch on, its callbacks first. -/
def passBatch (coalescing : Bool) (r : Relay) (batch : List (Message α)) : Relay :=
  (batch.foldl register r).passAll
    ((Message.events coalescing batch).map Message.event : List (Message α))

/-- Passes batch after batch on. -/
def passBatches (coalescing : Bool) (r : Relay) (batches : List (List (Message α))) : Relay :=
  batches.foldl (passBatch coalescing) r

theorem passBatches_append (coalescing : Bool) (r : Relay)
    (first second : List (List (Message α))) : r.passBatches coalescing (first ++ second) =
      (r.passBatches coalescing first).passBatches coalescing second := List.foldl_append

/-- A callback may be registered before an event of another dispatch is passed on. -/
theorem register_pass (r : Relay) {m : Message α} {e : Event} (other : m.attached? ≠ some e.id) :
    (r.pass (.event e : Message α)).register m = (r.register m).pass (.event e : Message α) := by
  cases m with
  | event _ => rfl
  | attach id callback =>
    have hne : e.id ≠ id := fun h => other (by rw [h]; rfl)
    cases hk : r.known e.id with
    | none => simp [register, pass, set, hk, hne]
    | some n =>
      cases hf : e.signal.isFinished with
      | false => simp [register, pass, set, tell, hk, hne, hf]
      | true =>
        ext1
        · funext other
          by_cases ho : other = id
          · simp [register, pass, set, tell, hk, hne, hf, ho, Ne.symm hne]
          · simp [register, pass, set, tell, hk, hne, hf, ho]
        · simp [register, pass, set, tell, hk, hne, hf]

theorem foldl_register_pass (r : Relay) {batch : List (Message α)} {e : Event}
    (others : ∀ m ∈ batch, m.attached? ≠ some e.id) :
    batch.foldl register (r.pass (.event e : Message α)) =
      (batch.foldl register r).pass (.event e : Message α) := by
  induction batch generalizing r with
  | nil => rfl
  | cons m rest ih =>
    rw [List.foldl_cons, List.foldl_cons, register_pass r (others m List.mem_cons_self)]
    exact ih _ fun k hk => others k (List.mem_cons_of_mem m hk)

/-- Messages are passed on to the same effect when the callbacks are registered first. -/
theorem passAll_eq (r : Relay) {batch : List (Message α)} (announced : Announced batch) :
    r.passAll batch = r.passBatch false batch := by
  induction batch generalizing r with
  | nil => rfl
  | cons m rest ih =>
    obtain ⟨others, rest_announced⟩ := List.pairwise_cons.1 announced
    have hrest := ih (r.pass m) rest_announced
    cases m with
    | attach id callback => exact hrest
    | event e =>
      show (r.pass (.event e)).passAll rest = _
      rw [hrest, passBatch, foldl_register_pass r others]
      rfl

theorem known_foldl_register {r q : Relay} (known : r.known = q.known)
    (batch : List (Message α)) :
    (batch.foldl register r).known = (batch.foldl register q).known := by
  induction batch generalizing r q with
  | nil => exact known
  | cons m rest ih =>
    refine ih ?_
    cases m with
    | event _ => exact known
    | attach id callback => simp only [register, pass, set, known]

theorem told_foldl_register (r : Relay) (batch : List (Message α)) :
    (batch.foldl register r).told = r.told := by
  induction batch generalizing r with
  | nil => rfl
  | cons m rest ih => cases m <;> exact ih _

/-- Callbacks are registered as a relay comes to know them. -/
theorem known_registered {r : Relay} {cs : Callbacks α} (known : ∀ id, r.known id = cs.number? id)
    (batch : List (Message α)) (id : DispatchId) :
    (batch.foldl register r).known id = (Message.registered batch cs).number? id := by
  induction batch generalizing r cs with
  | nil => exact known id
  | cons m rest ih =>
    refine @ih (r.register m) (Message.register cs m) fun other => ?_
    cases m with
    | event e => exact known other
    | attach id callback =>
      rw [Message.register, Callbacks.number_attach, ← known other]
      rfl

/-- What is told is never taken back. -/
theorem told_passAll (r : Relay) (messages : List (Message α)) :
    ∃ calls, (r.passAll messages).told = r.told ++ calls := by
  induction messages generalizing r with
  | nil => exact ⟨[], (List.append_nil _).symm⟩
  | cons m rest ih =>
    obtain ⟨calls, hcalls⟩ := ih (r.pass m)
    cases m with
    | attach id callback => exact ⟨calls, hcalls⟩
    | event e =>
      cases hk : r.known e.id with
      | none =>
        rw [pass_unknown r hk] at hcalls
        exact ⟨calls, by rw [← hcalls, passAll, List.foldl_cons, pass_unknown r hk]; rfl⟩
      | some n =>
        rw [told_pass r hk, List.append_assoc] at hcalls
        exact ⟨_, hcalls⟩

/-- Only what is passed on is told. -/
theorem mem_told_passAll {r : Relay} {messages : List (Message α)} {call : Nat × Event}
    (told : call ∈ (r.passAll messages).told) : call ∈ r.told ∨ .event call.2 ∈ messages := by
  induction messages generalizing r with
  | nil => exact .inl told
  | cons m rest ih =>
    rcases ih told with first | later
    · cases m with
      | attach id callback => exact .inl first
      | event e =>
        cases hk : r.known e.id with
        | none =>
          rw [pass_unknown r hk] at first
          exact .inl first
        | some n =>
          rw [told_pass r hk, List.mem_append, List.mem_singleton] at first
          rcases first with before | rfl
          · exact .inl before
          · exact .inr List.mem_cons_self
    · exact .inr (List.mem_cons_of_mem m later)

/-- A dispatch that has ended has no callback any more. -/
theorem known_passAll_of_ended {r : Relay} {events : List Event} {id : DispatchId}
    (ended : r.known id = none ∨ ∃ e ∈ events, e.signal.isFinished = true ∧ e.id = id) :
    (r.passAll (events.map .event : List (Message α))).known id = none := by
  induction events generalizing r with
  | nil => exact ended.resolve_right (by simp)
  | cons e rest ih =>
    refine ih (r := r.pass (.event e : Message α)) ?_
    rw [known_pass]
    rcases ended with gone | ⟨last, there, finished, same⟩
    · exact .inl (by simp [gone])
    · rcases List.mem_cons.1 there with rfl | later
      · exact .inl (if_pos ⟨finished, same.symm⟩)
      · exact .inr ⟨last, later, finished, same⟩

/-- A callback is to be told of a dispatch, or was told its end. -/
def Minds (id : DispatchId) (n : Nat) (r : Relay) : Prop :=
  r.known id = some n ∨ ∃ outcome, (n, ⟨id, .finished outcome⟩) ∈ r.told

theorem Minds.passAll {r : Relay} {id : DispatchId} {n : Nat} (minds : r.Minds id n)
    {messages : List (Message α)} (others : ∀ m ∈ messages, m.attached? ≠ some id) :
    (r.passAll messages).Minds id n := by
  induction messages generalizing r with
  | nil => exact minds
  | cons m rest ih =>
    obtain ⟨first, rest⟩ := List.forall_mem_cons.1 others
    refine ih ?_ rest
    cases m with
    | attach other callback =>
      have differ : id ≠ other := fun same => first (congrArg some same.symm)
      exact minds.imp_left fun known => (if_neg differ).trans known
    | event e =>
      rcases minds with known | ⟨outcome, told⟩
      · by_cases ends : e.signal.isFinished = true ∧ id = e.id
        · obtain ⟨eid, signal⟩ := e
          obtain ⟨finished, rfl⟩ := ends
          cases signal with
          | finished outcome =>
            refine .inr ⟨outcome, ?_⟩
            rw [told_pass r known]
            exact List.mem_append_right _ List.mem_cons_self
          | _ => cases finished
        · exact .inl ((known_pass r id).trans ((if_neg ends).trans known))
      · obtain ⟨calls, whole⟩ := told_passAll r [(.event e : Message α)]
        refine .inr ⟨outcome, ?_⟩
        rw [show (r.pass (.event e : Message α)).told = _ from whole]
        exact List.mem_append_left _ told

/-- A callback that is attached is told of its dispatch until the end. -/
theorem minds_passAll (r : Relay) {messages : List (Message α)} (announced : Announced messages)
    {id : DispatchId} {callback : Callback α} (attached : .attach id callback ∈ messages) :
    (r.passAll messages).Minds id callback.number := by
  obtain ⟨before, after, rfl⟩ := List.append_of_mem attached
  have others := (List.pairwise_cons.1 (List.pairwise_append.1 announced).2.1).1
  rw [passAll_append]
  refine Minds.passAll (r := (r.passAll before).pass (.attach id callback)) (.inl ?_) others
  exact if_pos rfl

/-- Progress that is superseded makes a difference to what is told of it only. -/
theorem passAll_thinned {events kept : List Event} (thinned : Thinned Event.Superseded events kept)
    {r q : Relay} (known : r.known = q.known) : ∃ calls others,
    (r.passAll (events.map .event : List (Message α))).told = r.told ++ calls ∧
    (q.passAll (kept.map .event : List (Message α))).told = q.told ++ others ∧
    Thinned CallSuperseded calls others ∧
    (r.passAll (events.map .event : List (Message α))).known =
      (q.passAll (kept.map .event : List (Message α))).known := by
  induction thinned generalizing r q with
  | nil => exact ⟨[], [], (List.append_nil _).symm, (List.append_nil _).symm, .nil, known⟩
  | @keep e events kept rest ih =>
    have hnext : (r.pass (.event e : Message α)).known = (q.pass (.event e : Message α)).known := by
      funext id
      rw [known_pass, known_pass, known]
    obtain ⟨calls, others, hcalls, hothers, thinned, hknown⟩ := ih hnext
    cases hk : r.known e.id with
    | none =>
      have hq : q.known e.id = none := by rw [← known, hk]
      rw [pass_unknown r hk] at hcalls
      rw [pass_unknown q hq] at hothers
      refine ⟨calls, others, ?_, ?_, thinned, hknown⟩
      · rw [← hcalls, List.map_cons, passAll, List.foldl_cons, pass_unknown r hk]
        rfl
      · rw [← hothers, List.map_cons, passAll, List.foldl_cons, pass_unknown q hq]
        rfl
    | some n =>
      have hq : q.known e.id = some n := by rw [← known, hk]
      rw [told_pass r hk, List.append_assoc] at hcalls
      rw [told_pass q hq, List.append_assoc] at hothers
      exact ⟨_, _, hcalls, hothers, .keep (n, e) thinned, hknown⟩
  | @skip e next events kept superseded rest ih =>
    obtain ⟨-, -, hid⟩ := Event.superseded_iff.1 superseded
    have unfinished := superseded.unfinished
    have hkept : (r.pass (.event e : Message α)).known = r.known := by
      funext id
      simp [known_pass, unfinished]
    obtain ⟨calls, others, hcalls, hothers, thinned, hknown⟩ := ih (hkept.trans known)
    cases hk : r.known e.id with
    | none =>
      rw [pass_unknown r hk] at hcalls hknown
      have hsame : r.passAll ((e :: next :: events).map .event : List (Message α)) =
          r.passAll ((next :: events).map .event : List (Message α)) := by
        rw [List.map_cons, passAll, List.foldl_cons, pass_unknown r hk]
        rfl
      rw [hsame]
      exact ⟨calls, others, hcalls, hothers, thinned, hknown⟩
    | some n =>
      -- What the next event is told as tells that the call before it is superseded.
      have hn : (r.pass (.event e : Message α)).known next.id = some n := by rw [hkept, ← hid, hk]
      obtain ⟨more, hmore⟩ := told_passAll ((r.pass (.event e : Message α)).pass (.event next))
        (events.map .event : List (Message α))
      rw [told_pass _ hn, List.append_assoc] at hmore
      have hfirst : calls = (n, next) :: more :=
        List.append_cancel_left (hcalls.symm.trans hmore)
      rw [told_pass r hk, List.append_assoc] at hcalls
      refine ⟨(n, e) :: calls, others, hcalls, hothers, ?_, hknown⟩
      rw [hfirst] at thinned ⊢
      exact .skip ⟨rfl, superseded⟩ thinned

/-- A batch that is coalesced is told as one that is not, but for superseded progress. -/
theorem passBatch_thinned (batch : List (Message α)) {r q : Relay} (known : r.known = q.known)
    (told : Thinned CallSuperseded r.told q.told) (coalescing : Bool) :
    (r.passBatch false batch).known = (q.passBatch coalescing batch).known ∧
      Thinned CallSuperseded (r.passBatch false batch).told
        (q.passBatch coalescing batch).told := by
  have thinned : Thinned Event.Superseded (Message.events false batch)
      (Message.events coalescing batch) := by
    cases coalescing with
    | false => exact .refl _
    | true => exact Event.thinned_coalesce _
  obtain ⟨calls, others, hcalls, hothers, hthinned, hknown⟩ :=
    passAll_thinned (α := α) thinned (known_foldl_register known batch)
  refine ⟨hknown, ?_⟩
  rw [passBatch, passBatch, hcalls, hothers, told_foldl_register, told_foldl_register]
  exact told.append hthinned

/-- Batches that are not coalesced are passed on as their messages are. -/
theorem passAll_flatten (r : Relay) {batches : List (List (Message α))}
    (announced : Announced batches.flatten) :
    r.passAll batches.flatten = r.passBatches false batches := by
  induction batches generalizing r with
  | nil => rfl
  | cons batch rest ih =>
    rw [List.flatten_cons] at announced ⊢
    obtain ⟨first, others, -⟩ := List.pairwise_append.1 announced
    rw [passAll_append, passAll_eq r first]
    exact ih _ others

/-- Wherever the batches end, and whether or not they are coalesced, what is passed on in batches is
told as if it were passed on message by message, but for superseded progress. -/
theorem passBatches_thinned {batches : List (List (Message α))}
    (announced : Announced batches.flatten) {r q : Relay} (known : r.known = q.known)
    (told : Thinned CallSuperseded r.told q.told) (coalescing : Bool) :
    (r.passAll batches.flatten).known = (q.passBatches coalescing batches).known ∧
      Thinned CallSuperseded (r.passAll batches.flatten).told
        (q.passBatches coalescing batches).told := by
  induction batches generalizing r q with
  | nil => exact ⟨known, told⟩
  | cons batch rest ih =>
    rw [List.flatten_cons] at announced ⊢
    obtain ⟨first, others, -⟩ := List.pairwise_append.1 announced
    obtain ⟨hknown, htold⟩ := passBatch_thinned batch known told coalescing
    rw [passAll_append, passAll_eq r first]
    exact ih others hknown htold

end Relay

end SerialDispatch
