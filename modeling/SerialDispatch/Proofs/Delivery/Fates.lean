import SerialDispatch.Proofs.Delivery.Clerk

/-!
# What comes of every event

A clerk is given its messages in batches, and it may leave out superseded progress. An account says
of every event of the batches what came of it: a callback was told, nobody was in charge, the next
event superseded it, or its turn had not come when a callback panicked. What is told and what is
logged can be read off it: `Clerk.told_accounts`.
-/
namespace SerialDispatch

/-- What has come of an event. -/
inductive EventFate where
  | waiting
  | told (callback : Nat)
  /-- Progress that was left out for the progress right behind it. -/
  | superseded
  /-- No callback was in charge of its dispatch. -/
  | unclaimed
  /-- It waited, or came later in the batch, when a callback panicked. -/
  | swept
  /-- It was sent after delivery had ended. -/
  | lost
  deriving DecidableEq

/-- The call that an account shows. -/
def callIn : Event × EventFate → Option (Nat × Event)
  | (e, .told callback) => some (callback, e)
  | _ => none

/-- The log entry that an account shows. -/
def entryIn : Event × EventFate → Option LogEvent
  | (e, .unclaimed) => some e.entry
  | _ => none

/-- Something holds wherever a list is taken apart at one of its elements. -/
def Everywhere {α : Type} (P : List α → α → List α → Prop) (l : List α) : Prop :=
  ∀ before a after, l = before ++ a :: after → P before a after

namespace Everywhere

variable {α : Type} {P Q : List α → α → List α → Prop} {a : α} {xs ys : List α}

theorem nil : Everywhere P [] := by
  intro before a after parts
  simp at parts

theorem cons (first : P [] a xs)
    (rest : Everywhere (fun before b after => P (a :: before) b after) xs) :
    Everywhere P (a :: xs) := by
  intro before b after parts
  cases before with
  | nil =>
    obtain ⟨rfl, rfl⟩ := List.cons.inj parts
    exact first
  | cons c before =>
    obtain ⟨rfl, others⟩ := List.cons.inj parts
    exact rest before b after others

theorem imp (h : Everywhere P xs) (sub : ∀ before b after, P before b after → Q before b after) :
    Everywhere Q xs :=
  fun before b after parts => sub before b after (h before b after parts)

theorem of_mem (h : ∀ a ∈ xs, ∀ before after, P before a after) : Everywhere P xs :=
  fun before a after parts => h a (by rw [parts]; simp) before after

theorem append (first : Everywhere (fun before a after => P before a (after ++ ys)) xs)
    (second : Everywhere (fun before a after => P (xs ++ before) a after) ys) :
    Everywhere P (xs ++ ys) := by
  intro before a after parts
  rcases List.append_eq_append_iff.1 parts with ⟨more, rfl, hys⟩ | ⟨more, rfl, hrest⟩
  · exact second more a after hys
  · cases more with
    | nil => simpa using second [] a after hrest.symm
    | cons b more =>
      obtain ⟨rfl, rfl⟩ := List.cons.inj hrest
      exact first before a more rfl

end Everywhere

namespace Clerk

/-- What comes of an event when it is its turn. -/
def fate (k : Clerk) (e : Event) : EventFate :=
  if k.halted then .swept
  else match k.register e.id with
    | none => .unclaimed
    | some l => .told l.number

/-- What comes of the events of a batch. -/
def fates (coalescing : Bool) (k : Clerk) : List Event → List (Event × EventFate)
  | [] => []
  | e :: rest =>
    if coalescing && rest.head?.any e.supersededBy then
      (e, .superseded) :: fates coalescing k rest
    else (e, k.fate e) :: fates coalescing (k.pass (.event e : Message Empty)) rest

/-- Handles a batch, its callbacks first. -/
def take (coalescing : Bool) (k : Clerk) (batch : List (Message Empty)) : Clerk :=
  (k.registered batch).passAll
    ((Message.events coalescing batch).map .event : List (Message Empty))

def takeAll (coalescing : Bool) (k : Clerk) (batches : List (List (Message Empty))) : Clerk :=
  batches.foldl (take coalescing) k

/-- What comes of the events of the batches. -/
def accounts (coalescing : Bool) (k : Clerk) :
    List (List (Message Empty)) → List (Event × EventFate)
  | [] => []
  | batch :: rest => (k.registered batch).fates coalescing (batch.filterMap Message.event?) ++
      accounts coalescing (k.take coalescing batch) rest

variable {coalescing : Bool} {k : Clerk} {e : Event}

theorem takeAll_append (k : Clerk) (first second : List (List (Message Empty))) :
    k.takeAll coalescing (first ++ second) =
      (k.takeAll coalescing first).takeAll coalescing second := List.foldl_append

section Events

variable {l : Listener} {events : List Event}

theorem pass_unclaimed (going : k.halted = false) (nobody : k.register e.id = none) :
    k.pass (.event e : Message Empty) = { k with logged := k.logged ++ [e.entry] } := by
  rw [pass_event going, handle, nobody]

theorem pass_claimed (going : k.halted = false) (somebody : k.register e.id = some l) :
    k.pass (.event e : Message Empty) = k.call l e := by
  rw [pass_event going, handle, somebody]

theorem fate_unclaimed (going : k.halted = false) (nobody : k.register e.id = none) :
    k.fate e = .unclaimed := by
  rw [fate, going, nobody]
  rfl

theorem fate_claimed (going : k.halted = false) (somebody : k.register e.id = some l) :
    k.fate e = .told l.number := by
  rw [fate, going, somebody]
  rfl

theorem told_call (k : Clerk) (l : Listener) (e : Event) :
    (k.call l e).told = k.told ++ [(l.number, e)] ∧ (k.call l e).logged = k.logged := by
  unfold call
  split <;> exact ⟨rfl, rfl⟩

theorem halted_call (k : Clerk) (l : Listener) (e : Event) :
    (k.call l e).halted = true ↔ l.panicsOn = some e.signal.trigger ∨ k.halted = true := by
  unfold call
  split
  · rename_i panics
    exact ⟨fun _ => .inl panics, fun _ => rfl⟩
  · rename_i calm
    exact ⟨.inr, fun h => h.resolve_left calm⟩

/-- What is told and logged of one event. -/
theorem told_fate (k : Clerk) (e : Event) :
    (k.pass (.event e : Message Empty)).told = k.told ++ (callIn (e, k.fate e)).toList ∧
    (k.pass (.event e : Message Empty)).logged = k.logged ++ (entryIn (e, k.fate e)).toList := by
  cases halted : k.halted with
  | true => simp [pass_halted halted, fate, halted, callIn, entryIn]
  | false =>
    cases register : k.register e.id with
    | none =>
      rw [pass_unclaimed halted register, fate_unclaimed halted register]
      simp [callIn, entryIn]
    | some l =>
      rw [pass_claimed halted register, fate_claimed halted register]
      simpa [callIn, entryIn] using told_call k l e

/-- Nobody is put in charge by an event. -/
theorem register_pass {id : DispatchId}
    (h : (k.pass (.event e : Message Empty)).register id = some l) : k.register id = some l := by
  cases halted : k.halted with
  | true => rwa [pass_halted halted] at h
  | false =>
    cases register : k.register e.id with
    | none => rwa [pass_unclaimed halted register] at h
    | some other =>
      rw [pass_claimed halted register, call] at h
      split at h
      · cases h
      · dsimp only at h
        split at h
        · cases h
        · exact h

/-- An event that stays is passed, and so are the rest. -/
theorem events_cons (coalescing : Bool) (e : Event) (rest : List Event) :
    (if coalescing then Event.survivors (e :: rest) else e :: rest) =
      if coalescing && rest.head?.any e.supersededBy then
        (if coalescing then Event.survivors rest else rest)
      else e :: (if coalescing then Event.survivors rest else rest) := by
  cases coalescing with
  | false => rfl
  | true =>
    cases rest with
    | nil => rfl
    | cons next rest => rfl

theorem map_fates (coalescing : Bool) (k : Clerk) (events : List Event) :
    (k.fates coalescing events).map Prod.fst = events := by
  induction events generalizing k with
  | nil => rfl
  | cons e rest ih =>
    rw [fates]
    split
    · rw [List.map_cons, ih]
    · rw [List.map_cons, ih]

theorem told_fates (coalescing : Bool) (k : Clerk) (events : List Event) :
    (k.passAll ((if coalescing then Event.survivors events else events).map .event :
      List (Message Empty))).told = k.told ++ (k.fates coalescing events).filterMap callIn ∧
    (k.passAll ((if coalescing then Event.survivors events else events).map .event :
      List (Message Empty))).logged =
        k.logged ++ (k.fates coalescing events).filterMap entryIn := by
  induction events generalizing k with
  | nil => cases coalescing <;> simp [fates, passAll, Event.survivors]
  | cons e rest ih =>
    rw [events_cons, fates]
    split
    · exact ih k
    · obtain ⟨told, logged⟩ := ih (k.pass (.event e : Message Empty))
      obtain ⟨first, entry⟩ := told_fate k e
      rw [List.map_cons, passAll, List.foldl_cons, ← passAll, told, logged, first, entry]
      cases hc : callIn (e, k.fate e) <;> cases hl : entryIn (e, k.fate e) <;>
        simp [hc, hl]

theorem fate_settled (k : Clerk) (e : Event) :
    k.fate e ≠ .superseded ∧ k.fate e ≠ .waiting ∧ k.fate e ≠ .lost := by
  unfold fate
  split
  · exact ⟨nofun, nofun, nofun⟩
  · split <;> exact ⟨nofun, nofun, nofun⟩

/-- An event is superseded by the one behind it only. -/
theorem fates_superseded (coalescing : Bool) (k : Clerk) (events : List Event) :
    Everywhere (fun before a _ => a.2 = .superseded → coalescing = true ∧
      ∃ next rest, events = before.map Prod.fst ++ a.1 :: next :: rest ∧ a.1.Superseded next)
      (k.fates coalescing events) := by
  induction events generalizing k with
  | nil => exact .nil
  | cons e rest ih =>
    -- What is said of the rest is said of it behind one more event.
    have behind (fate : EventFate) (k : Clerk) := (ih k).imp (Q := fun before a _ =>
      a.2 = .superseded → coalescing = true ∧ ∃ next others, e :: rest =
        ((e, fate) :: before).map Prod.fst ++ a.1 :: next :: others ∧ a.1.Superseded next)
      fun before a after h superseded =>
        let ⟨mode, next, others, events, hnext⟩ := h superseded
        ⟨mode, next, others, congrArg (e :: ·) events, hnext⟩
    rw [fates]
    split
    · rename_i next
      obtain ⟨mode, next⟩ := Bool.and_eq_true_iff.1 next
      refine .cons (fun _ => ⟨mode, ?_⟩) (behind _ k)
      cases rest with
      | nil => cases next
      | cons f rest => exact ⟨f, rest, rfl, by simpa [Event.Superseded] using next⟩
    · exact .cons (fun superseded => absurd superseded (k.fate_settled e).1) (behind _ _)

/-- Somebody who is in charge has panicked at a call. -/
def Struck (k : Clerk) (account : List (Event × EventFate)) : Prop :=
  ∃ f l, (f, .told l.number) ∈ account ∧ k.register f.id = some l ∧
    l.panicsOn = some f.signal.trigger

theorem Struck.mono {account more : List (Event × EventFate)} (struck : k.Struck account)
    (sub : account ⊆ more) : k.Struck more :=
  let ⟨f, l, told, register, panics⟩ := struck
  ⟨f, l, sub told, register, panics⟩

theorem Struck.before {account : List (Event × EventFate)}
    (struck : (k.pass (.event e : Message Empty)).Struck account) : k.Struck account :=
  let ⟨f, l, told, register, panics⟩ := struck
  ⟨f, l, told, register_pass register, panics⟩

/-- A clerk is halted by a call at which somebody panics. -/
theorem struck_of_halted (going : k.halted = false)
    (halted : (k.pass (.event e : Message Empty)).halted = true) : k.Struck [(e, k.fate e)] := by
  cases register : k.register e.id with
  | none =>
    rw [pass_unclaimed going register] at halted
    exact absurd (going.symm.trans halted) Bool.false_ne_true
  | some l =>
    rw [pass_claimed going register, halted_call, going] at halted
    refine ⟨e, l, ?_, register, halted.resolve_right Bool.false_ne_true⟩
    rw [fate_claimed going register]
    exact List.mem_singleton_self _

theorem struck_of_passAll (going : k.halted = false)
    (halted : (k.passAll ((if coalescing then Event.survivors events else events).map .event :
      List (Message Empty))).halted = true) : k.Struck (k.fates coalescing events) := by
  induction events generalizing k with
  | nil =>
    have nothing : k.halted = true := by
      cases coalescing <;> exact halted
    exact absurd (going.symm.trans nothing) Bool.false_ne_true
  | cons e rest ih =>
    rw [events_cons] at halted
    rw [fates]
    split at halted
    · rename_i superseded
      rw [if_pos superseded]
      exact (ih going halted).mono (List.subset_cons_self _ _)
    · rename_i kept
      rw [if_neg kept]
      cases next : (k.pass (.event e : Message Empty)).halted with
      | true => exact (struck_of_halted going next).mono (by simp)
      | false => exact (ih next halted).before.mono (List.subset_cons_self _ _)

/-- What is swept away comes after a call at which somebody panics. -/
theorem fates_swept (going : k.halted = false) (events : List Event) :
    Everywhere (fun before a _ => a.2 = .swept → k.Struck before)
      (k.fates coalescing events) := by
  induction events generalizing k with
  | nil => exact .nil
  | cons e rest ih =>
    rw [fates]
    split
    · exact .cons nofun ((ih going).imp fun before a after h swept =>
        (h swept).mono (List.subset_cons_self _ _))
    · refine .cons (fun swept => ?_) ?_
      · cases register : k.register e.id with
        | none => cases (fate_unclaimed going register).symm.trans swept
        | some l => cases (fate_claimed going register).symm.trans swept
      · cases next : (k.pass (.event e : Message Empty)).halted with
        | true => exact fun before a after _ _ => (struck_of_halted going next).mono (by simp)
        | false => exact (ih next).imp fun before a after h swept =>
            (h swept).before.mono (List.subset_cons_self _ _)

/-- As long as a clerk goes on nothing is swept away. -/
theorem fates_unswept (going : (k.passAll
    ((if coalescing then Event.survivors events else events).map .event :
      List (Message Empty))).halted = false) :
    ∀ a ∈ k.fates coalescing events, a.2 ≠ .swept := by
  induction events generalizing k with
  | nil => simp [fates]
  | cons e rest ih =>
    rw [events_cons] at going
    rw [fates]
    split at going
    · rename_i superseded
      rw [if_pos superseded]
      exact List.forall_mem_cons.2 ⟨nofun, ih going⟩
    · rename_i kept
      rw [if_neg kept]
      refine List.forall_mem_cons.2 ⟨fun swept => ?_, ih going⟩
      cases halted : k.halted with
      | true =>
        rw [passAll_halted halted, halted] at going
        cases going
      | false =>
        cases register : k.register e.id with
        | none => cases (fate_unclaimed halted register).symm.trans swept
        | some l => cases (fate_claimed halted register).symm.trans swept

/-- Nothing of a batch that was taken still waits or is lost. -/
theorem fates_settled (coalescing : Bool) (k : Clerk) (events : List Event) :
    ∀ a ∈ k.fates coalescing events, a.2 ≠ .waiting ∧ a.2 ≠ .lost := by
  induction events generalizing k with
  | nil => simp [fates]
  | cons e rest ih =>
    intro a ha
    rw [fates] at ha
    split at ha
    · rcases List.mem_cons.1 ha with rfl | ha
      · exact ⟨nofun, nofun⟩
      · exact ih k a ha
    · rcases List.mem_cons.1 ha with rfl | ha
      · exact (k.fate_settled e).2
      · exact ih _ a ha

end Events

section Batches

variable {batches : List (List (Message Empty))} {messages : List (Message Empty)}

theorem take_eq (coalescing : Bool) (k : Clerk) (batch : List (Message Empty)) :
    k.take coalescing batch = (k.registered batch).passAll
      ((if coalescing then Event.survivors (batch.filterMap Message.event?)
        else batch.filterMap Message.event?).map .event : List (Message Empty)) := by
  rw [take, Message.events, Event.coalesce_eq_survivors]

theorem told_take (coalescing : Bool) (k : Clerk) (batch : List (Message Empty)) :
    (k.take coalescing batch).told = k.told ++ ((k.registered batch).fates coalescing
      (batch.filterMap Message.event?)).filterMap callIn ∧
    (k.take coalescing batch).logged = k.logged ++ ((k.registered batch).fates coalescing
      (batch.filterMap Message.event?)).filterMap entryIn := by
  have told := told_fates coalescing (k.registered batch) (batch.filterMap Message.event?)
  rw [take_eq]
  rwa [show (k.registered batch).told = k.told by rw [registered_same],
    show (k.registered batch).logged = k.logged by rw [registered_same]] at told

/-- What is told and logged is what the account shows. -/
theorem told_accounts (coalescing : Bool) (k : Clerk) (batches : List (List (Message Empty))) :
    (k.takeAll coalescing batches).told =
      k.told ++ (k.accounts coalescing batches).filterMap callIn ∧
    (k.takeAll coalescing batches).logged =
      k.logged ++ (k.accounts coalescing batches).filterMap entryIn := by
  induction batches generalizing k with
  | nil => simp [takeAll, accounts]
  | cons batch rest ih =>
    obtain ⟨told, logged⟩ := ih (k.take coalescing batch)
    obtain ⟨first, entries⟩ := told_take coalescing k batch
    rw [accounts, List.filterMap_append, List.filterMap_append, ← List.append_assoc,
      ← List.append_assoc, ← first, ← entries]
    exact ⟨told, logged⟩

/-- Every event of the batches is in the account, in its place. -/
theorem map_accounts (coalescing : Bool) (k : Clerk) (batches : List (List (Message Empty))) :
    (k.accounts coalescing batches).map Prod.fst = batches.flatten.filterMap Message.event? := by
  induction batches generalizing k with
  | nil => rfl
  | cons batch rest ih =>
    rw [accounts, List.map_append, map_fates, ih, List.flatten_cons, List.filterMap_append]

theorem takeAll_halted (halted : k.halted = true) :
    (k.takeAll coalescing batches).halted = true := by
  induction batches generalizing k with
  | nil => exact halted
  | cons batch rest ih =>
    refine ih ?_
    rw [take_eq, passAll_halted] <;> rwa [registered_same]

theorem accounts_unswept (going : (k.takeAll coalescing batches).halted = false) :
    ∀ a ∈ k.accounts coalescing batches, a.2 ≠ .swept := by
  induction batches generalizing k with
  | nil => simp [accounts]
  | cons batch rest ih =>
    refine List.forall_mem_append.2 ⟨fates_unswept ?_, ih going⟩
    rw [← take_eq]
    refine Bool.eq_false_iff.2 fun halted => ?_
    have later : ((k.take coalescing batch).takeAll coalescing rest).halted = true :=
      takeAll_halted halted
    exact Bool.false_ne_true (going.symm.trans later)

theorem accounts_settled (coalescing : Bool) (k : Clerk) (batches : List (List (Message Empty))) :
    ∀ a ∈ k.accounts coalescing batches, a.2 ≠ .waiting ∧ a.2 ≠ .lost := by
  induction batches generalizing k with
  | nil => simp [accounts]
  | cons batch rest ih =>
    intro a ha
    rcases List.mem_append.1 ha with ha | ha
    · exact fates_settled coalescing _ _ a ha
    · exact ih _ a ha

/-- An event with this much of the account before it was superseded by the event right behind it in
its batch. -/
def SupersededIn (batches : List (List (Message Empty))) (before : List (Event × EventFate))
    (e : Event) : Prop :=
  ∃ earlier batch later, batches = earlier ++ batch :: later ∧ ∃ passed next rest,
    before.map Prod.fst = earlier.flatten.filterMap Message.event? ++ passed ∧
    batch.filterMap Message.event? = passed ++ e :: next :: rest ∧
    e.signal.trigger = .progress ∧ next.signal.trigger = .progress ∧ e.id = next.id

theorem accounts_superseded (coalescing : Bool) (k : Clerk)
    (batches : List (List (Message Empty))) :
    Everywhere (fun before a _ => a.2 = .superseded →
      coalescing = true ∧ SupersededIn batches before a.1) (k.accounts coalescing batches) := by
  induction batches generalizing k with
  | nil => exact .nil
  | cons batch rest ih =>
    refine .append ?_ ?_
    · refine (fates_superseded coalescing _ _).imp fun before a after h superseded => ?_
      obtain ⟨mode, next, others, events, hnext⟩ := h superseded
      exact ⟨mode, [], batch, rest, rfl, before.map Prod.fst, next, others, rfl, events,
        Event.superseded_iff.1 hnext⟩
    · refine (ih _).imp fun before a after h superseded => ?_
      obtain ⟨mode, earlier, other, later, rfl, passed, next, others, place, events, hnext⟩ :=
        h superseded
      refine ⟨mode, batch :: earlier, other, later, rfl, passed, next, others, ?_, events, hnext⟩
      rw [List.map_append, map_fates, place, List.flatten_cons, List.filterMap_append,
        List.append_assoc]

/-- Whoever is in charge, and whoever was told, was attached by one of the messages. -/
structure Attested (messages : List (Message Empty)) (k : Clerk) : Prop where
  register : ∀ id l, k.register id = some l →
    ∃ callback, .attach id callback ∈ messages ∧ callback.listener = l
  told : ∀ call ∈ k.told,
    ∃ callback, .attach call.2.id callback ∈ messages ∧ callback.number = call.1

theorem attested_start (messages : List (Message Empty)) : start.Attested messages :=
  ⟨nofun, nofun⟩

theorem Attested.pass (attested : k.Attested messages) (e : Event) :
    (k.pass (.event e : Message Empty)).Attested messages := by
  refine ⟨fun id l h => attested.register id l (register_pass h), fun call hcall => ?_⟩
  rw [(told_fate k e).1] at hcall
  rcases List.mem_append.1 hcall with before | now
  · exact attested.told call before
  · cases halted : k.halted with
    | true => simp [fate, halted, callIn] at now
    | false =>
      cases register : k.register e.id with
      | none => simp [fate_unclaimed halted register, callIn] at now
      | some l =>
        obtain ⟨callback, attached, rfl⟩ := attested.register e.id l register
        rw [fate_claimed halted register, callIn, Option.toList_some, List.mem_singleton] at now
        subst now
        exact ⟨callback, attached, rfl⟩

theorem Attested.passAll (attested : k.Attested messages) (events : List Event) :
    (k.passAll (events.map .event : List (Message Empty))).Attested messages := by
  induction events generalizing k with
  | nil => exact attested
  | cons e rest ih => exact ih (attested.pass e)

theorem Attested.registered (attested : k.Attested messages) {batch : List (Message Empty)}
    (sub : batch ⊆ messages) : (k.registered batch).Attested messages := by
  induction batch generalizing k with
  | nil => exact attested
  | cons m rest ih =>
    obtain ⟨hm, hrest⟩ := List.cons_subset.1 sub
    cases m with
    | event e => exact ih attested hrest
    | attach id callback =>
      refine ih (k := k.attach id callback.listener) ⟨fun other l h => ?_, attested.told⟩ hrest
      simp only [attach] at h
      split at h
      · rename_i same
        subst same
        exact ⟨callback, hm, Option.some.inj h⟩
      · exact attested.register other l h

theorem Attested.take (attested : k.Attested messages) {batch : List (Message Empty)}
    (sub : batch ⊆ messages) : (k.take coalescing batch).Attested messages :=
  (attested.registered sub).passAll _

theorem Attested.takeAll (attested : k.Attested messages) (sub : batches.flatten ⊆ messages) :
    (k.takeAll coalescing batches).Attested messages := by
  induction batches generalizing k with
  | nil => exact attested
  | cons batch rest ih =>
    obtain ⟨first, others⟩ := List.append_subset.1 sub
    exact ih (attested.take first) others

/-- A callback that was attached has panicked at a call. -/
def PanicIn (messages : List (Message Empty)) (account : List (Event × EventFate)) : Prop :=
  ∃ e callback, (e, .told callback.number) ∈ account ∧ .attach e.id callback ∈ messages ∧
    callback.panicsOn = some e.signal.trigger

theorem PanicIn.mono {account more : List (Event × EventFate)} (panic : PanicIn messages account)
    (sub : account ⊆ more) : PanicIn messages more :=
  let ⟨e, callback, told, attached, panics⟩ := panic
  ⟨e, callback, sub told, attached, panics⟩

theorem Attested.struck (attested : k.Attested messages) {account : List (Event × EventFate)}
    (struck : k.Struck account) : PanicIn messages account := by
  obtain ⟨e, l, told, register, panics⟩ := struck
  obtain ⟨callback, attached, rfl⟩ := attested.register e.id l register
  exact ⟨e, callback, told, attached, panics⟩

/-- A clerk that has been halted has seen a panic. -/
theorem Attested.halted (attested : k.Attested messages) (going : k.halted = false)
    (sub : batches.flatten ⊆ messages) (halted : (k.takeAll coalescing batches).halted = true) :
    PanicIn messages (k.accounts coalescing batches) := by
  induction batches generalizing k with
  | nil => exact absurd (going.symm.trans halted) Bool.false_ne_true
  | cons batch rest ih =>
    obtain ⟨first, others⟩ := List.append_subset.1 sub
    rw [accounts]
    cases next : (k.take coalescing batch).halted with
    | true =>
      rw [take_eq] at next
      have going : (k.registered batch).halted = false := by rwa [registered_same]
      exact ((attested.registered first).struck (struck_of_passAll going next)).mono
        (List.subset_append_left _ _)
    | false =>
      exact (ih (attested.take first) next others halted).mono (List.subset_append_right _ _)

/-- Where batches are given only to a clerk that goes on, what is swept away comes after a panic. -/
theorem Attested.swept (attested : k.Attested messages) (sub : batches.flatten ⊆ messages)
    (going : Everywhere (fun before _ _ => (k.takeAll coalescing before).halted = false) batches) :
    Everywhere (fun before a _ => a.2 = .swept → PanicIn messages before)
      (k.accounts coalescing batches) := by
  induction batches generalizing k with
  | nil => exact .nil
  | cons batch rest ih =>
    obtain ⟨first, others⟩ := List.append_subset.1 sub
    have now : k.halted = false := going [] batch rest rfl
    refine .append ?_ ?_
    · refine (fates_swept (by rwa [registered_same]) _).imp fun before a after h swept => ?_
      exact (attested.registered first).struck (h swept)
    · refine (ih (attested.take first) others ?_).imp fun before a after h swept =>
        (h swept).mono (List.subset_append_right _ _)
      exact fun before other after parts => going (batch :: before) other after (by rw [parts]; rfl)

end Batches

end Clerk
end SerialDispatch
