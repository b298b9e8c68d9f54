import SerialDispatch.Proofs.Dispatcher.Serenity

/-!
# Delivering in another order

Two sessions are near to each other if they are alike, and the callbacks have given the same
commands, but for a part of the mailbox that only the second has delivered. Delivering an event to
both keeps them near, a registration may be made early, and progress that is superseded leaves no
more than the call that it is told by. Main statements: `Session.Near.deliverEvents`,
`Session.near_thinned`.
-/
namespace SerialDispatch

/-- A reaction that has been used up is not repeated. -/
theorem Callback.reaction_after {α : Type} (c : Callback α) (trigger : Trigger) :
    (c.after trigger).reaction trigger = [] := by
  have used : (c.after trigger).reactions.lookup trigger = none := by
    rw [List.lookup_eq_none_iff]
    intro r hr
    have differ : r.1 ≠ trigger := by simpa using (List.mem_filter.1 hr).2
    simpa using differ.symm
  rw [reaction, used]
  rfl

theorem Callback.after_after {α : Type} (c : Callback α) (trigger : Trigger) :
    (c.after trigger).after trigger = c.after trigger := by
  simp [after, List.filter_filter]

namespace Callbacks

variable {α : Type} {cs ds : Callbacks α} {id : DispatchId}

theorem find_registered_congr (same : cs.find? id = ds.find? id) (batch : List (Message α)) :
    (Message.registered batch cs).find? id = (Message.registered batch ds).find? id := by
  unfold Message.registered
  induction batch generalizing cs ds with
  | nil => exact same
  | cons m rest ih =>
    refine ih ?_
    cases m with
    | event e => exact same
    | attach other c => simp only [Message.register, find_attach, same]

theorem find_registered_of_unattached {batch : List (Message α)}
    (unattached : ∀ m ∈ batch, m.attached? ≠ some id) :
    (Message.registered batch cs).find? id = cs.find? id := by
  unfold Message.registered
  induction batch generalizing cs with
  | nil => rfl
  | cons m rest ih =>
    rw [List.foldl_cons, ih fun k hk => unattached k (List.mem_cons_of_mem m hk)]
    cases m with
    | event e => rfl
    | attach other c =>
      have differ : id ≠ other := fun h =>
        unattached _ List.mem_cons_self (by rw [h]; rfl)
      rw [Message.register, find_attach, if_neg differ]

/-- What superseded progress uses up is what the progress after it would use up. -/
theorem find_after_superseded {a b : Event} (superseded : Event.Superseded a b) :
    ((cs.after a).after b).find? id = (cs.after b).find? id := by
  obtain ⟨ha, hb, hid⟩ := Event.superseded_iff.1 superseded
  simp only [find_after, ha, hb, hid]
  split
  · cases cs.find? b.id <;> simp [Callback.after_after]
  · rfl

end Callbacks

namespace Session

variable {S T : Setup} {s t u v : Session} {rest : List (Message Command)}

/-- The two sessions have done the same, but `rest` waits for delivery in the first only. -/
structure Near (rest : List (Message Command)) (s t : Session) : Prop where
  like : Like .effects s t
  alive : s.phase = .alive ∧ t.phase = .alive
  mailbox : s.mailbox = rest ++ t.mailbox
  callbacks : ∀ id, (Message.registered rest s.callbacks).find? id = t.callbacks.find? id
  did : didIn s.history = didIn t.history

/-- What is sent can be told from the outline. -/
theorem sent_of_like {deeds more : List Happening} (before : Like .effects s t)
    (first : Does s u deeds) (second : Does t v more) (alive : s.phase = .alive ∧ t.phase = .alive)
    (after : Like .effects u v) : sentIn deeds = sentIn more := by
  have seen := after.history
  rw [first.history, second.history, List.filterMap_append, List.filterMap_append,
    before.history] at seen
  have view : ∀ {w x : Session} {deeds : List Happening}, Does w x deeds → w.phase = .alive →
      sentIn deeds = sentIn (deeds.filterMap Regard.effects.see) := by
    intro w x deeds does alive
    rw [sentIn, sentIn, List.filterMap_filterMap]
    refine List.filterMap_congr fun h hh => ?_
    have deed := does.deed h hh
    cases h with
    | lost m => simp [Happening.isDeed, alive] at deed
    | log record => cases hp : record.event.party <;> simp [Regard.see, Happening.sent?, hp]
    | note n => cases n <;> rfl
    | reached task milestone time => cases milestone <;> rfl
    | _ => rfl
  rw [view first alive.1, view second alive.2, List.append_cancel_left seen]

/-- Caller and worker send the same in both sessions. -/
theorem mailbox_of_acts (rest : List (Message Command)) (before : Like .effects s t)
    (alive : s.phase = .alive ∧ t.phase = .alive) (waiting : s.mailbox = rest ++ t.mailbox)
    (first : Acts s u) (second : Acts t v) (after : Like .effects u v) :
    u.mailbox = rest ++ v.mailbox := by
  obtain ⟨deeds, first⟩ := first
  obtain ⟨more, second⟩ := second
  rw [first.mailbox, waiting, second.mailbox, sent_of_like before first second alive after,
    List.append_assoc]

theorem undone {deeds : List Happening} (does : Does s t deeds) : didIn deeds = [] := by
  refine List.filterMap_eq_nil_iff.2 fun h hh => ?_
  have deed := does.deed h hh
  cases h with
  | did callback word reply => cases deed
  | _ => rfl

theorem did_of_acts (acts : Acts s t) : didIn t.history = didIn s.history := by
  obtain ⟨deeds, does⟩ := acts
  rw [does.history, didIn_append, undone does, List.append_nil]

namespace Near

/-- What caller and worker do to both sessions keeps them near. -/
theorem acts (near : Near rest s t) (first : Acts s u) (second : Acts t v)
    (like : Like .effects u v) : Near rest u v := by
  refine ⟨like, ⟨first.phase.trans near.alive.1, second.phase.trans near.alive.2⟩,
    mailbox_of_acts rest near.like near.alive near.mailbox first second like, ?_, ?_⟩
  · obtain ⟨deeds, first⟩ := first
    obtain ⟨more, second⟩ := second
    rw [first.callbacks, second.callbacks]
    exact near.callbacks
  · rw [did_of_acts first, did_of_acts second, near.did]

/-- Both sessions record something that is not seen, the same commands of callbacks included. -/
theorem record (near : Near rest s t) {h k : Happening} (first : Regard.effects.see h = none)
    (second : Regard.effects.see k = none) (did : didIn [h] = didIn [k]) :
    Near rest (s.record h) (t.record k) := by
  refine ⟨((Like.unseen s first).trans near.like).trans (Like.unseen t second).symm, near.alive,
    near.mailbox, near.callbacks, ?_⟩
  rw [history_record, history_record, didIn_append, didIn_append, near.did, did]

theorem react (near : Near rest s t) (alike : S.Alike T) (callback : Nat) (c : Command) :
    Near rest (s.react S callback c) (t.react T callback c) := by
  obtain ⟨like, reply⟩ := near.like.perform S c
  have performed := near.acts (Acts.perform S s c) (Acts.perform S t c) like
  unfold Session.react
  rw [← alike.perform, reply]
  exact performed.record rfl rfl rfl

theorem reactions (near : Near rest s t) (alike : S.Alike T) (callback : Nat)
    (commands : List Command) : Near rest (commands.foldl (Session.react S callback) s)
      (commands.foldl (Session.react T callback) t) := by
  induction commands generalizing s t with
  | nil => exact near
  | cons c rest ih => exact ih (near.react alike callback c)

/-- Other callbacks are registered in both sessions. -/
theorem register (near : Near rest s t) {cs ds : Callbacks Command}
    (same : ∀ id, (Message.registered rest cs).find? id = ds.find? id) :
    Near rest { s with callbacks := cs } { t with callbacks := ds } :=
  ⟨near.like, near.alive, near.mailbox, same, near.did⟩

theorem trans (first : Near rest s t) (second : Near [] t u) : Near rest s u :=
  ⟨first.like.trans second.like, ⟨first.alive.1, second.alive.2⟩,
    first.mailbox.trans (congrArg (rest ++ ·) second.mailbox),
    fun id => (first.callbacks id).trans (second.callbacks id), first.did.trans second.did⟩

theorem refl (alive : s.phase = .alive) : Near [] s s :=
  ⟨.refl s, ⟨alive, alive⟩, rfl, fun _ => rfl, rfl⟩

/-- The first session records something that is not seen. -/
theorem unseen (near : Near rest s t) {h : Happening} (unseen : Regard.effects.see h = none)
    (undone : didIn [h] = []) : Near rest (s.record h) t := by
  refine ⟨(Like.unseen s unseen).trans near.like, near.alive, near.mailbox, near.callbacks, ?_⟩
  rw [history_record, didIn_append, undone, List.append_nil, near.did]

/-- An event is delivered to both sessions, if its callback is not still to be registered. -/
theorem deliverEvent (near : Near rest s t) (alike : S.Alike T) {e : Event}
    (unattached : ∀ m ∈ rest, m.attached? ≠ some e.id)
    (calm : ∀ c, t.callbacks.find? e.id = some c → c.panicsOn = none) :
    Near rest (s.deliverEvent S e) (t.deliverEvent T e) := by
  have same : s.callbacks.find? e.id = t.callbacks.find? e.id :=
    (Callbacks.find_registered_of_unattached unattached).symm.trans (near.callbacks e.id)
  cases found : t.callbacks.find? e.id with
  | none =>
    rw [deliverEvent_unclaimed found, deliverEvent_unclaimed (same.trans found)]
    exact near.record rfl rfl rfl
  | some callback =>
    have unmoved : callback.panicsOn ≠ some e.signal.trigger := by
      rw [calm callback found]
      exact fun h => by cases h
    rw [deliverEvent_reacts found unmoved, deliverEvent_reacts (same.trans found) unmoved]
    refine Near.reactions (Near.record (near.register fun id => ?_) rfl rfl rfl) alike _ _
    by_cases hid : id = e.id
    · rw [hid, Callbacks.find_registered_of_unattached unattached, Callbacks.find_after,
        Callbacks.find_after, same]
    · rw [Callbacks.find_after, if_neg hid, ← near.callbacks id]
      exact Callbacks.find_registered_congr
        ((Callbacks.find_after _ _ e).trans (if_neg hid)) rest

end Near

theorem deliverEvents_cons {e : Event} (events : List Event)
    (alive : (s.deliverEvent S e).phase = .alive) :
    s.deliverEvents S (e :: events) = (s.deliverEvent S e).deliverEvents S events := by
  rw [Session.deliverEvents]
  exact if_pos alive

/-- Events are delivered to both sessions. -/
theorem Near.deliverEvents (near : Near rest s t) (alike : S.Alike T) (calmly : T.calm = T)
    (serene : t.Serene) {events : List Event}
    (unattached : ∀ e ∈ events, ∀ m ∈ rest, m.attached? ≠ some e.id) :
    Near rest (s.deliverEvents S events) (t.deliverEvents T events) := by
  induction events generalizing s t with
  | nil => exact near
  | cons e events ih =>
    have first := near.deliverEvent alike (unattached e List.mem_cons_self) fun _ => serene.unmoved
    rw [deliverEvents_cons events first.alive.1, deliverEvents_cons events first.alive.2]
    exact ih first (serene.deliverEvent calmly e) fun k hk =>
      unattached k (List.mem_cons_of_mem e hk)

/-- A callback that reacts is called, and that is all that becomes of the callbacks. -/
theorem callbacks_deliverEvent {e : Event} {callback : Callback Command}
    (found : s.callbacks.find? e.id = some callback)
    (unmoved : callback.panicsOn ≠ some e.signal.trigger) :
    (s.deliverEvent S e).callbacks = s.callbacks.after e := by
  rw [deliverEvent_reacts found unmoved]
  exact (Posts.reactions S _ _ _).callbacks

/-- Progress that is superseded at once makes the same difference as what supersedes it. -/
theorem near_superseded (near : Near [] s t) {a b : Event} (superseded : Event.Superseded a b)
    (calm : ∀ c, t.callbacks.find? b.id = some c → c.panicsOn = none) :
    Near [] ((s.deliverEvent T a).deliverEvent T b) (t.deliverEvent T b) := by
  obtain ⟨ha, hb, hid⟩ := Event.superseded_iff.1 superseded
  have same : ∀ id, s.callbacks.find? id = t.callbacks.find? id := near.callbacks
  cases found : t.callbacks.find? b.id with
  | none =>
    have unknown : s.callbacks.find? b.id = none := (same b.id).trans found
    rw [deliverEvent_unclaimed found, deliverEvent_unclaimed (s := s) (hid ▸ unknown),
      deliverEvent_unclaimed (by exact unknown)]
    exact (near.unseen rfl rfl).record rfl rfl rfl
  | some callback =>
    have unmoved : ∀ trigger, callback.panicsOn ≠ some trigger := fun trigger panics => by
      rw [calm callback found] at panics
      cases panics
    have known : s.callbacks.find? a.id = some callback := by rw [hid, same, found]
    have callbacks := callbacks_deliverEvent (S := T) known (unmoved _)
    have called : Near [] ({ s with callbacks := s.callbacks.after a }.record
          (.told callback.number a))
        ({ t with callbacks := t.callbacks.after b }.record (.told callback.number b)) := by
      refine (near.register fun id => ?_).record rfl rfl rfl
      show (s.callbacks.after a).find? id = (t.callbacks.after b).find? id
      rw [Callbacks.find_after, Callbacks.find_after, ha, hb, hid, same, same]
    have reacted : Near [] (s.deliverEvent T a) (t.deliverEvent T b) := by
      rw [deliverEvent_reacts known (unmoved _), deliverEvent_reacts found (unmoved _), ha, hb]
      exact called.reactions (.refl T) _ _
    -- The later event finds the callback with its reaction to progress used up.
    have used : (s.deliverEvent T a).callbacks.find? b.id = some (callback.after .progress) := by
      rw [callbacks, Callbacks.find_after, if_pos hid.symm, if_neg (by simp [ha]), hid, same, found,
        ha]
      rfl
    rw [deliverEvent_reacts used (unmoved _), hb, Callback.reaction_after]
    refine (reacted.register fun id => ?_).unseen rfl rfl
    show ((s.deliverEvent T a).callbacks.after b).find? id = (t.deliverEvent T b).callbacks.find? id
    rw [callbacks, Callbacks.find_after_superseded superseded,
      callbacks_deliverEvent found (unmoved _), Callbacks.find_after, Callbacks.find_after, same,
      same]

/-- Nor does it matter whether superseded progress has been left out. -/
theorem near_thinned (calmly : T.calm = T) {events kept : List Event}
    (thinned : Thinned Event.Superseded events kept) (near : Near [] s t) (first : s.Serene)
    (second : t.Serene) : Near [] (s.deliverEvents T events) (t.deliverEvents T kept) := by
  have unattached : ∀ e : Event, ∀ m ∈ ([] : List (Message Command)), m.attached? ≠ some e.id :=
    fun _ _ h => absurd h List.not_mem_nil
  induction thinned generalizing s t with
  | nil => exact near
  | @keep e events kept rest ih =>
    have told := near.deliverEvent (.refl T) (unattached e) fun _ => second.unmoved
    rw [deliverEvents_cons events told.alive.1, deliverEvents_cons kept told.alive.2]
    exact ih told (first.deliverEvent calmly e) (second.deliverEvent calmly e)
  | @skip a b events kept superseded rest ih =>
    have self : Near [] s s := .refl near.alive.1
    have early := self.deliverEvent (.refl T) (unattached a) fun _ => first.unmoved
    have late := self.deliverEvent (.refl T) (unattached b) fun _ => first.unmoved
    have both := near_superseded (T := T) self superseded fun _ => first.unmoved
    have others : Near [] (((s.deliverEvent T a).deliverEvent T b).deliverEvents T events)
        ((s.deliverEvent T b).deliverEvents T events) :=
      both.deliverEvents (.refl T) calmly (first.deliverEvent calmly b) fun e _ => unattached e
    rw [deliverEvents_cons _ early.alive.1, deliverEvents_cons _ both.alive.1]
    rw [← deliverEvents_cons _ late.alive.1] at others
    exact others.trans (ih near first second)

end Session
end SerialDispatch
