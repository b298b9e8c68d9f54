import SerialDispatch.Delivery

/-!
# Delivery with other callbacks

Delivery looks callbacks up, calls them and takes them off the register without regard to what they
are like. So if all callbacks are altered in the same way, those on the register and those on their
way to it, the same is delivered, and the register comes to be what it would be, altered.
-/
namespace SerialDispatch

variable {α : Type} (g : Callback α → Callback α)

namespace Callbacks

/-- The register with all callbacks altered. -/
def alter (cs : Callbacks α) : Callbacks α := cs.map fun c => (c.1, g c.2)

variable (cs : Callbacks α) (id : DispatchId)

theorem find_alter : (cs.alter g).find? id = (cs.find? id).map g := by
  unfold alter find?
  induction cs with
  | nil => rfl
  | cons c rest ih =>
    rw [List.map_cons, List.lookup_cons, List.lookup_cons]
    cases id == c.1 with
    | true => rfl
    | false => exact ih

theorem alter_remove : (cs.remove id).alter g = (cs.alter g).remove id := by
  simp only [alter, remove, List.filter_map]
  rfl

theorem alter_attach (callback : Callback α) :
    (cs.attach id callback).alter g = (cs.alter g).attach id (g callback) := by
  rw [attach, attach, ← alter_remove]
  rfl

/-- A call uses up the same reactions of an altered callback. -/
theorem alter_after (after : ∀ c t, g (c.after t) = (g c).after t) (e : Event) :
    (cs.after e).alter g = (cs.alter g).after e := by
  unfold Callbacks.after
  rw [find_alter]
  cases e.signal.trigger with
  | finished => exact alter_remove g cs e.id
  | _ =>
    cases cs.find? e.id with
    | none => rfl
    | some callback =>
      simp only [Option.map_some]
      rw [alter_attach, after]

end Callbacks

namespace Message

/-- The message with its callback altered, if it has one. -/
def alter : Message α → Message α
  | .attach id callback => .attach id (g callback)
  | .event e => .event e

variable (batch : List (Message α))

theorem nextBatch_alter (coalescing : Bool) :
    nextBatch coalescing (batch.map (alter g)) =
      ((nextBatch coalescing batch).1.map (alter g),
        (nextBatch coalescing batch).2.map (alter g)) := by
  unfold nextBatch
  cases coalescing with
  | true => rfl
  | false => simp [List.map_take]

theorem registered_alter (cs : Callbacks α) :
    registered (batch.map (alter g)) (cs.alter g) = (registered batch cs).alter g := by
  unfold registered
  induction batch generalizing cs with
  | nil => rfl
  | cons m rest ih =>
    rw [List.map_cons, List.foldl_cons, List.foldl_cons, ← ih]
    cases m with
    | attach id callback => rw [alter, register, register, Callbacks.alter_attach]
    | event e => rfl

theorem events_alter (coalescing : Bool) :
    events coalescing (batch.map (alter g)) = events coalescing batch := by
  have same : event? ∘ alter g = event? := by
    funext m
    cases m <;> rfl
  unfold events
  rw [List.filterMap_map, same]

end Message
end SerialDispatch
