import SerialDispatch.Proofs.Delivery.Lookahead

/-!
# Coalescing batch by batch

Delivery coalesces one batch at a time. What has been coalesced in parts coalesces to the same as
the whole: `Event.coalesce_flatten`. Where two parts meet, one event at most stays that would go if
they were one list: the last of the first part, which has lost sight of what comes behind it; main
statement: `Event.coalesce_at_seam`.
-/
namespace SerialDispatch

/-- Lists are thinned out together when each of them is. -/
theorem Thinned.flatten {α : Type} {R : α → α → Prop} {f : List α → List α}
    (each : ∀ xs, Thinned R xs (f xs)) (lists : List (List α)) :
    Thinned R lists.flatten (lists.map f).flatten := by
  induction lists with
  | nil => exact .nil
  | cons xs rest ih => exact (each xs).append ih

namespace Event

theorem coalesce_flatten (batches : List (List Event)) :
    coalesce (batches.map coalesce).flatten = coalesce batches.flatten :=
  (coalesce_congr (Thinned.flatten thinned_coalesce batches)).symm

theorem coalesce_append (first second : List Event) :
    coalesce (coalesce first ++ coalesce second) = coalesce (first ++ second) := by
  simpa using coalesce_flatten [first, second]

theorem coalesce_idem (events : List Event) : coalesce (coalesce events) = coalesce events := by
  simpa using coalesce_flatten [events]

/-- The last event of a list, if it goes when the list is joined with the next one. -/
def atSeam (first second : List Event) : Option Event :=
  match first.getLast?, second.head? with
  | some last, some next => if ProgressAlike last next then some last else none
  | _, _ => none

variable {e next : Event} {first second rest : List Event}

theorem atSeam_eq_some_iff : atSeam first second = some e ↔
    first.getLast? = some e ∧ ∃ next, second.head? = some next ∧ ProgressAlike e next := by
  unfold atSeam
  cases first.getLast? with
  | none => simp
  | some last =>
    cases second.head? with
    | none => simp
    | some next =>
      by_cases alike : ProgressAlike last next
      · simp only [if_pos alike, Option.some.injEq]
        constructor
        · rintro rfl
          exact ⟨rfl, next, rfl, alike⟩
        · exact And.left
      · simp only [if_neg alike, Option.some.injEq]
        constructor
        · exact nofun
        · rintro ⟨rfl, _, rfl, also⟩
          exact absurd also alike

@[simp] theorem atSeam_nil : atSeam first [] = none := by
  unfold atSeam
  cases first.getLast? <;> rfl

/-- One event in front of another list is at the seam when it is superseded. -/
theorem atSeam_single : atSeam [e] (next :: rest) =
    if e.supersededBy next then some e else none := by
  simp [atSeam, supersededBy_eq]

/-- Those that look ahead see past the end of a list at its last event only. -/
theorem survivors_append (first second : List Event) : ∃ kept,
    survivors first = kept ++ (atSeam first second).toList ∧
      survivors (first ++ second) = kept ++ survivors second := by
  induction first with
  | nil => exact ⟨[], rfl, rfl⟩
  | cons e first ih =>
    cases first with
    | nil =>
      cases second with
      | nil => exact ⟨[e], by simp [survivors], by simp [survivors]⟩
      | cons next rest =>
        rw [atSeam_single, List.singleton_append, survivors, survivors]
        cases e.supersededBy next with
        | true => exact ⟨[], rfl, rfl⟩
        | false => exact ⟨[e], rfl, rfl⟩
    | cons next rest =>
      obtain ⟨kept, alone, joined⟩ := ih
      have seam : atSeam (e :: next :: rest) second = atSeam (next :: rest) second := by
        simp [atSeam]
      rw [seam, List.cons_append, List.cons_append, survivors, survivors, ← List.cons_append,
        alone, joined]
      cases e.supersededBy next with
      | true => exact ⟨kept, rfl, rfl⟩
      | false => exact ⟨e :: kept, rfl, rfl⟩

/-- Two lists that have been coalesced coalesce to the same as the two they come from, and what has
been coalesced once stays as it is. As they stand, the coalesced lists hold one event more at most
than the two coalesced together: the last of the first list, if it is progress and the second begins
with progress of the same dispatch. -/
theorem coalesce_at_seam (first second : List Event) :
    coalesce (coalesce first ++ coalesce second) = coalesce (first ++ second) ∧
    coalesce (coalesce first) = coalesce first ∧
    ∃ kept, ∃ extra : Option Event,
      coalesce first ++ coalesce second = kept ++ extra.toList ++ coalesce second ∧
      coalesce (first ++ second) = kept ++ coalesce second ∧
      ∀ e, extra = some e ↔
        first.getLast? = some e ∧ ∃ next, second.head? = some next ∧ ProgressAlike e next := by
  refine ⟨coalesce_append first second, coalesce_idem first, ?_⟩
  obtain ⟨kept, alone, joined⟩ := survivors_append first second
  rw [← coalesce_eq_survivors] at alone
  rw [← coalesce_eq_survivors, ← coalesce_eq_survivors] at joined
  exact ⟨kept, atSeam first second, by rw [alone], joined, fun _ => atSeam_eq_some_iff⟩

end Event
end SerialDispatch
