import Mathlib.Data.List.Basic
import SerialDispatch.Proofs.Delivery.Thinning

/-!
# Coalescing by places

Coalescing looks back at the event that was kept last. Its rule looks ahead: an event goes when the
event right behind it, kept or not, is progress of the same dispatch and so is the event itself.
`Event.goesAt` is this rule for a place in a list of events, and coalescing leaves out the events at
these places and no others; main statement: `Event.coalesce_by_places`.
-/
namespace SerialDispatch.Event

def isProgress (e : Event) : Bool := e.signal.trigger = .progress

/-- Both are progress of one dispatch. -/
def ProgressAlike (a b : Event) : Prop :=
  a.isProgress = true ∧ b.isProgress = true ∧ a.id = b.id

instance (a b : Event) : Decidable (ProgressAlike a b) := inferInstanceAs (Decidable (_ ∧ _ ∧ _))

/-- Whether progress stands at this place and progress of the same dispatch right behind it. -/
def goesAt (events : List Event) (i : Nat) : Bool :=
  match events[i]?, events[i + 1]? with
  | some e, some next => decide (ProgressAlike e next)
  | _, _ => false

/-- The places of a list whose events stay, in order. -/
def placesKept (events : List Event) : List Nat :=
  (List.range events.length).filter fun i => !goesAt events i

variable {a b e next : Event} {events rest : List Event} {i : Nat}

theorem supersededBy_eq (a b : Event) : a.supersededBy b = decide (ProgressAlike a b) := by
  simp [supersededBy, ProgressAlike, isProgress, Bool.and_assoc]

theorem superseded_iff_alike : a.Superseded b ↔ ProgressAlike a b := by
  simp [Superseded, supersededBy_eq]

theorem ProgressAlike.trans {c : Event} (first : ProgressAlike a b) (second : ProgressAlike b c) :
    ProgressAlike a c := ⟨first.1, second.2.1, first.2.2.trans second.2.2⟩

theorem goesAt_iff : goesAt events i = true ↔
    ∃ e next, events[i]? = some e ∧ events[i + 1]? = some next ∧ ProgressAlike e next := by
  unfold goesAt
  constructor
  · intro goes
    split at goes
    · exact ⟨_, _, ‹_›, ‹_›, of_decide_eq_true goes⟩
    · cases goes
  · rintro ⟨e, next, here, behind, alike⟩
    simp [here, behind, alike]

@[simp] theorem goesAt_cons_succ : goesAt (e :: events) (i + 1) = goesAt events i := by
  simp [goesAt]

theorem goesAt_cons_zero : goesAt (e :: next :: rest) 0 = e.supersededBy next := by
  simp [goesAt, supersededBy_eq]

/-- The place in front comes first, and the others are those of the rest, moved by one. -/
theorem placesKept_cons : placesKept (e :: events) =
    (if goesAt (e :: events) 0 then [] else [0]) ++ (placesKept events).map (· + 1) := by
  rw [placesKept, List.length_cons, List.range_succ_eq_map, List.filter_cons, List.filter_map]
  have others : (fun i => !goesAt (e :: events) i) ∘ Nat.succ = fun i => !goesAt events i := by
    ext i
    simp
  rw [others]
  cases goesAt (e :: events) 0 <;> rfl

/-- Those that look ahead keep the events at the places that stay. -/
theorem survivors_eq (events : List Event) :
    survivors events = (placesKept events).filterMap (events[·]?) := by
  induction events with
  | nil => rfl
  | cons e events ih =>
    have moved : ((placesKept events).map (· + 1)).filterMap ((e :: events)[·]?) =
        survivors events := by
      rw [ih, List.filterMap_map]
      exact List.filterMap_congr fun i _ => by simp
    rw [placesKept_cons, List.filterMap_append, moved]
    cases events with
    | nil => rfl
    | cons next rest =>
      rw [goesAt_cons_zero, survivors]
      cases e.supersededBy next <;> simp

/-- The first survivor supersedes what the first event supersedes. -/
theorem survivors_cons (e : Event) (rest : List Event) : ∃ first others,
    survivors (e :: rest) = first :: others ∧
      ∀ a : Event, a.supersededBy first = a.supersededBy e := by
  induction rest generalizing e with
  | nil => exact ⟨e, [], rfl, fun _ => rfl⟩
  | cons next rest ih =>
    rw [survivors]
    by_cases superseded : e.supersededBy next = true
    · obtain ⟨first, others, whole, same⟩ := ih next
      rw [if_pos superseded]
      exact ⟨first, others, whole, fun a => (same a).trans (supersededBy_congr superseded a).symm⟩
    · rw [if_neg superseded]
      exact ⟨e, _, rfl, fun _ => rfl⟩

/-- No survivor is superseded by the one right behind it. -/
theorem isChain_survivors (events : List Event) :
    (survivors events).IsChain fun a b => ¬ ProgressAlike a b := by
  induction events with
  | nil => exact .nil
  | cons e events ih =>
    cases events with
    | nil => exact .singleton e
    | cons next rest =>
      rw [survivors]
      split
      · exact ih
      · rename_i stays
        obtain ⟨first, others, whole, same⟩ := survivors_cons next rest
        rw [whole] at ih ⊢
        refine .cons_cons ?_ ih
        rw [← superseded_iff_alike, Superseded, same]
        exact stays

/-- After a place that goes comes one that stays, with progress of the same dispatch, and all places
between the two go. -/
theorem exists_kept_of_goesAt (goes : goesAt events i = true) : ∃ j, i < j ∧ j < events.length ∧
    goesAt events j = false ∧ ∀ k, i ≤ k → k < j → goesAt events k = true ∧
      ∃ e last, events[k]? = some e ∧ events[j]? = some last ∧ ProgressAlike e last := by
  induction left : events.length - i generalizing i with
  | zero =>
    obtain ⟨e, next, here, -⟩ := goesAt_iff.1 goes
    have := (List.getElem?_eq_some_iff.1 here).1
    omega
  | succ n ih =>
    obtain ⟨e, next, here, behind, alike⟩ := goesAt_iff.1 goes
    have inside := (List.getElem?_eq_some_iff.1 behind).1
    by_cases also : goesAt events (i + 1) = true
    · obtain ⟨j, after, short, stays, between⟩ := ih also (by omega)
      refine ⟨j, by omega, short, stays, fun k lower upper => ?_⟩
      by_cases first : k = i
      · obtain ⟨-, f, last, atNext, atLast, follows⟩ := between (i + 1) (Nat.le_refl _) after
        rw [behind] at atNext
        cases atNext
        subst first
        exact ⟨goes, e, last, here, atLast, alike.trans follows⟩
      · exact between k (by omega) upper
    · refine ⟨i + 1, by omega, inside, by simpa using also, fun k lower upper => ?_⟩
      have first : k = i := by omega
      subst first
      exact ⟨goes, e, next, here, behind, alike⟩

/-- Coalescing leaves out the events at the places that go, and no others. So in what is left no
progress stands right behind progress of its dispatch; and for all progress that is left out, later
progress of the same dispatch is kept, with nothing between the two but progress of this dispatch
that is left out, too. -/
theorem coalesce_by_places (events : List Event) :
    coalesce events = (placesKept events).filterMap (events[·]?) ∧
    ((coalesce events).IsChain fun a b => ¬ ProgressAlike a b) ∧
    ∀ i, goesAt events i = true → ∃ j, i < j ∧ j ∈ placesKept events ∧
      ∀ k, i ≤ k → k < j → goesAt events k = true ∧
        ∃ e last, events[k]? = some e ∧ events[j]? = some last ∧ ProgressAlike e last := by
  rw [coalesce_eq_survivors]
  refine ⟨survivors_eq events, isChain_survivors events, fun i goes => ?_⟩
  obtain ⟨j, after, short, stays, between⟩ := exists_kept_of_goesAt goes
  refine ⟨j, after, ?_, between⟩
  simp [placesKept, short, stays]

end SerialDispatch.Event
