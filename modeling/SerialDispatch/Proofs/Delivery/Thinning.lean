import Mathlib.Data.List.Induction
import SerialDispatch.Signal

/-!
# Lists with superseded elements left out

A list is `Thinned` when elements are left out of it that the element right behind each of them
supersedes. Thinning is local, so it goes along with appending and with every view that keeps
neighbours together. Coalescing thins out a list of events, and it does not see whether events have
been thinned out before; main statements: `Event.thinned_coalesce`, `Event.coalesce_congr`.
-/
namespace SerialDispatch

/-- The second list is the first one with some elements left out, each of them superseded by the
element right behind it. -/
inductive Thinned {α : Type} (Superseded : α → α → Prop) : List α → List α → Prop
  | nil : Thinned Superseded [] []
  | keep (a : α) {xs ys : List α} (rest : Thinned Superseded xs ys) :
      Thinned Superseded (a :: xs) (a :: ys)
  | skip {a b : α} {xs ys : List α} (superseded : Superseded a b)
      (rest : Thinned Superseded (b :: xs) ys) : Thinned Superseded (a :: b :: xs) ys

namespace Thinned

variable {α β : Type} {R : α → α → Prop} {Q : β → β → Prop} {xs ys zs ws : List α}

theorem refl : (xs : List α) → Thinned R xs xs
  | [] => .nil
  | a :: xs => .keep a (refl xs)

theorem append (first : Thinned R xs ys) (second : Thinned R zs ws) :
    Thinned R (xs ++ zs) (ys ++ ws) := by
  induction first with
  | nil => exact second
  | keep a rest ih => exact .keep a ih
  | skip superseded rest ih => exact .skip superseded ih

theorem sublist (h : Thinned R xs ys) : List.Sublist ys xs := by
  induction h with
  | nil => exact .slnil
  | keep a rest ih => exact ih.cons_cons a
  | skip superseded rest ih => exact ih.cons _

theorem eq_nil (h : Thinned R xs []) : xs = [] := by
  generalize hys : ([] : List α) = ys at h
  induction h with
  | nil => rfl
  | keep a rest ih => cases hys
  | skip superseded rest ih => exact absurd (ih hys) (by simp [← hys])

/-- A view that shows neighbours of which one supersedes the other as such, or neither of them,
shows a thinned list as thinned. -/
theorem filterMap {f : α → Option β}
    (hf : ∀ a b, R a b → (f a = none ∧ f b = none) ∨ ∃ c d, f a = some c ∧ f b = some d ∧ Q c d)
    (h : Thinned R xs ys) : Thinned Q (xs.filterMap f) (ys.filterMap f) := by
  induction h with
  | nil => exact .nil
  | keep a rest ih =>
    cases ha : f a with
    | none => rwa [List.filterMap_cons_none ha, List.filterMap_cons_none ha]
    | some c =>
      rw [List.filterMap_cons_some ha, List.filterMap_cons_some ha]
      exact .keep c ih
  | skip superseded rest ih =>
    rcases hf _ _ superseded with ⟨ha, -⟩ | ⟨c, d, ha, hb, hq⟩
    · rwa [List.filterMap_cons_none ha]
    · rw [List.filterMap_cons_some hb] at ih
      rw [List.filterMap_cons_some ha, List.filterMap_cons_some hb]
      exact .skip hq ih

theorem map {f : α → β} (hf : ∀ a b, R a b → Q (f a) (f b)) (h : Thinned R xs ys) :
    Thinned Q (xs.map f) (ys.map f) := by
  have hmap := h.filterMap (f := some ∘ f) fun a b hab => .inr ⟨f a, f b, rfl, rfl, hf a b hab⟩
  rwa [List.filterMap_eq_map] at hmap

/-- Elements that no other supersedes are all still there. -/
theorem filter_eq {p : α → Bool} (hp : ∀ a b, R a b → p a = false) (h : Thinned R xs ys) :
    ys.filter p = xs.filter p := by
  induction h with
  | nil => rfl
  | keep a rest ih => rw [List.filter_cons, List.filter_cons, ih]
  | @skip a b xs ys superseded rest ih =>
    have left : (a :: b :: xs).filter p = (b :: xs).filter p :=
      List.filter_cons_of_neg (by rw [hp a b superseded]; exact Bool.false_ne_true)
    rw [ih, left]

/-- So is an element that the one right behind it does not supersede. -/
theorem kept {a b : α} (h : Thinned R (xs ++ a :: b :: zs) ys) (other : ¬ R a b) :
    ∃ ws later, ys = ws ++ a :: later ∧ List.Sublist ws xs ∧ Thinned R (b :: zs) later := by
  generalize hall : xs ++ a :: b :: zs = all at h
  induction h generalizing xs with
  | nil => simp at hall
  | keep c rest ih =>
    cases xs with
    | nil =>
      obtain ⟨rfl, rfl⟩ := List.cons.inj hall
      exact ⟨[], _, rfl, .slnil, rest⟩
    | cons d xs =>
      obtain ⟨rfl, hrest⟩ := List.cons.inj hall
      obtain ⟨ws, later, rfl, sub, thinned⟩ := ih hrest
      exact ⟨d :: ws, later, rfl, sub.cons_cons d, thinned⟩
  | skip superseded rest ih =>
    cases xs with
    | nil =>
      obtain ⟨rfl, hrest⟩ := List.cons.inj hall
      obtain ⟨rfl, -⟩ := List.cons.inj hrest
      exact absurd superseded other
    | cons d xs =>
      obtain ⟨rfl, hrest⟩ := List.cons.inj hall
      obtain ⟨ws, later, rfl, sub, thinned⟩ := ih hrest
      exact ⟨ws, later, rfl, sub.cons d, thinned⟩

/-- The last element may be superseded, too. -/
theorem replace_last {a b : α} (superseded : R a b) (h : Thinned R xs (ys ++ [a])) :
    Thinned R (xs ++ [b]) (ys ++ [b]) := by
  generalize hzs : ys ++ [a] = zs at h
  induction h generalizing ys with
  | nil => simp at hzs
  | keep c rest ih =>
    cases ys with
    | nil =>
      obtain ⟨rfl, rfl⟩ := List.cons.inj hzs
      rw [rest.eq_nil]
      exact .skip superseded (.keep b .nil)
    | cons d ys =>
      obtain ⟨rfl, rfl⟩ := List.cons.inj hzs
      exact .keep d (ih rfl)
  | skip other rest ih => exact .skip other (ih hzs)

end Thinned

namespace Event

/-- The first event is superseded by the second. -/
def Superseded (earlier later : Event) : Prop := earlier.supersededBy later = true

variable {a b : Event} {xs ys : List Event}

theorem superseded_iff : Superseded a b ↔
    a.signal.trigger = .progress ∧ b.signal.trigger = .progress ∧ a.id = b.id := by
  simp [Superseded, supersededBy, and_assoc]

/-- What supersedes an event supersedes all that the event supersedes, and no more. -/
theorem supersededBy_congr (h : Superseded a b) (e : Event) :
    e.supersededBy a = e.supersededBy b := by
  obtain ⟨ha, hb, hid⟩ := superseded_iff.1 h
  simp [supersededBy, ha, hb, hid]

theorem pushOnto_superseded (h : Superseded a b) (kept : List Event) :
    pushOnto (pushOnto kept a) b = pushOnto kept b := by
  have hab : a.supersededBy b = true := h
  cases kept with
  | nil => simp [pushOnto, hab]
  | cons top rest =>
    have htop := supersededBy_congr h top
    cases ht : top.supersededBy a with
    | true => simp [pushOnto, ← htop, ht, hab]
    | false => simp [pushOnto, ← htop, ht, hab]

theorem foldl_pushOnto_congr (h : Thinned Superseded xs ys) (kept : List Event) :
    xs.foldl pushOnto kept = ys.foldl pushOnto kept := by
  induction h generalizing kept with
  | nil => rfl
  | keep a rest ih => exact ih _
  | @skip a b xs ys superseded rest ih =>
    rw [← ih kept, List.foldl_cons, List.foldl_cons, List.foldl_cons,
      pushOnto_superseded superseded]

/-- Events that have been thinned out coalesce to the same. -/
theorem coalesce_congr (h : Thinned Superseded xs ys) : coalesce xs = coalesce ys := by
  rw [coalesce, coalesce, foldl_pushOnto_congr h]

/-- Coalescing leaves out superseded events only. -/
theorem thinned_coalesce (xs : List Event) : Thinned Superseded xs (coalesce xs) := by
  induction xs using List.reverseRecOn with
  | nil => exact .nil
  | append_singleton xs e ih =>
    unfold coalesce at *
    rw [List.foldl_append]
    simp only [List.foldl_cons, List.foldl_nil]
    cases hkept : xs.foldl pushOnto [] with
    | nil =>
      rw [hkept] at ih
      exact ih.append (.refl [e])
    | cons top rest =>
      rw [hkept, List.reverse_cons] at ih
      by_cases ht : top.supersededBy e = true
      · rw [show pushOnto (top :: rest) e = e :: rest from if_pos ht, List.reverse_cons]
        exact ih.replace_last ht
      · rw [show pushOnto (top :: rest) e = e :: top :: rest from if_neg ht, List.reverse_cons,
          List.reverse_cons]
        exact ih.append (.refl [e])

theorem foldl_pushOnto_reverse (top : Event) (rest events : List Event) :
    (events.foldl pushOnto (top :: rest)).reverse = rest.reverse ++ survivors (top :: events) := by
  induction events generalizing top rest with
  | nil => simp [survivors]
  | cons e events ih =>
    rw [List.foldl_cons, pushOnto, survivors]
    by_cases superseded : top.supersededBy e = true
    · rw [if_pos superseded, if_pos superseded]
      exact ih e rest
    · rw [if_neg superseded, if_neg superseded, ih e (top :: rest)]
      simp

/-- Keeping a stack comes to the same as looking ahead. -/
theorem coalesce_eq_survivors (events : List Event) : coalesce events = survivors events := by
  cases events with
  | nil => rfl
  | cons e rest => exact foldl_pushOnto_reverse e [] rest

end Event
end SerialDispatch
