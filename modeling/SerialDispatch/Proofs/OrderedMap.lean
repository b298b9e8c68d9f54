import Mathlib.Data.List.Nodup
import SerialDispatch.OrderedMap

/-!
# Ordered maps that are filled entry by entry

An entry whose key is new is put among the others, and none of them is lost. So a map that is filled
with entries of different keys holds just these entries; main statement: `OrderedMap.perm_ofList`.
What is found under a key after an entry is put in or taken out: `get?_insert`, `get?_erase`.
-/
namespace SerialDispatch.OrderedMap

section Place

variable {κ ν : Type} [LT κ] [DecidableEq κ] [DecidableLT κ] {k : κ} {entries : List (κ × ν)}

theorem perm_place (v : ν) (fresh : k ∉ entries.map Prod.fst) :
    (place k v entries).Perm ((k, v) :: entries) := by
  induction entries with
  | nil => exact .refl _
  | cons e rest ih =>
    obtain ⟨differ, others⟩ := not_or.1 (List.mem_cons.not.1 fresh)
    unfold place
    by_cases before : k < e.1
    · rw [if_pos before]
    · rw [if_neg before, if_neg differ]
      exact ((ih others).cons e).trans (.swap (k, v) e rest)

omit [LT κ] [DecidableLT κ] in
theorem lookup_cons (j : κ) (e : κ × ν) (rest : List (κ × ν)) :
    lookup j (e :: rest) = if e.1 = j then some e.2 else lookup j rest := by
  by_cases same : e.1 = j
  · simp [lookup, same]
  · simp [lookup, same]

theorem lookup_place (v : ν) (entries : List (κ × ν)) (j : κ) :
    lookup j (place k v entries) = if k = j then some v else lookup j entries := by
  induction entries with
  | nil => exact lookup_cons j (k, v) []
  | cons e rest ih =>
    unfold place
    split
    · exact lookup_cons j (k, v) (e :: rest)
    · rename_i notBefore
      split
      · rename_i same
        rw [lookup_cons, lookup_cons]
        by_cases here : k = j
        · rw [if_pos here, if_pos here]
        · rw [if_neg here, if_neg here, if_neg (same ▸ here)]
      · rename_i differ
        rw [lookup_cons, ih, lookup_cons]
        by_cases here : e.1 = j
        · rw [if_pos here, if_pos here, if_neg fun same => differ (same.trans here.symm)]
        · rw [if_neg here, if_neg here]

omit [LT κ] [DecidableLT κ] in
theorem lookup_filter (k : κ) (entries : List (κ × ν)) (j : κ) :
    lookup j (entries.filter fun e => e.1 != k) = if k = j then none else lookup j entries := by
  induction entries with
  | nil => exact (ite_self _).symm
  | cons e rest ih =>
    rw [List.filter_cons]
    by_cases gone : e.1 = k
    · rw [if_neg (by simp [gone]), ih, lookup_cons]
      by_cases here : k = j
      · rw [if_pos here, if_pos here]
      · rw [if_neg here, if_neg here, if_neg (gone ▸ here)]
    · rw [if_pos (by simp [gone]), lookup_cons, ih, lookup_cons]
      by_cases here : e.1 = j
      · rw [if_pos here, if_pos here, if_neg fun same => gone (here.trans same.symm)]
      · rw [if_neg here, if_neg here]

omit [DecidableLT κ] in
theorem get?_erase (m : OrderedMap κ ν) (k j : κ) :
    (m.erase k).get? j = if k = j then none else m.get? j := lookup_filter k m.entries j

omit [LT κ] [DecidableLT κ] in
/-- Of entries with different keys, the one under a key is found. -/
theorem lookup_eq_some_iff (distinct : (entries.map Prod.fst).Nodup) (e : κ × ν) :
    lookup e.1 entries = some e.2 ↔ e ∈ entries := by
  induction entries with
  | nil => exact iff_of_false nofun List.not_mem_nil
  | cons d rest ih =>
    obtain ⟨fresh, distinct⟩ := List.nodup_cons.1 distinct
    rw [lookup_cons, List.mem_cons]
    by_cases same : d.1 = e.1
    · have gone : e ∉ rest := fun there => fresh (same ▸ List.mem_map_of_mem there)
      rw [if_pos same, Option.some.injEq, or_iff_left gone]
      exact ⟨fun found => Prod.ext same.symm found.symm, fun found => found ▸ rfl⟩
    · rw [if_neg same, ih distinct, or_iff_right fun found : e = d => same (found ▸ rfl)]

omit [DecidableLT κ] in
/-- The keys are those under which something is found. -/
theorem mem_keys_iff (m : OrderedMap κ ν) : k ∈ m.keys ↔ (m.get? k).isSome = true := by
  simp [keys, get?, lookup, List.find?_isSome]

omit [DecidableEq κ] [DecidableLT κ] in
theorem pairwise_keys (m : OrderedMap κ ν) : m.keys.Pairwise (· < ·) :=
  List.pairwise_map.2 m.ascending

end Place

variable {κ ν : Type} [LE κ] [LT κ] [Std.LawfulOrderLT κ] [Std.IsLinearOrder κ]
variable [DecidableEq κ] [DecidableLT κ] {entries : List (κ × ν)}

theorem perm_foldl_insert (m : OrderedMap κ ν)
    (distinct : (m.entries ++ entries).Pairwise fun a b => a.1 ≠ b.1) :
    (entries.foldl (fun m e => m.insert e.1 e.2) m).entries.Perm (m.entries ++ entries) := by
  induction entries generalizing m with
  | nil => rw [List.append_nil, List.foldl_nil]
  | cons e rest ih =>
    have fresh : e.1 ∉ m.entries.map Prod.fst := by
      rw [List.mem_map]
      rintro ⟨d, there, same⟩
      exact (List.pairwise_append.1 distinct).2.2 d there e List.mem_cons_self same
    have placed : (m.insert e.1 e.2).entries.Perm (e :: m.entries) := perm_place e.2 fresh
    have moved : (e :: m.entries ++ rest).Perm (m.entries ++ e :: rest) := List.perm_middle.symm
    have whole := (placed.append_right rest).trans moved
    refine (ih (m.insert e.1 e.2) ?_).trans whole
    exact distinct.perm whole.symm fun differ same => differ same.symm

/-- A map filled with entries of different keys holds all of them. -/
theorem perm_ofList (distinct : (entries.map Prod.fst).Nodup) :
    (ofList entries).entries.Perm entries :=
  perm_foldl_insert empty (List.pairwise_map.1 distinct)

theorem get?_insert (m : OrderedMap κ ν) (k : κ) (v : ν) (j : κ) :
    (m.insert k v).get? j = if k = j then some v else m.get? j := lookup_place v m.entries j

end SerialDispatch.OrderedMap
