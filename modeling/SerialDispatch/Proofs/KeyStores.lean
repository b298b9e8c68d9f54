import Mathlib.Data.List.Sort
import SerialDispatch.KeyStore
import SerialDispatch.Proofs.OrderedMap
import SerialDispatch.Proofs.Registrations

/-!
# What a key store remembers

What a store has under an id was saved last for it and not deleted since; nothing else that is done
with the store makes a difference: `StoreStep.Latest`. A store over a hash table, which is walked in
an order of its own, answers the same, for it sorts the ids that it lists. Main statement:
`KeyStore.remembers_after`.
-/
namespace SerialDispatch

namespace StoreStep

/-- Something was saved for the id, and not deleted since. -/
def Kept (steps : List StoreStep) (id : UInt64) : Prop :=
  Lasting (fun step => ∃ keyring, step = .save id keyring) (· = .delete id) steps

/-- This was saved for the id, and nothing else saved for it, nor was it deleted, since. -/
def Latest (steps : List StoreStep) (id : UInt64) (keyring : Keyring) : Prop :=
  Lasting (· = .save id keyring)
    (fun step => step = .delete id ∨ ∃ other, step = .save id other) steps

/-- The step saves or deletes under this id. -/
def Touches (step : StoreStep) (id : UInt64) : Prop :=
  step = .delete id ∨ ∃ keyring, step = .save id keyring

variable {steps : List StoreStep} {step : StoreStep} {id : UInt64} {keyring : Keyring}

theorem kept_snoc : Kept (steps ++ [step]) id ↔
    (∃ keyring, step = .save id keyring) ∨ step ≠ .delete id ∧ Kept steps id := Lasting.snoc

theorem latest_snoc : Latest (steps ++ [step]) id keyring ↔
    step = .save id keyring ∨ ¬ step.Touches id ∧ Latest steps id keyring := Lasting.snoc

/-- Of what was saved for an id since it was deleted something is the last. -/
theorem kept_iff (steps : List StoreStep) (id : UInt64) :
    Kept steps id ↔ ∃ keyring, Latest steps id keyring := by
  induction steps using List.reverseRecOn with
  | nil => simp [Kept, Latest, Lasting.not_nil]
  | append_singleton steps step ih =>
    simp only [kept_snoc, latest_snoc, exists_or, exists_and_left, ← ih]
    by_cases saves : ∃ keyring, step = .save id keyring
    · simp [saves]
    · simp [saves, Touches]

end StoreStep

namespace KeyStore

section Steps

variable (s : KeyStore) {steps : List StoreStep} {step : StoreStep} {id : UInt64}
variable {keyring : Keyring}

/-- Under an id is what the step saves there, or what was there if the step leaves it alone. -/
theorem load_step : (s.step step).1.load id = some keyring ↔
    step = .save id keyring ∨ ¬ step.Touches id ∧ s.load id = some keyring := by
  cases step with
  | save j other =>
    rw [KeyStore.step, save, load, OrderedMap.get?_insert]
    by_cases same : j = id
    · subst same
      simp [StoreStep.Touches]
    · simp [StoreStep.Touches, same, load]
  | delete j =>
    rw [KeyStore.step, delete, load, OrderedMap.get?_erase]
    by_cases same : j = id
    · simp [StoreStep.Touches, same]
    · simp [StoreStep.Touches, same, load]
  | load j => simp [KeyStore.step, StoreStep.Touches]
  | ids => simp [KeyStore.step, StoreStep.Touches]

theorem load_step_of_not_touches (apart : ¬ step.Touches id) :
    (s.step step).1.load id = s.load id := by
  refine Option.ext fun keyring => (s.load_step).trans ⟨?_, fun there => .inr ⟨apart, there⟩⟩
  rintro (rfl | ⟨-, there⟩)
  · exact absurd (.inr ⟨keyring, rfl⟩) apart
  · exact there

theorem load_after : (stateAfter KeyStore.step empty steps).load id = some keyring ↔
    StoreStep.Latest steps id keyring := by
  induction steps using List.reverseRecOn generalizing keyring with
  | nil => simp [stateAfter, StoreStep.Latest, Lasting.not_nil, empty, load, OrderedMap.empty,
      OrderedMap.get?, OrderedMap.lookup]
  | append_singleton steps step ih =>
    rw [stateAfter_append, StoreStep.latest_snoc, ← ih]
    exact load_step _

end Steps

/-- What a store answers after some steps, which have begun with an empty one. -/
structure Remembers (steps : List StoreStep) (s : KeyStore) : Prop where
  /-- What was saved last is loaded. -/
  loads : ∀ id, ∃ found, s.step (.load id) = (s, .loaded found) ∧
    (∀ keyring, found = some keyring ↔ StoreStep.Latest steps id keyring) ∧
    (found = none ↔ ¬ StoreStep.Kept steps id)
  latest : ∀ id, StoreStep.Kept steps id ↔ ∃ keyring, StoreStep.Latest steps id keyring
  /-- A deletion finds what was saved, if there is anything. -/
  deletes : ∀ id, ∃ found, (s.step (.delete id)).2 = .deleted found ∧
    (found = true ↔ StoreStep.Kept steps id)
  /-- The ids for which something is kept are listed in ascending order. -/
  lists : ∃ ids, s.step .ids = (s, .ids ids) ∧ ids.Pairwise (· < ·) ∧
    (∀ id, id ∈ ids ↔ StoreStep.Kept steps id) ∧
    s.size = ids.length ∧ (s.isEmpty = true ↔ ids = [])
  apart : ∀ step id, ¬ step.Touches id → (s.step step).1.load id = s.load id

theorem remembers (steps : List StoreStep) :
    Remembers steps (stateAfter step empty steps) := by
  have kept : ∀ id, (stateAfter step empty steps).contains id = true ↔ StoreStep.Kept steps id := by
    intro id
    rw [contains, Option.isSome_iff_exists, StoreStep.kept_iff]
    exact exists_congr fun keyring => load_after
  refine ⟨fun id => ⟨_, rfl, fun keyring => load_after, ?_⟩, StoreStep.kept_iff steps,
    fun id => ⟨_, rfl, kept id⟩, ⟨_, rfl, OrderedMap.pairwise_keys _, fun id => ?_, ?_, ?_⟩,
    fun step id => load_step_of_not_touches _⟩
  · rw [← kept, contains, Bool.not_eq_true, Option.isSome_eq_false_iff, Option.isNone_iff_eq_none]
  · rw [← kept]
    exact OrderedMap.mem_keys_iff _
  · exact (List.length_map _).symm
  · rw [isEmpty, List.isEmpty_iff, ids, OrderedMap.keys, List.map_eq_nil_iff]

end KeyStore

/-- A hash table: a map, of which it is not known in which order it is walked. -/
structure HashTable (κ ν : Type) [DecidableEq κ] where
  State : Type
  empty : State
  insert : State → κ → ν → State
  /-- What was removed comes with the table. -/
  remove : State → κ → State × Option ν
  get : State → κ → Option ν
  /-- The entries as they come. -/
  walk : State → List (κ × ν)
  size : State → Nat
  isEmpty : State → Bool
  get_empty : ∀ k, get empty k = none
  get_insert : ∀ t k v j, get (insert t k v) j = if k = j then some v else get t j
  get_remove : ∀ t k j, get (remove t k).1 j = if k = j then none else get t j
  remove_snd : ∀ t k, (remove t k).2 = get t k
  mem_walk : ∀ t e, e ∈ walk t ↔ get t e.1 = some e.2
  /-- Every entry comes once. -/
  nodup_walk : ∀ t, (walk t).Nodup
  size_eq : ∀ t, size t = (walk t).length
  isEmpty_eq : ∀ t, isEmpty t = decide (size t = 0)

namespace HashTable

section Store

variable (T : HashTable UInt64 Keyring)

/-- The ids as they come, sorted. -/
def ids (t : T.State) : List UInt64 := ((T.walk t).map Prod.fst).mergeSort fun a b => decide (a ≤ b)

/-- A store over the table, after a step, and its answer. -/
def step (t : T.State) : StoreStep → T.State × StoreReply
  | .save id keyring => (T.insert t id keyring, .saved)
  | .load id => (t, .loaded (T.get t id))
  | .delete id => ((T.remove t id).1, .deleted (T.remove t id).2.isSome)
  | .ids => (t, .ids (T.ids t))

/-- The table holds what the store does. -/
def Holds (t : T.State) (s : KeyStore) : Prop := ∀ id, T.get t id = s.load id

variable {T} {t : T.State} {s : KeyStore}

theorem nodup_keys (t : T.State) : ((T.walk t).map Prod.fst).Nodup := by
  refine List.Nodup.map_on (fun d there e there' same => ?_) (T.nodup_walk t)
  rw [T.mem_walk] at there there'
  rw [same, there'] at there
  exact Prod.ext same (Option.some.inj there).symm

/-- The ids come each once, in whatever order. -/
theorem Holds.perm (holds : T.Holds t s) : ((T.walk t).map Prod.fst).Perm s.ids := by
  refine (List.perm_ext_iff_of_nodup (nodup_keys t) ?_).2 fun id => ?_
  · exact (OrderedMap.pairwise_keys s.keyrings).imp Std.ne_of_lt
  · have listed : id ∈ s.ids ↔ (s.load id).isSome = true := OrderedMap.mem_keys_iff _
    rw [listed, ← holds, Option.isSome_iff_exists, List.mem_map]
    constructor
    · rintro ⟨e, there, rfl⟩
      exact ⟨e.2, (T.mem_walk t e).1 there⟩
    · rintro ⟨keyring, found⟩
      exact ⟨(id, keyring), (T.mem_walk t (id, keyring)).2 found, rfl⟩

theorem Holds.ids (holds : T.Holds t s) : T.ids t = s.ids := by
  have ascending : s.ids.Pairwise (· ≤ ·) :=
    (OrderedMap.pairwise_keys s.keyrings).imp Std.le_of_lt
  exact ((List.mergeSort_perm _ _).trans holds.perm).eq_of_pairwise'
    (List.pairwise_mergeSort' _ _) ascending

theorem Holds.size (holds : T.Holds t s) : T.size t = s.size := by
  rw [T.size_eq, ← List.length_map, holds.perm.length_eq]
  exact List.length_map _

theorem Holds.isEmpty (holds : T.Holds t s) : T.isEmpty t = s.isEmpty := by
  rw [T.isEmpty_eq, holds.size, KeyStore.isEmpty, KeyStore.size, OrderedMap.size]
  cases s.keyrings.entries <;> rfl

/-- A step has the same answer, and the same effect. -/
theorem Holds.step (holds : T.Holds t s) (a : StoreStep) :
    T.Holds (T.step t a).1 (s.step a).1 ∧ (T.step t a).2 = (s.step a).2 := by
  cases a with
  | save id keyring =>
    refine ⟨fun j => ?_, rfl⟩
    rw [HashTable.step, KeyStore.step, T.get_insert, KeyStore.load, KeyStore.save,
      OrderedMap.get?_insert, holds]
    rfl
  | load id => exact ⟨holds, congrArg StoreReply.loaded (holds id)⟩
  | delete id =>
    refine ⟨fun j => ?_, ?_⟩
    · rw [HashTable.step, KeyStore.step, T.get_remove, KeyStore.load, KeyStore.delete,
        OrderedMap.get?_erase, holds]
      rfl
    · rw [HashTable.step, T.remove_snd, holds]
      rfl
  | ids => exact ⟨holds, congrArg StoreReply.ids holds.ids⟩

theorem Holds.run (holds : T.Holds t s) (steps : List StoreStep) :
    T.Holds (stateAfter T.step t steps) (stateAfter KeyStore.step s steps) ∧
      exchanges T.step t steps = exchanges KeyStore.step s steps := by
  induction steps generalizing t s with
  | nil => exact ⟨holds, rfl⟩
  | cons a steps ih =>
    obtain ⟨after, same⟩ := holds.step a
    obtain ⟨last, rest⟩ := ih after
    exact ⟨last, by rw [exchanges, exchanges, same, rest]⟩

theorem holds_empty : T.Holds T.empty KeyStore.empty := fun id => T.get_empty id

end Store

section Recent

variable {κ ν : Type} [DecidableEq κ]

/-- Entries with different keys. -/
abbrev Entries (κ ν : Type) : Type := { entries : List (κ × ν) // (entries.map Prod.fst).Nodup }

namespace Entries

def remove (t : Entries κ ν) (k : κ) : Entries κ ν :=
  ⟨t.1.filter fun e => e.1 != k, t.2.sublist (List.filter_sublist.map _)⟩

theorem notMem_remove (t : Entries κ ν) (k : κ) : k ∉ (t.remove k).1.map Prod.fst := by
  rw [List.mem_map]
  rintro ⟨e, there, rfl⟩
  exact bne_iff_ne.1 (List.mem_filter.1 there).2 rfl

/-- A new entry comes first. -/
def insert (t : Entries κ ν) (k : κ) (v : ν) : Entries κ ν :=
  ⟨(k, v) :: (t.remove k).1, List.nodup_cons.2 ⟨t.notMem_remove k, (t.remove k).2⟩⟩

end Entries

/-- The table that is walked from the last entry to the first. -/
def recent (κ ν : Type) [DecidableEq κ] : HashTable κ ν where
  State := Entries κ ν
  empty := ⟨[], .nil⟩
  insert := Entries.insert
  remove t k := (t.remove k, OrderedMap.lookup k t.1)
  get t k := OrderedMap.lookup k t.1
  walk t := t.1
  size t := t.1.length
  isEmpty t := t.1.isEmpty
  get_empty _ := rfl
  get_insert t k v j := by
    rw [Entries.insert, OrderedMap.lookup_cons, Entries.remove, OrderedMap.lookup_filter]
    by_cases here : k = j
    · rw [if_pos here, if_pos here]
    · rw [if_neg here, if_neg here, if_neg here]
  get_remove t k j := OrderedMap.lookup_filter k t.1 j
  remove_snd _ _ := rfl
  mem_walk t e := (OrderedMap.lookup_eq_some_iff t.2 e).symm
  nodup_walk t := t.2.of_map
  size_eq _ := rfl
  isEmpty_eq t := by cases t.1 <;> rfl

end Recent

end HashTable

/-- After any steps a store answers by what was saved last for each id, and so does a store over any
hash table. -/
theorem KeyStore.remembers_after (T : HashTable UInt64 Keyring) (steps : List StoreStep) :
    Remembers steps (stateAfter step empty steps) ∧
    exchanges T.step T.empty steps = exchanges step empty steps ∧
    T.size (stateAfter T.step T.empty steps) = (stateAfter step empty steps).size ∧
    T.isEmpty (stateAfter T.step T.empty steps) = (stateAfter step empty steps).isEmpty := by
  obtain ⟨holds, same⟩ := HashTable.holds_empty.run (T := T) steps
  exact ⟨remembers steps, same, holds.size, holds.isEmpty⟩

/-- Saved one after the other, and then listed. -/
def StoreStep.threeSaves : List StoreStep :=
  [.save 42 ⟨[0]⟩, .save 7 ⟨[0]⟩, .save 19 ⟨[0]⟩, .ids]

/-- Ids that come from a table in another order are listed in ascending order. -/
theorem KeyStore.remembers_after_of_recent :
    ((HashTable.recent UInt64 Keyring).walk (stateAfter (HashTable.recent UInt64 Keyring).step
      (HashTable.recent UInt64 Keyring).empty StoreStep.threeSaves)).map Prod.fst = [19, 7, 42] ∧
    (exchanges (HashTable.recent UInt64 Keyring).step (HashTable.recent UInt64 Keyring).empty
      StoreStep.threeSaves).map Prod.snd = [.saved, .saved, .saved, .ids [7, 19, 42]] := by
  refine ⟨by decide, ?_⟩
  rw [(KeyStore.remembers_after (HashTable.recent UInt64 Keyring) StoreStep.threeSaves).2.1]
  decide

end SerialDispatch
