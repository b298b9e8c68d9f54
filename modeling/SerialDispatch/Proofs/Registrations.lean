import Mathlib.Data.List.Induction
import SerialDispatch.Proofs.Exchanges
import SerialDispatch.Registry

/-!
# What a registry answers

A registry makes for a kind what was last registered for it, by name or with all the others, since
the registry was new; nothing else that is done with it makes a difference. Which registration that
is follows from the steps alone: `RegistryStep.Latest`; main statement: `Registry.answering_after`.
-/
namespace SerialDispatch

/-- An element sets something, and none behind it ends that. -/
def Lasting {α : Type} (sets ends : α → Prop) (l : List α) : Prop :=
  ∃ before a after, l = before ++ a :: after ∧ sets a ∧ ∀ later ∈ after, ¬ ends later

namespace Lasting

variable {α : Type} {sets ends : α → Prop} {l : List α} {a : α}

theorem not_nil : ¬ Lasting sets ends [] := by
  rintro ⟨before, a, after, whole, -⟩
  simp at whole

/-- What lasts was set by the last element, or before it and the last element does not end it. -/
theorem snoc : Lasting sets ends (l ++ [a]) ↔ sets a ∨ ¬ ends a ∧ Lasting sets ends l := by
  constructor
  · rintro ⟨before, b, after, whole, hsets, hends⟩
    rcases List.eq_nil_or_concat after with rfl | ⟨after, c, rfl⟩
    · obtain ⟨-, same⟩ := List.append_inj' whole rfl
      rw [List.singleton_inj.1 same]
      exact .inl hsets
    · rw [List.concat_eq_append, ← List.cons_append, ← List.append_assoc] at whole
      obtain ⟨rfl, same⟩ := List.append_inj' whole rfl
      rw [List.concat_eq_append] at hends
      rw [List.singleton_inj.1 same]
      exact .inr ⟨hends c (by simp), before, b, after, rfl, hsets,
        fun later there => hends later (List.mem_append_left _ there)⟩
  · rintro (now | ⟨goesOn, before, b, after, rfl, hsets, hends⟩)
    · exact ⟨l, a, [], rfl, now, nofun⟩
    · refine ⟨before, b, after ++ [a], by simp, hsets, fun later there => ?_⟩
      rcases List.mem_append.1 there with there | last
      · exact hends later there
      · rw [List.mem_singleton.1 last]
        exact goesOn

end Lasting

namespace RegistryStep

variable {φ ε : Type}

/-- The step registers this factory for the kind, alone or with all the others. -/
def Provides (step : RegistryStep φ ε) (k : Kind) (factory : φ) : Prop :=
  step = .register k factory ∨ step = .ofAll factory

/-- Something was registered for the kind since the registry was new. -/
def Registered (steps : List (RegistryStep φ ε)) (k : Kind) : Prop :=
  Lasting (fun step => ∃ factory, step.Provides k factory) (· = .new) steps

/-- This was registered for the kind since the registry was new, and nothing else after it. -/
def Latest (steps : List (RegistryStep φ ε)) (k : Kind) (factory : φ) : Prop :=
  Lasting (·.Provides k factory) (fun step => step = .new ∨ ∃ other, step.Provides k other) steps

variable {steps : List (RegistryStep φ ε)} {step : RegistryStep φ ε} {k : Kind} {factory : φ}

theorem registered_snoc : Registered (steps ++ [step]) k ↔
    (∃ factory, step.Provides k factory) ∨ step ≠ .new ∧ Registered steps k := Lasting.snoc

theorem latest_snoc : Latest (steps ++ [step]) k factory ↔ step.Provides k factory ∨
    ¬ (step = .new ∨ ∃ other, step.Provides k other) ∧ Latest steps k factory := Lasting.snoc

/-- Of the registrations since the registry was new one is the last. -/
theorem registered_iff (steps : List (RegistryStep φ ε)) (k : Kind) :
    Registered steps k ↔ ∃ factory, Latest steps k factory := by
  induction steps using List.reverseRecOn with
  | nil => simp [Registered, Latest, Lasting.not_nil]
  | append_singleton steps step ih =>
    simp only [registered_snoc, latest_snoc, exists_or, exists_and_left, ← ih]
    by_cases provides : ∃ factory, step.Provides k factory
    · simp [provides]
    · simp [provides]

end RegistryStep

namespace Registry

open RegistryStep

variable {φ ε : Type} (run : φ → ε → Request → Result)

section Steps

variable (r : Registry φ) {k : Kind} {factory : φ} {around : ε} {request : Request}

theorem resolve_eq_ok_iff : r.resolve k = .ok factory ↔ r.slot k = some factory := by
  unfold resolve
  cases r.slot k <;> simp

theorem step_resolve_of_slot (slot : r.slot request.kind = some factory) :
    r.step run (.resolve request around) = (r, .ran (run factory around request)) := by
  rw [step, resolve, slot]

theorem step_resolve_of_empty (slot : r.slot request.kind = none) :
    r.step run (.resolve request around) = (r, .unrecognized ⟨request.kind⟩) := by
  rw [step, resolve, slot]

/-- A slot holds what the last step puts there, or what it held if the step leaves it alone. -/
theorem slot_step (step : RegistryStep φ ε) : (r.step run step).1.slot k = some factory ↔
    step.Provides k factory ∨ ¬ (step = .new ∨ ∃ other, step.Provides k other) ∧
      r.slot k = some factory := by
  cases step with
  | new => simp [Registry.step, Provides]
  | ofAll other => simp [Registry.step, Provides]
  | register j other =>
    rw [Registry.step, slot_register]
    by_cases same : j = k
    · simp [Provides, same]
    · simp [Provides, same]
  | supports j => simp [Registry.step, Provides]
  | resolve request around =>
    cases slot : r.slot request.kind with
    | none => simp [step_resolve_of_empty run r slot, Provides]
    | some other => simp [step_resolve_of_slot run r slot, Provides]

theorem slot_after (steps : List (RegistryStep φ ε)) :
    (stateAfter (step run) empty steps).slot k = some factory ↔ Latest steps k factory := by
  induction steps using List.reverseRecOn with
  | nil => simp [stateAfter, Latest, Lasting.not_nil]
  | append_singleton steps step ih =>
    rw [stateAfter_append, latest_snoc, ← ih]
    exact slot_step run _ step

/-- What is registered for one kind is not resolved for another. -/
theorem resolve_register_of_ne {j : Kind} (other : j ≠ k) :
    (r.register j factory).resolve k = r.resolve k := by
  rw [resolve, slot_register, if_neg other, resolve]

end Steps

/-- What a registry answers after some steps, which have begun with a new one. -/
structure Answering (steps : List (RegistryStep φ ε)) (r : Registry φ) : Prop where
  /-- What was registered last makes the operation, and the environment is handed on to it. -/
  resolves : ∀ request factory, Latest steps request.kind factory →
    r.resolve request.kind = .ok factory ∧
    ∀ around, r.step run (.resolve request around) = (r, .ran (run factory around request))
  latest : ∀ k, Registered steps k ↔ ∃ factory, Latest steps k factory
  /-- A kind for which nothing was registered is refused by name. -/
  refuses : ∀ request around, ¬ Registered steps request.kind →
    ∃ refusal, r.step run (.resolve request around) = (r, .unrecognized refusal) ∧
      refusal.message = "unrecognized operation request: " ++ request.kind.name
  supports : ∀ k, ∃ answer, r.step run (.supports k) = (r, .supported answer) ∧
    (answer = true ↔ Registered steps k)
  /-- The kinds that are shown are those for which something was registered, in their order. -/
  shown : ∃ kinds, r.describe = "OperationRegistry \x7b registered: [" ++
      ", ".intercalate (kinds.map Kind.tag) ++ "] \x7d" ∧
    List.Sublist kinds Kind.all ∧ kinds.Nodup ∧ ∀ k, k ∈ kinds ↔ Registered steps k
  apart : ∀ j k factory, j ≠ k →
    (r.step run (.register j factory)).1.resolve k = r.resolve k

/-- After any steps a registry answers by what was last registered for each kind. -/
theorem answering_after (steps : List (RegistryStep φ ε)) :
    Answering run steps (stateAfter (step run) empty steps) := by
  have supported : ∀ k, (stateAfter (step run) empty steps).supports k = true ↔ Registered steps k := by
    intro k
    rw [Registry.supports, Option.isSome_iff_exists, registered_iff]
    exact exists_congr fun factory => slot_after run steps
  refine ⟨fun request factory latest => ?_, registered_iff steps, fun request around missing => ?_,
    fun k => ⟨_, rfl, supported k⟩, ⟨_, rfl, List.filter_sublist, ?_, fun k => ?_⟩,
    fun j k factory other => resolve_register_of_ne _ other⟩
  · have slot := (slot_after run steps).2 latest
    exact ⟨(resolve_eq_ok_iff _).2 slot, fun around => step_resolve_of_slot run _ slot⟩
  · have slot : (stateAfter (step run) empty steps).slot request.kind = none := by
      rw [← supported, Registry.supports, Bool.not_eq_true, Option.isSome_eq_false_iff] at missing
      exact Option.isNone_iff_eq_none.1 missing
    exact ⟨_, step_resolve_of_empty run _ slot, rfl⟩
  · exact List.Pairwise.filter _ (by decide)
  · rw [Registry.supported, List.mem_filter, supported]
    exact and_iff_right (Kind.mem_all k)

end Registry
end SerialDispatch
