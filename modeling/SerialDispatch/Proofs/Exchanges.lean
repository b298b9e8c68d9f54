import Mathlib.Data.List.Basic

/-!
# Steps and their answers

Of a system that answers every step this is what can be seen from outside: the steps that were
taken, each with its answer, and what the system is like afterwards.
-/
namespace SerialDispatch

variable {σ α β : Type} (step : σ → α → σ × β)

/-- What has become of the system after some steps. -/
def stateAfter (s : σ) (steps : List α) : σ := steps.foldl (fun s a => (step s a).1) s

/-- Some steps with their answers. -/
def exchanges (s : σ) : List α → List (α × β)
  | [] => []
  | a :: rest => (a, (step s a).2) :: exchanges (step s a).1 rest

variable {step} {s : σ} {first second steps : List α} {x : α × β} {i : Nat}

theorem stateAfter_append :
    stateAfter step s (first ++ second) = stateAfter step (stateAfter step s first) second :=
  List.foldl_append

theorem exchanges_append : exchanges step s (first ++ second) =
    exchanges step s first ++ exchanges step (stateAfter step s first) second := by
  induction first generalizing s with
  | nil => rfl
  | cons a rest ih =>
    rw [List.cons_append, exchanges, ih, exchanges, List.cons_append]
    rfl

@[simp] theorem length_exchanges : (exchanges step s steps).length = steps.length := by
  induction steps generalizing s with
  | nil => rfl
  | cons a rest ih => exact congrArg (· + 1) ih

/-- Earlier exchanges do not depend on the steps that follow. -/
theorem getElem?_exchanges_append (early : i < first.length) :
    (exchanges step s (first ++ second))[i]? = (exchanges step s first)[i]? := by
  rw [exchanges_append, List.getElem?_append_left (by rwa [length_exchanges])]

/-- An exchange is a step that was taken in that place with the answer it got there. -/
theorem exchanges_split (here : (exchanges step s steps)[i]? = some x) :
    ∃ before a after, steps = before ++ a :: after ∧ before.length = i ∧
      x = (a, (step (stateAfter step s before) a).2) := by
  induction steps generalizing s i with
  | nil => simp [exchanges] at here
  | cons a rest ih =>
    rw [exchanges] at here
    cases i with
    | zero => exact ⟨[], a, rest, rfl, rfl, (Option.some.inj here).symm⟩
    | succ i =>
      obtain ⟨before, b, after, rfl, place, same⟩ := ih here
      exact ⟨a :: before, b, after, rfl, congrArg (· + 1) place, same⟩

/-- What holds at first and is kept by every step, of the exchanges so far and of the state, holds
after all steps. -/
theorem kept_along {P : List (α × β) → σ → Prop} (start : P [] s)
    (next : ∀ ex s a, P ex s → P (ex ++ [(a, (step s a).2)]) (step s a).1) (steps : List α) :
    P (exchanges step s steps) (stateAfter step s steps) := by
  suffices along : ∀ ex s, P ex s → P (ex ++ exchanges step s steps) (stateAfter step s steps) from
    along [] s start
  induction steps with
  | nil =>
    intro ex s before
    rwa [exchanges, List.append_nil]
  | cons a rest ih =>
    intro ex s before
    have whole := ih _ _ (next ex s a before)
    rwa [List.append_assoc] at whole

/-- A list with one element more has it at its end, and the others where they were. -/
theorem getElem?_snoc_eq_some {xs : List α} {a b : α} :
    (xs ++ [a])[i]? = some b ↔ xs[i]? = some b ∨ i = xs.length ∧ a = b := by
  rw [List.getElem?_append]
  split
  · simp only [Nat.ne_of_lt ‹_›, false_and, or_false]
  · rename_i beyond
    rw [List.getElem?_eq_none (Nat.le_of_not_lt beyond), List.getElem?_singleton]
    split
    · simp only [Option.some.injEq, reduceCtorEq, false_or]
      exact ⟨fun same => ⟨by omega, same⟩, And.right⟩
    · simp only [reduceCtorEq, false_or, false_iff]
      exact fun last => absurd last.1 (by omega)

end SerialDispatch
