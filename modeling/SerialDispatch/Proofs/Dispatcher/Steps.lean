import Mathlib.Logic.Relation
import SerialDispatch.Proofs.Dispatcher.Mailbox

/-!
# Part of a run

A run may be broken off and taken up again: all sessions on the way lead to the same one in the end,
`Session.Steps.run_eq`. A session that goes on until a condition is met, or for so many things to
do, is such a part of a run.
-/
namespace SerialDispatch
namespace Session

open Relation

variable {S : Setup} {s t u : Session} {limit : Option Nat}

/-- The one session comes before the other in a run. -/
def Steps (S : Setup) (limit : Option Nat) : Session → Session → Prop :=
  ReflTransGen fun s t => s.next? S limit = some t

namespace Steps

theorem trans (first : Steps S limit s t) (second : Steps S limit t u) : Steps S limit s u :=
  ReflTransGen.trans first second

theorem run_eq (steps : Steps S limit s t) : s.run S limit = t.run S limit := by
  induction steps with
  | refl => rfl
  | tail _ next ih => exact ih.trans (run_of_next next)

theorem follows (steps : Steps S limit s t) : Follows s t := by
  induction steps with
  | refl => exact (Posts.refl s).follows
  | tail _ next ih => exact ih.trans (follows_next next)

end Steps

theorem steps_run (S : Setup) (limit : Option Nat) (s : Session) :
    Steps S limit s (s.run S limit) := by
  fun_induction Session.run S limit s with
  | case1 s _ => exact .refl
  | case2 s t next ih => exact ih.head next

theorem steps_runUntil (S : Setup) (met : Session → Bool) (s : Session) :
    Steps S none s (s.runUntil S met) := by
  fun_induction runUntil S met s with
  | case1 s _ => exact .refl
  | case2 s _ _ => exact .refl
  | case3 s _ t next ih => exact ih.head next

/-- A session goes on until the condition is met, unless it comes to rest before. -/
theorem met_runUntil (S : Setup) (met : Session → Bool) (s : Session) :
    met (s.runUntil S met) = true ∨ (s.runUntil S met).next? S none = none := by
  fun_induction runUntil S met s with
  | case1 s there => exact .inl there
  | case2 s _ stops => exact .inr stops
  | case3 s _ t next ih => exact ih

theorem steps_runFor (S : Setup) (s : Session) (n : Nat) : Steps S none s (s.runFor S n) := by
  fun_induction runFor S s n with
  | case1 s => exact .refl
  | case2 s n stops => exact .refl
  | case3 s n t next ih => exact ih.head next

end Session
end SerialDispatch
