/-!
# When a wait is over

Times and durations are in milliseconds. No wait lasts longer than thirty years, whatever it asks
for.
-/
namespace SerialDispatch.Timer

/-- The longest wait. -/
def longest : Nat := 30 * 365 * 24 * 60 * 60 * 1000

/-- When a wait that begins now is over. -/
def due (now duration : Nat) : Nat := now + min duration longest

/-- Whether a time lies before a limit, if there is one. -/
def isBefore (time : Nat) : Option Nat → Bool
  | none => true
  | some limit => time < limit

theorem le_due (now duration : Nat) : now ≤ due now duration := Nat.le_add_right _ _

end SerialDispatch.Timer
