import SerialDispatch.Proofs.Dispatcher.Fates

/-!
# Moments of a history

What a milestone of a dispatch says of the history before it: whether the token of the dispatch had
been raised when it was looked at, and whether the worker had been signalled to stop when the
dispatch was taken or discarded.
-/
namespace SerialDispatch

/-- Somewhere in a history a dispatch reaches a milestone. -/
theorem mem_milestonesIn {history : List Happening} {id : DispatchId} {milestone : Milestone} :
    milestone ∈ milestonesIn history id ↔ ∃ before task time after,
      history = before ++ .reached task milestone time :: after ∧ task.id = id := by
  constructor
  · intro h
    obtain ⟨happening, hmem, hreached⟩ := List.mem_filterMap.1 h
    obtain ⟨before, after, rfl⟩ := List.append_of_mem hmem
    cases happening with
    | reached task found time =>
      simp only [Happening.milestone?] at hreached
      split at hreached
      · rename_i hid
        cases hreached
        exact ⟨before, task, time, after, rfl, hid⟩
      · cases hreached
    | _ => cases hreached
  · rintro ⟨before, task, time, after, rfl, hid⟩
    refine List.mem_filterMap.2 ⟨.reached task milestone time, by simp, ?_⟩
    simp [Happening.milestone?, hid]

/-- What must have come before a dispatch reaches a milestone. -/
def Milestone.Due (before : List Happening) (slip : Slip) : Milestone → Prop
  | .submitted callback => slip.callback = callback ∧ before.any Happening.isStopping = false ∧
      before.any Happening.isTearing = false
  | .taken => slip ∈ acceptedIn before ∧ before.any Happening.isStopping = false
  | .discarded => slip ∈ acceptedIn before ∧ before.any Happening.isStopping = true
  | .checked cancelled => slip ∈ acceptedIn before ∧
      cancelled = decide (slip.id ∈ cancelledIn before)
  | .looked value => slip ∈ acceptedIn before ∧
      value = (slip.kind.isCancellable && decide (slip.id ∈ cancelledIn before))
  | .constructed _ | .returned _ => slip ∈ acceptedIn before

namespace Ledger

variable {S : Setup} {l m : Ledger} {h : Happening} {history before after : List Happening}

theorem Run.stopping (run : Run S l history m) :
    m.stopping = (l.stopping || history.any Happening.isStopping) := by
  induction run with
  | nil => exact (Bool.or_false _).symm
  | snoc _ step ih => simp [step.flags.stopping, ih, Bool.or_assoc]

theorem Run.torn (run : Run S l history m) :
    m.torn = (l.torn || history.any Happening.isTearing) := by
  induction run with
  | nil => exact (Bool.or_false _).symm
  | snoc _ step ih => simp [step.flags.torn, ih, Bool.or_assoc]

theorem Run.eq_of_id (run : Run S .empty history l) {a b : Slip} (ha : a ∈ acceptedIn history)
    (hb : b ∈ acceptedIn history) (hid : a.id = b.id) : a = b := by
  rw [← run.accepted_of_empty] at ha hb
  obtain ⟨first, hfirst, rfl⟩ := List.mem_map.1 ha
  obtain ⟨second, hsecond, rfl⟩ := List.mem_map.1 hb
  rw [run.ordered.unique hfirst hsecond hid]

/-- A milestone is reached only when it is due. -/
theorem Run.due {task : Task} {milestone : Milestone} {time : Nat}
    (run : Run S .empty (before ++ .reached task milestone time :: after) l) :
    ∃ slip : Slip, slip.task = task ∧ milestone.Due before slip := by
  have whole : before ++ .reached task milestone time :: after =
      before ++ [.reached task milestone time] ++ after := by simp
  rw [whole] at run
  obtain ⟨n, upTo, -⟩ := run.split
  obtain ⟨m, early, step⟩ := upTo.last
  have stopping : m.stopping = before.any Happening.isStopping := early.stopping
  have torn : m.torn = before.any Happening.isTearing := early.torn
  have cancelled : m.cancelled = cancelledIn before := early.cancelled
  have accepted : ∀ slip st, (slip, st) ∈ m.roll → slip ∈ acceptedIn before := by
    intro slip st hroll
    rw [← early.accepted_of_empty]
    exact List.mem_map_of_mem hroll
  have waiting : ∀ {slip rest}, m.waiting = slip :: rest → slip ∈ acceptedIn before := by
    intro slip rest hwaiting
    exact accepted slip .waiting (by simp [roll, hwaiting])
  cases step with
  | silent silent => cases silent
  | attached posts _ _ => cases posts
  | finished _ posts => cases posts
  | through _ posts _ _ => cases posts
  | submitted slip time opened going there =>
    exact ⟨slip, rfl, rfl, stopping.symm.trans going, torn.symm.trans there⟩
  | taken time free first going => exact ⟨_, rfl, waiting first, stopping.symm.trans going⟩
  | discarded time free first signalled =>
    exact ⟨_, rfl, waiting first, stopping.symm.trans signalled⟩
  | @worked slip p q h desk alone moves =>
    have hslip : slip ∈ acceptedIn before := accepted slip (.at p) (by simp [roll, desk])
    cases moves with
    | checked time => exact ⟨slip, rfl, hslip, by rw [cancelled]⟩
    | constructed time => exact ⟨slip, rfl, hslip⟩
    | broke time breaks => exact ⟨slip, rfl, hslip⟩
    | looked x time => exact ⟨slip, rfl, hslip, by rw [cancelled]⟩
    | emitted x posts _ => cases posts
    | returned x result time faithful => exact ⟨slip, rfl, hslip⟩

/-- Nothing is accepted once the worker was signalled to stop or everything has vanished. -/
theorem Run.accepted_of_over (run : Run S .empty (before ++ after) l)
    (closed : before.any Happening.isStopping = true ∨ before.any Happening.isTearing = true) :
    acceptedIn after = [] := by
  refine List.eq_nil_iff_forall_not_mem.2 fun slip hslip => ?_
  obtain ⟨happening, hmem, haccepted⟩ := List.mem_filterMap.1 hslip
  obtain ⟨earlier, later, rfl⟩ := List.append_of_mem hmem
  cases happening with
  | reached task milestone time =>
    cases milestone with
    | submitted callback =>
      rw [← List.append_assoc] at run
      obtain ⟨_, -, -, going, there⟩ := run.due
      rw [List.any_append] at going there
      rcases closed with stopping | torn
      · rw [stopping, Bool.true_or] at going
        cases going
      · rw [torn, Bool.true_or] at there
        cases there
    | _ => cases haccepted
  | _ => cases haccepted

theorem Run.accepted_of_torn (run : Run S .empty (before ++ after) l)
    (torn : before.any Happening.isTearing = true) : acceptedIn after = [] :=
  run.accepted_of_over (.inr torn)

end Ledger
end SerialDispatch
