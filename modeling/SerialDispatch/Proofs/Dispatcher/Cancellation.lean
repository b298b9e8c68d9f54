import SerialDispatch.Proofs.Dispatcher.Caller
import SerialDispatch.Proofs.Dispatcher.Evaluation

/-!
# Whether a dispatch is cancelled before it starts

One look at the token decides: a cancellation that comes before it keeps the operation from being
constructed, and one that comes later does not, whoever cancels and however often. Beside that only
a dispatch that the stopping worker discards is not started; main statement:
`Session.cancellation_decided`.
-/
namespace SerialDispatch
namespace Slip

/-- The dispatch was cancelled before its token was looked at, or discarded while it still
waited. -/
inductive Preempted (history : List Happening) (slip : Slip) : Prop
  | cancelled {before after : List Happening} {cancelled : Bool} {time : Nat}
      (looked : history = before ++ .reached slip.task (.checked cancelled) time :: after)
      (inTime : slip.id ∈ cancelledIn before)
  | discarded (dropped : .discarded ∈ milestonesIn history slip.id)

/-- Construction `x.number` was for this dispatch alone. If it did not panic, one operation was
begun from it, with the request and the input of the dispatch. -/
structure Executed (S : Setup) (history : List Happening) (slip : Slip) (x : Execution) : Prop where
  own : ∀ other ∈ acceptedIn history, .constructed x.number ∈ milestonesIn history other.id →
    other = slip
  begun : (begunIn history).filter (fun operation => operation.number = x.number) =
    if S.breaks x.number slip.kind then []
    else [⟨x.number, slip.task.request, slip.task.input, slip.kind.isCancellable⟩]

/-- What is decided about a dispatch whose terminal signal was sent. -/
structure Decided (S : Setup) (history : List Happening) (slip : Slip) : Prop where
  preempted : slip.Preempted history → slip.Unstarted history
  started : ¬ slip.Preempted history →
    ∃ x result, slip.Completed S history x result ∧ slip.Executed S history x
  /-- The operation sees that it is cancelled if it has a token and was cancelled before. -/
  visible : ∀ before value time after,
    history = before ++ .reached slip.task (.looked value) time :: after →
      value = (slip.kind.isCancellable && decide (slip.id ∈ cancelledIn before))

end Slip

theorem Stand.number_of_constructed {slip : Slip} {st : Stand} {n : Nat}
    (made : .constructed n ∈ st.milestones slip) : st.number? = some n := by
  cases st with
  | waiting => simp [Stand.milestones, Stand.place?] at made
  | «at» p =>
    cases p <;> simp_all [Stand.milestones, Stand.place?, Place.milestones, Stand.number?,
      Place.number?]
  | settled fate =>
    cases fate <;> simp_all [Stand.milestones, Stand.place?, Fate.place, Place.milestones,
      Stand.number?, Place.number?]

theorem Stand.number_of_operation {slip : Slip} {st : Stand} {operation : Operation}
    (begun : st.operation? slip = some operation) : st.number? = some operation.number := by
  obtain ⟨p, hp, hbegun⟩ := Option.bind_eq_some_iff.1 begun
  have hnumber : st.number? = p.number? := by simp [Stand.number?, hp]
  rw [hnumber]
  cases p with
  | busy x =>
    simp only [Place.operation?] at hbegun
    split at hbegun
    · cases hbegun
    · cases hbegun
      rfl
  | left x result =>
    simp only [Place.operation?] at hbegun
    split at hbegun
    · cases hbegun
    · cases hbegun
      rfl
  | _ => cases hbegun

namespace Ledger

variable {S : Setup} {l : Ledger} {history : List Happening} {slip : Slip}

/-- No two dispatches have the same construction. -/
theorem Run.distinct (run : Run S .empty history l) :
    l.roll.Pairwise fun a b => ∀ m, a.2.number? = some m → ∀ n, b.2.number? = some n → m ≠ n := by
  have hnodup : (l.roll.filterMap fun entry => entry.2.number?).Nodup := by
    rw [run.numbers]
    exact List.nodup_range
  exact List.pairwise_filterMap.1 hnodup

/-- The construction of one dispatch is not that of another. -/
theorem Run.number_ne (run : Run S .empty history l) {before after : List (Slip × Stand)}
    {st : Stand} {n : Nat} (hsplit : l.roll = before ++ (slip, st) :: after)
    (hnumber : st.number? = some n) : ∀ entry ∈ before ++ after, entry.2.number? ≠ some n := by
  have hdistinct := run.distinct
  rw [hsplit, List.pairwise_append, List.pairwise_cons] at hdistinct
  obtain ⟨-, ⟨hafter, -⟩, hbefore⟩ := hdistinct
  intro entry hentry heq
  rcases List.mem_append.1 hentry with hb | ha
  · exact hbefore entry hb _ List.mem_cons_self _ heq _ hnumber rfl
  · exact hafter entry ha _ hnumber _ heq rfl

/-- Where nobody has construction `n`, no operation was begun from it. -/
theorem no_operation {entries : List (Slip × Stand)} {n : Nat}
    (others : ∀ entry ∈ entries, entry.2.number? ≠ some n) :
    (entries.filterMap fun entry => entry.2.operation? entry.1).filter
      (fun operation => operation.number = n) = [] := by
  refine List.filter_eq_nil_iff.2 fun operation hoperation => ?_
  obtain ⟨entry, hentry, begun⟩ := List.mem_filterMap.1 hoperation
  have hne := others entry hentry
  rw [Stand.number_of_operation begun] at hne
  simpa using hne

/-- The operation that was begun for a dispatch, if its construction did not panic. -/
theorem operation_of_ran {x : Execution} {result : Option Result}
    (explained : x.Explains S slip result) :
    (Stand.settled (.ran x result)).operation? slip =
      if S.breaks x.number slip.kind then none
      else some ⟨x.number, slip.task.request, slip.task.input, slip.kind.isCancellable⟩ := by
  unfold Execution.Explains at explained
  cases hb : x.broken with
  | true =>
    rw [hb, if_pos rfl] at explained
    simp [Stand.operation?, Stand.place?, Fate.place, Place.operation?, hb, explained.1]
  | false =>
    rw [hb, if_neg (by decide)] at explained
    simp [Stand.operation?, Stand.place?, Fate.place, Place.operation?, hb, explained.1]

theorem Run.executed (run : Run S .empty history l) {x : Execution} {result : Option Result}
    (hsettled : (slip, .ran x result) ∈ l.settled) : slip.Executed S history x := by
  obtain ⟨before, after, hsplit⟩ := List.append_of_mem (mem_roll_of_settled hsettled)
  have others := run.number_ne hsplit (n := x.number) rfl
  refine ⟨fun other hother made => ?_, ?_⟩
  · rw [← run.accepted_of_empty] at hother
    obtain ⟨entry, hentry, rfl⟩ := List.mem_map.1 hother
    rw [run.milestones entry hentry] at made
    have heq := Stand.number_of_constructed made
    rw [hsplit] at hentry
    rcases List.mem_append.1 hentry with hb | hrest
    · exact absurd heq (others entry (List.mem_append_left _ hb))
    · rcases List.mem_cons.1 hrest with rfl | ha
      · rfl
      · exact absurd heq (others entry (List.mem_append_right _ ha))
  · have hbefore := no_operation fun entry h => others entry (List.mem_append_left _ h)
    have hafter := no_operation fun entry h => others entry (List.mem_append_right _ h)
    have hone := operation_of_ran (run.ended hsettled).explained
    rw [run.operations, hsplit, List.filterMap_append, List.filter_append, hbefore,
      List.nil_append, List.filterMap_cons, hone]
    cases hb : S.breaks x.number slip.kind with
    | true => simpa [hb] using hafter
    | false => simp [hafter]

/-- A dispatch whose token was found raised had been cancelled by then. -/
theorem Run.preempted_of_checked (run : Run S .empty history l) (hslip : slip ∈ acceptedIn history)
    (checked : .checked true ∈ milestonesIn history slip.id) : slip.Preempted history := by
  obtain ⟨before, task, time, after, looked, hid⟩ := mem_milestonesIn.1 checked
  have whole := run
  rw [looked] at whole
  obtain ⟨same, htask, hsame, hcancelled⟩ := whole.due
  have heq : same = slip := by
    refine run.eq_of_id ?_ hslip ((congrArg Task.id htask).trans hid)
    rw [looked, acceptedIn_append]
    exact List.mem_append_left _ hsame
  rw [heq] at htask hcancelled
  rw [← htask] at looked
  exact .cancelled looked (of_decide_eq_true hcancelled.symm)

/-- A dispatch that was preempted was found cancelled, or was discarded. -/
theorem Run.milestone_of_preempted (run : Run S .empty history l)
    (preempted : slip.Preempted history) : .checked true ∈ milestonesIn history slip.id ∨
      .discarded ∈ milestonesIn history slip.id := by
  cases preempted with
  | @cancelled before after cancelled time looked inTime =>
    rw [looked] at run
    obtain ⟨same, htask, -, hcancelled⟩ := run.due
    have hid : same.id = slip.id := by rw [Slip.id, Slip.id, htask]
    rw [hid, decide_eq_true inTime] at hcancelled
    rw [hcancelled] at looked
    exact .inl (mem_milestonesIn.2 ⟨before, slip.task, time, after, looked, rfl⟩)
  | discarded dropped => exact .inr dropped

/-- A dispatch that is over was preempted exactly when its operation was never constructed. -/
theorem Run.constructed_iff (run : Run S .empty history l) {fate : Fate}
    (hsettled : (slip, fate) ∈ l.settled) :
    (∃ n, .constructed n ∈ milestonesIn history slip.id) ↔ ¬ slip.Preempted history := by
  have hroll := mem_roll_of_settled hsettled
  have hmilestones := run.milestones _ hroll
  have hslip : slip ∈ acceptedIn history := by
    rw [← run.accepted_of_empty]
    exact List.mem_map_of_mem hroll
  cases fate with
  | barred =>
    have preempted : slip.Preempted history := by
      refine run.preempted_of_checked hslip ?_
      rw [hmilestones]
      simp [Stand.milestones, Stand.place?, Fate.place, Place.milestones]
    refine ⟨fun made => ?_, fun h => absurd preempted h⟩
    obtain ⟨n, made⟩ := made
    exact absurd made ((run.ended hsettled).unmade n)
  | dropped =>
    have preempted : slip.Preempted history := by
      refine .discarded ?_
      rw [hmilestones]
      simp [Stand.milestones, Stand.place?, Fate.place, Place.milestones]
    refine ⟨fun made => ?_, fun h => absurd preempted h⟩
    obtain ⟨n, made⟩ := made
    exact absurd made ((run.ended hsettled).unmade n)
  | ran x result =>
    have ended : slip.Completed S history x result := run.ended hsettled
    refine ⟨fun _ preempted => ?_, fun _ => ⟨x.number, ?_⟩⟩
    · have hmem := run.milestone_of_preempted preempted
      rw [ended.milestones] at hmem
      simp at hmem
    · rw [ended.milestones]
      simp

/-- Everything is decided about a dispatch that is over. -/
theorem Run.decided (run : Run S .empty history l) {fate : Fate}
    (hsettled : (slip, fate) ∈ l.settled) : slip.Decided S history := by
  have hiff := run.constructed_iff hsettled
  have ended := run.ended hsettled
  refine ⟨fun preempted => ?_, fun not_preempted => ?_, fun before value time after looked => ?_⟩
  · cases fate with
    | barred => exact ended
    | dropped => exact ended
    | ran x result =>
      refine absurd preempted (hiff.1 ⟨x.number, ?_⟩)
      rw [ended.milestones]
      simp
  · obtain ⟨n, made⟩ := hiff.2 not_preempted
    cases fate with
    | barred => exact absurd made (ended.unmade n)
    | dropped => exact absurd made (ended.unmade n)
    | ran x result => exact ⟨x, result, ended, run.executed hsettled⟩
  · rw [looked] at run
    obtain ⟨same, htask, -, hvalue⟩ := run.due
    rw [hvalue, Slip.id, Slip.kind, htask]
    rfl

end Ledger

namespace Session

/-- What cancellations decide in a session that has come to `s` by this script. -/
structure Cancelling (S : Setup) (steps : List CallerStep) (s : Session) : Prop where
  decided : ∀ slip ∈ acceptedIn s.history,
    (∃ outcome, .finished outcome ∈ signalsIn s.history slip.id) → slip.Decided S s.history
  /-- Whoever starts it, a dispatch is accepted with what is passed to the start. -/
  given : ∀ (t : Session) request input surface panicsOn reactions,
    ∀ slip ∈ acceptedIn (t.perform S (.start request input surface panicsOn reactions)).1.history,
      slip ∈ acceptedIn t.history ∨
        slip.callback = t.starts ∧ slip.task.request = request ∧ slip.task.input = input
  /-- What a dispatch was accepted with was passed to the start that has given its handle. -/
  passed : ∀ earlier request input surface panicsOn reactions callback handle slip,
    earlier ++ [.command (.start request input surface panicsOn reactions)] <+: steps →
    ((start.runScript S earlier).perform S (.start request input surface panicsOn reactions)).2 =
      .started callback handle →
    (acceptedIn s.history)[handle]? = some slip →
    slip.callback = callback ∧ slip.task.request = request ∧ slip.task.input = input
  /-- Whoever cancels through the handle of a dispatch, and however often, cancels the dispatch. -/
  heard : ∀ handle slip, (acceptedIn s.history)[handle]? = some slip →
    cancelledIn (s.perform S (.cancel handle)).1.history = cancelledIn s.history ++ [slip.id]

/-- Whether a dispatch is started is decided by when it was cancelled, in every session. -/
theorem cancellation_decided (S : Setup) (steps : List CallerStep) :
    Cancelling S steps (start.runScript S steps) := by
  have booked := booked_runScript S steps
  refine ⟨fun slip accepted finished => ?_,
    fun _ _ _ _ _ _ _ accepted => accepted_start accepted, ?_,
    fun handle slip hslip => booked.cancelled hslip⟩
  · obtain ⟨outcome, finished⟩ := finished
    obtain ⟨⟨l, run, -⟩, -⟩ := booked
    rw [← run.accepted_of_empty] at accepted
    obtain ⟨fate, hsettled⟩ := run.settled_of_finished accepted finished
    exact run.decided hsettled
  · intro earlier request input surface panicsOn reactions callback handle slip hearlier started
      hslip
    have hlast : start.runScript S
        (earlier ++ [.command (.start request input surface panicsOn reactions)]) =
        ((start.runScript S earlier).perform S _).1 := List.foldl_append
    have past := past_earlier S start hearlier
    rw [hlast] at past
    have early := booked_runScript S earlier
    by_cases gone : (start.runScript S earlier).stage = .dead
    · have none := early.not_accepted_of_started booked gone ((Posts.perform S _ _).past.trans past)
        started
      rw [none] at hslip
      cases hslip
    · obtain ⟨same, hsame, given⟩ := early.accepted_of_started gone past started
      rw [hsame] at hslip
      cases hslip
      exact given

/-- The second dispatch is cancelled while the first is running. -/
theorem cancellation_decided_of_second :
    Slip.Decided (.sample [])
      (start.runScript (.sample []) [.begin .backup .unneeded, .begin .revoke .unneeded, .sleep 5,
        .command (.cancel 1), .sleep 20]).history
      ⟨⟨2, ⟨.revoke, ⟨[]⟩⟩, .default, 1, false⟩, 1⟩ := by
  refine (cancellation_decided _ _).decided _ ?_ ⟨.cancelledBeforeStart, ?_⟩
  · refine of_decide_eq_true
      (runScript_of_within 60 (fun s => decide (_ ∈ acceptedIn s.history)) ?_)
    rfl
  · refine of_decide_eq_true
      (runScript_of_within 60 (fun s => decide (_ ∈ signalsIn s.history 2)) ?_)
    rfl

/-- An operation whose construction panics is never begun, although nobody has cancelled it. -/
theorem not_always_begun : ¬ ∀ (S : Setup) (steps : List CallerStep),
    ∀ slip ∈ acceptedIn (start.runScript S steps).history,
      (∃ outcome, .finished outcome ∈ signalsIn (start.runScript S steps).history slip.id) →
      ¬ slip.Preempted (start.runScript S steps).history →
      ∃ operation ∈ begunIn (start.runScript S steps).history,
        operation.request = slip.task.request := by
  intro always
  have hview := runScript_of_within (S := .sample [0]) 60
    (fun s => (acceptedIn s.history, cancelledIn s.history, begunIn s.history,
      milestonesIn s.history 1, signalsIn s.history 1))
    (a := ([⟨⟨1, ⟨.backup, ⟨[]⟩⟩, .default, 0, false⟩, 0⟩], [], [],
      [.submitted 0, .taken, .checked false, .constructed 0, .returned none],
      [.finished (.completed (.ofPanic .backup))]))
    (show (start.scriptWithin (.sample [0]) 60 [.begin .backup .unneeded, .sleep 1]).map _ = _
      from rfl)
  have decided := always (.sample [0]) [.begin .backup .unneeded, .sleep 1]
  generalize (start.runScript (.sample [0]) [.begin .backup .unneeded, .sleep 1]).history = history
    at hview decided
  simp only [Prod.mk.injEq] at hview
  obtain ⟨haccepted, hcancelled, hbegun, hmilestones, hsignals⟩ := hview
  have unpreempted : ¬ Slip.Preempted history ⟨⟨1, ⟨.backup, ⟨[]⟩⟩, .default, 0, false⟩, 0⟩ := by
    intro preempted
    cases preempted with
    | cancelled looked inTime =>
      have hmem : (1 : DispatchId) ∈ cancelledIn history := by
        rw [looked, cancelledIn_append]
        exact List.mem_append_left _ inTime
      rw [hcancelled] at hmem
      cases hmem
    | discarded dropped =>
      have hmem : .discarded ∈ milestonesIn history 1 := dropped
      rw [hmilestones] at hmem
      simp at hmem
  obtain ⟨operation, hmem, -⟩ := decided ⟨⟨1, ⟨.backup, ⟨[]⟩⟩, .default, 0, false⟩, 0⟩
    (by rw [haccepted]; exact List.mem_cons_self)
    ⟨.completed (.ofPanic .backup), hsignals ▸ List.mem_cons_self⟩ unpreempted
  rw [hbegun] at hmem
  cases hmem

end Session
end SerialDispatch
