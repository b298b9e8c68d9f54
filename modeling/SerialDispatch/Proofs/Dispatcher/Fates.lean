import SerialDispatch.Proofs.Dispatcher.Reading

/-!
# What dispatches come to

A dispatch whose terminal signal was sent is over, and it has ended in one of three ways: its token
was found cancelled, it was discarded without having been taken, or its operation was constructed
and has come to an end. What the history says of it then is put together here from the ledger; main
statement: `Ledger.Run.ended`.
-/
namespace SerialDispatch
namespace Slip

/-- The signals sent for the dispatch were `signals`, none of them terminal, and then the one
terminal signal. -/
structure Ends (history : List Happening) (slip : Slip) (signals : List Signal)
    (outcome : Outcome) : Prop where
  unfinished : ∀ s ∈ signals, s.isFinished = false
  told : untilFinished (signalsIn history slip.id) = signals ++ [.finished outcome]
  once : (signalsIn history slip.id).filter Signal.isFinished = [.finished outcome]

/-- No operation was constructed for the dispatch. -/
structure Unstarted (history : List Happening) (slip : Slip) : Prop where
  unmade : ∀ n, .constructed n ∉ milestonesIn history slip.id
  ends : slip.Ends history [] .cancelledBeforeStart

/-- Operation `x` was constructed for the dispatch, and has ended with a result or has panicked.
It sent what its body sends, given what it saw each time it looked whether it is cancelled; beside
that there is only what went through sinks that it had kept. -/
structure Completed (S : Setup) (history : List Happening) (slip : Slip) (x : Execution)
    (result : Option Result) : Prop where
  milestones : milestonesIn history slip.id =
    .submitted slip.callback :: ([.taken, .checked false, .constructed x.number] ++
      x.looks.map .looked ++ [.returned result])
  ends : slip.Ends history x.signals (.completed (result.getD (.ofPanic slip.kind)))
  explained : x.Explains S slip result
  own : x.own.Sublist x.signals
  alone : (∀ e, .late e ∈ history → e.id ≠ slip.id) → x.own = x.signals

/-- The operation of the dispatch was constructed and is not over yet. -/
structure UnderWay (history : List Happening) (slip : Slip) : Prop where
  made : ∃ n, .constructed n ∈ milestonesIn history slip.id
  unreturned : ∀ result, .returned result ∉ milestonesIn history slip.id

theorem ends_of {history : List Happening} {slip : Slip} {signals after : List Signal}
    {outcome : Outcome} (before : ∀ s ∈ signals, s.isFinished = false)
    (behind : ∀ s ∈ after, s.isFinished = false)
    (all : signalsIn history slip.id = signals ++ .finished outcome :: after) :
    slip.Ends history signals outcome := by
  refine ⟨before, ?_, ?_⟩
  · rw [all]
    exact untilFinished_append before outcome after
  · have hbefore : signals.filter Signal.isFinished = [] :=
      List.filter_eq_nil_iff.2 fun s hs => by simp [before s hs]
    have hbehind : after.filter Signal.isFinished = [] :=
      List.filter_eq_nil_iff.2 fun s hs => by simp [behind s hs]
    rw [all, List.filter_append, hbefore, List.filter_cons_of_pos rfl, hbehind]
    rfl

end Slip

theorem Place.Lawful.unfinished {S : Setup} {slip : Slip} {p : Place} (lawful : p.Lawful S slip) :
    ∀ s ∈ p.signals, s.isFinished = false := by
  cases p with
  | busy x => exact lawful.1.unfinished
  | left x result => exact lawful.1.unfinished
  | _ => exact fun _ h => absurd h List.not_mem_nil

namespace Ledger

variable {S : Setup} {l m : Ledger} {h : Happening} {history : List Happening} {slip : Slip}

theorem mem_roll_of_settled {fate : Fate} (hsettled : (slip, fate) ∈ l.settled) :
    (slip, Stand.settled fate) ∈ l.roll := by
  refine List.mem_append_left _ (List.mem_append_left _ ?_)
  exact List.mem_map.2 ⟨(slip, fate), hsettled, rfl⟩

/-- What a dispatch that is over has come to. -/
theorem Run.ended (run : Run S .empty history l) {fate : Fate}
    (hsettled : (slip, fate) ∈ l.settled) :
    match fate with
    | .ran x result => slip.Completed S history x result
    | _ => slip.Unstarted history := by
  have hroll := mem_roll_of_settled hsettled
  obtain ⟨after, behind, hsignals⟩ := run.signals _ hroll
  have hmilestones := run.milestones _ hroll
  have hlawful := run.lawful _ hroll fate.place rfl
  have ends := Slip.ends_of hlawful.unfinished behind hsignals
  cases fate with
  | barred =>
    refine ⟨fun n hn => ?_, ends⟩
    rw [hmilestones] at hn
    simp [Stand.milestones, Stand.place?, Fate.place, Place.milestones] at hn
  | dropped =>
    refine ⟨fun n hn => ?_, ends⟩
    rw [hmilestones] at hn
    simp [Stand.milestones, Stand.place?, Fate.place, Place.milestones] at hn
  | ran x result =>
    exact ⟨hmilestones, ends, hlawful.2, hlawful.1.own,
      fun unused => run.alone _ hroll unused (.left x result) rfl⟩

/-- When the worker is at nothing and nothing waits, all dispatches are over. -/
theorem Run.settled_of_done (run : Run S .empty history l) (free : l.desk = none)
    (done : l.waiting = []) (hslip : slip ∈ acceptedIn history) :
    ∃ fate, (slip, fate) ∈ l.settled := by
  have hmem : slip ∈ l.settled.map Prod.fst := by
    rw [← run.accepted_of_empty] at hslip
    simpa [Ledger.accepted, roll, free, done, Function.comp_def] using hslip
  obtain ⟨⟨slip, fate⟩, hsettled, rfl⟩ := List.mem_map.1 hmem
  exact ⟨fate, hsettled⟩

/-- Who has been sent the terminal signal is over. -/
theorem Run.settled_of_finished (run : Run S .empty history l) (hslip : slip ∈ l.accepted)
    {outcome : Outcome} (finished : .finished outcome ∈ signalsIn history slip.id) :
    ∃ fate, (slip, fate) ∈ l.settled := by
  obtain ⟨⟨slip, st⟩, hroll, rfl⟩ := List.mem_map.1 hslip
  have hsignals := run.signals _ hroll
  cases st with
  | waiting =>
    rw [show signalsIn history slip.id = [] from hsignals] at finished
    cases finished
  | «at» p =>
    rw [show signalsIn history slip.id = p.signals from hsignals] at finished
    have hlawful := run.lawful _ hroll p rfl
    have h := hlawful.unfinished _ finished
    cases h
  | settled fate =>
    have hsettled : (slip, fate) ∈ l.settled := by simpa [roll] using hroll
    exact ⟨fate, hsettled⟩

/-- A dispatch whose operation is under way is at the desk. -/
theorem Run.desk_of_underWay (run : Run S .empty history l) (hslip : slip ∈ l.accepted)
    (underWay : slip.UnderWay history) : ∃ p, l.desk = some (slip, p) := by
  obtain ⟨⟨slip, st⟩, hroll, rfl⟩ := List.mem_map.1 hslip
  obtain ⟨⟨n, made⟩, unreturned⟩ := underWay
  have hmilestones := run.milestones _ hroll
  cases st with
  | waiting =>
    rw [hmilestones] at made
    simp [Stand.milestones, Stand.place?] at made
  | «at» p => exact ⟨p, by simpa [roll] using hroll⟩
  | settled fate =>
    have hsettled : (slip, fate) ∈ l.settled := by simpa [roll] using hroll
    have ended := run.ended hsettled
    cases fate with
    | ran x result =>
      refine absurd ?_ (unreturned result)
      rw [ended.milestones]
      simp
    | barred => exact absurd made (ended.unmade n)
    | dropped => exact absurd made (ended.unmade n)

/-- What an operation does is noted while it is the one that is under way. -/
theorem Run.stepped {n : Nat} {word : String} {reply : Reply}
    (run : Run S .empty (history ++ [.note (.stepped n word reply)]) m) :
    ∃ slip ∈ acceptedIn history, slip.UnderWay history ∧
      .constructed n ∈ milestonesIn history slip.id := by
  obtain ⟨l, before, step⟩ := run.last
  cases step with
  | silent silent => cases silent
  | attached posts _ _ => cases posts
  | finished _ posts => cases posts
  | through _ posts _ _ => cases posts
  | @worked slip p q h desk alone moves =>
    cases moves with
    | emitted x posts _ => cases posts
    | stepped x word reply =>
      have hroll : (slip, Stand.at (.busy x)) ∈ l.roll := by simp [roll, desk]
      have hmilestones := before.milestones _ hroll
      have hslip : slip ∈ acceptedIn history := by
        have hmem : slip ∈ l.accepted := List.mem_map_of_mem hroll
        rwa [before.accepted] at hmem
      refine ⟨slip, hslip, ⟨⟨x.number, ?_⟩, fun result => ?_⟩, ?_⟩
      all_goals
        rw [hmilestones]
        simp [Stand.milestones, Stand.place?, Place.milestones]

end Ledger
end SerialDispatch
