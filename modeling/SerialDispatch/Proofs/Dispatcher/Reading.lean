import Mathlib.Data.List.Pairwise
import SerialDispatch.Proofs.Dispatcher.Stands

/-!
# What a ledger says of the history

The ledger that a history leads to tells what can be read off that history: which dispatches were
accepted and cancelled, and of each of them the milestones, the signals and the operation. The ids
of the dispatches ascend in order of submission, so no two are the same.
-/
namespace SerialDispatch.Ledger

variable {S : Setup} {l m : Ledger} {h : Happening} {history : List Happening}

/-- The ids of the dispatches ascend, and that of the one about to be submitted is above them. -/
structure Ordered (l : Ledger) : Prop where
  ascending : l.accepted.Pairwise fun a b => a.id < b.id
  fresh : ∀ id callback, l.opened = some (id, callback) → ∀ slip ∈ l.accepted, slip.id < id

theorem Step.accepted (step : l.Step S h m) :
    m.accepted = l.accepted ++ h.accepted?.toList := by
  rcases step.roll_cases with ⟨hroll, quiet⟩ | ⟨slip, time, rfl, -, -, hroll⟩ |
    ⟨before, slip, st, st', after, hl, hm, -, moved⟩
  · simp [Ledger.accepted, hroll, quiet.accepted]
  · simp [Ledger.accepted, hroll, Happening.accepted?]
  · have hnone : h.accepted? = none := by
      cases moved with
      | worked moves =>
        cases moves with
        | emitted x posts _ => exact (no_milestone_of_message posts).1
        | _ => rfl
      | heard begun kept posts _ => exact (no_milestone_of_message posts).1
      | finished fate posts => exact (no_milestone_of_message posts).1
      | _ => rfl
    simp [Ledger.accepted, hl, hm, hnone]

theorem Step.opened {id : DispatchId} {callback : Nat} (step : l.Step S h m)
    (hm : m.opened = some (id, callback)) :
    (l.opened = some (id, callback) ∧ m.accepted = l.accepted) ∨
      ∀ slip ∈ m.accepted, slip.id < id := by
  have hacc := step.accepted
  have hsame : h.accepted? = none → m.accepted = l.accepted := by
    intro hn
    rw [hacc, hn]
    exact List.append_nil _
  cases step with
  | silent silent =>
    refine .inl ⟨hm, rfl⟩
  | @attached _ id' callback' posts alone fresh =>
    obtain ⟨rfl, -⟩ : id' = id ∧ callback'.number = callback := by simpa using hm
    exact .inr fresh
  | submitted slip time opened going there => cases hm
  | refused opened torn => cases hm
  | taken time free first going => exact .inl ⟨hm, hsame rfl⟩
  | discarded time free first stopping => exact .inl ⟨hm, hsame rfl⟩
  | worked desk alone moves =>
    refine .inl ⟨hm, hsame ?_⟩
    cases moves with
    | emitted x posts _ => exact (no_milestone_of_message posts).1
    | _ => rfl
  | finished desk posts => exact .inl ⟨hm, hsame (no_milestone_of_message posts).1⟩
  | late e => exact .inl ⟨hm, rfl⟩
  | through late posts begun unfinished =>
    exact .inl ⟨hm, hsame (no_milestone_of_message posts).1⟩
  | cancelled id => exact .inl ⟨hm, rfl⟩
  | stopping => exact .inl ⟨hm, rfl⟩
  | tornDown => exact .inl ⟨hm, rfl⟩

theorem Step.ordered (step : l.Step S h m) (ordered : l.Ordered) : m.Ordered := by
  refine ⟨?_, fun id callback hm => ?_⟩
  · rcases step.roll_cases with ⟨hroll, -⟩ | ⟨slip, time, rfl, hopened, -, -⟩ |
      ⟨before, slip, st, st', after, hl, hm, -, -⟩
    · simpa only [Ledger.accepted, hroll] using ordered.ascending
    · rw [step.accepted]
      refine List.pairwise_append.2 ⟨ordered.ascending, List.pairwise_singleton _ _, ?_⟩
      intro a ha b hb
      have hb : b = slip := by simpa [Happening.accepted?] using hb
      rw [hb]
      exact ordered.fresh _ _ hopened a ha
    · have hsame : m.accepted = l.accepted := by simp [Ledger.accepted, hl, hm]
      rw [hsame]
      exact ordered.ascending
  · rcases step.opened hm with ⟨hl, hsame⟩ | habove
    · rw [hsame]
      exact ordered.fresh id callback hl
    · exact habove

theorem Run.ordered (run : Run S .empty history l) : l.Ordered := by
  induction run with
  | nil => exact ⟨List.Pairwise.nil, fun _ _ h => by cases h⟩
  | snoc _ step ih => exact step.ordered ih

/-- The ledger lists the dispatches that were accepted. -/
theorem Run.accepted (run : Run S l history m) :
    m.accepted = l.accepted ++ acceptedIn history := by
  induction run with
  | nil => exact (List.append_nil _).symm
  | snoc _ step ih => rw [step.accepted, ih, acceptedIn_append, acceptedIn_singleton,
      List.append_assoc]

theorem Run.accepted_of_empty (run : Run S .empty history l) : l.accepted = acceptedIn history := by
  rw [run.accepted]
  rfl

/-- An id stands for one dispatch. -/
theorem Ordered.unique (ordered : l.Ordered) {a b : Slip × Stand} (ha : a ∈ l.roll)
    (hb : b ∈ l.roll) (hid : a.1.id = b.1.id) : a = b := by
  have hpair : l.roll.Pairwise fun a b => a.1.id < b.1.id := by
    have h := ordered.ascending
    rwa [Ledger.accepted, List.pairwise_map] at h
  by_contra hne
  have hall : l.roll.Pairwise fun a b => a.1.id ≠ b.1.id :=
    hpair.imp fun hlt => Nat.ne_of_lt hlt
  have : Std.Symm fun a b : Slip × Stand => a.1.id ≠ b.1.id := ⟨fun _ _ h => Ne.symm h⟩
  exact hall.forall ha hb hne hid

theorem Run.cancelled (run : Run S l history m) :
    m.cancelled = l.cancelled ++ cancelledIn history := by
  induction run with
  | nil => exact (List.append_nil _).symm
  | snoc _ step ih =>
    rw [step.flags.cancelled, ih, cancelledIn_append, cancelledIn_singleton, List.append_assoc]

section Entries

/-- A dispatch is moved on: what holds of the others goes on holding, where it is kept up. -/
theorem forall_moved {P Q : Slip × Stand → Prop} {before after : List (Slip × Stand)} {slip : Slip}
    {st st' : Stand} (ordered : l.Ordered) (hl : l.roll = before ++ (slip, st) :: after)
    (hm : m.roll = before ++ (slip, st') :: after) (all : ∀ entry ∈ l.roll, P entry)
    (kept : ∀ entry, entry.1.id ≠ slip.id → P entry → Q entry)
    (moved : P (slip, st) → Q (slip, st')) : ∀ entry ∈ m.roll, Q entry := by
  have hin : (slip, st) ∈ l.roll := by simp [hl]
  have hpair : l.roll.Pairwise fun a b => a.1.id < b.1.id := by
    have h := ordered.ascending
    rwa [Ledger.accepted, List.pairwise_map] at h
  rw [hl, List.pairwise_append, List.pairwise_cons] at hpair
  obtain ⟨-, ⟨hafter, -⟩, hbefore⟩ := hpair
  intro entry hentry
  rw [hm] at hentry
  rcases List.mem_append.1 hentry with hb | hrest
  · have hlt := hbefore entry hb (slip, st) List.mem_cons_self
    exact kept entry (Nat.ne_of_lt hlt) (all entry (by simp [hl, hb]))
  · rcases List.mem_cons.1 hrest with rfl | ha
    · exact moved (all _ hin)
    · have hlt := hafter entry ha
      exact kept entry (Nat.ne_of_gt hlt) (all entry (by simp [hl, ha]))

/-- Who moves is on the roll. -/
theorem mem_accepted_of_roll {before after : List (Slip × Stand)} {slip : Slip} {st : Stand}
    (hl : l.roll = before ++ (slip, st) :: after) : slip ∈ l.accepted := by
  simp [Ledger.accepted, hl]

/-- Nothing is heard of an id that stands for no dispatch, as long as no start was refused. -/
theorem Run.unheard (run : Run S .empty history l) (there : l.torn = false) {id : DispatchId}
    (unknown : ∀ slip ∈ l.accepted, slip.id ≠ id) :
    milestonesIn history id = [] ∧ signalsIn history id = [] := by
  induction run with
  | nil => exact ⟨rfl, rfl⟩
  | @snoc history h l m run step ih =>
    have hthere : l.torn = false := step.there there
    have hunknown : ∀ slip ∈ l.accepted, slip.id ≠ id := by
      intro slip hslip
      refine unknown slip ?_
      rw [step.accepted]
      exact List.mem_append_left _ hslip
    obtain ⟨hm, hs⟩ := ih hthere hunknown
    have hnone : h.milestone? id = none ∧ h.signal? id = none := by
      rcases step.roll_cases with ⟨-, quiet⟩ | ⟨slip, time, rfl, -, -, hroll⟩ |
        ⟨before, slip, st, st', after, hl, -, -, moved⟩
      · refine ⟨quiet.milestone id, ?_⟩
        cases hsig : h.signal? id with
        | none => rfl
        | some signal =>
          rcases quiet.signal id signal hsig with ⟨ht, -⟩ | ⟨⟨⟨slip, hslip, hid⟩, -⟩, -⟩
          · rw [hthere] at ht
            cases ht
          · exact absurd hid (hunknown slip hslip)
      · have hne : slip.id ≠ id := unknown slip (by simp [Ledger.accepted, hroll])
        exact ⟨if_neg hne, rfl⟩
      · exact moved.others (Ne.symm (hunknown slip (mem_accepted_of_roll hl)))
    rw [milestonesIn_append, signalsIn_append, milestonesIn_singleton, signalsIn_singleton, hm, hs,
      hnone.1, hnone.2]
    exact ⟨rfl, rfl⟩

/-- A dispatch that was just submitted has no other milestone and no signal. -/
theorem Run.fresh (run : Run S .empty history l) {slip : Slip} (there : l.torn = false)
    (opened : l.opened = some (slip.id, slip.callback)) :
    milestonesIn history slip.id = [] ∧ signalsIn history slip.id = [] :=
  run.unheard there fun other hother => Nat.ne_of_lt (run.ordered.fresh _ _ opened other hother)

/-- A signal that is sent after the end of its dispatch. -/
theorem echo {entry : Slip × Stand} {signals : List Signal} {signal : Signal}
    (before : entry.2.Signals entry.1 signals) (hentry : entry ∈ l.roll)
    (begun : entry.2.hasBegun = true) (unfinished : signal.isFinished = false)
    (away : ∀ slip p, l.desk = some (slip, p) → slip.id ≠ entry.1.id) :
    entry.2.Signals entry.1 (signals ++ [signal]) := by
  obtain ⟨slip, st⟩ := entry
  cases st with
  | waiting => cases begun
  | «at» p =>
    have hd : l.desk = some (slip, p) := by simpa [roll] using hentry
    exact absurd rfl (away slip p hd)
  | settled fate =>
    obtain ⟨after, hafter, hsignals⟩ := before
    refine ⟨after ++ [signal], ?_, by rw [hsignals]; simp⟩
    intro s hs
    rcases List.mem_append.1 hs with hs | hs
    · exact hafter s hs
    · rw [List.mem_singleton.1 hs]
      exact unfinished

/-- The milestones of a dispatch are those that its stand says. -/
theorem Run.milestones (run : Run S .empty history l) :
    ∀ entry ∈ l.roll, milestonesIn history entry.1.id = entry.2.milestones entry.1 := by
  induction run with
  | nil => exact fun _ h => absurd h List.not_mem_nil
  | @snoc history h l m run step ih =>
    simp only [milestonesIn_append, milestonesIn_singleton]
    rcases step.roll_cases with ⟨hroll, quiet⟩ | ⟨slip, time, rfl, opened, there, hroll⟩ |
      ⟨before, slip, st, st', after, hl, hm, -, moved⟩
    · intro entry hentry
      rw [hroll] at hentry
      rw [quiet.milestone, ih entry hentry]
      exact List.append_nil _
    · intro entry hentry
      rw [hroll] at hentry
      rcases List.mem_append.1 hentry with hold | hnew
      · have hmem : entry.1 ∈ l.accepted := List.mem_map_of_mem hold
        have hlt := run.ordered.fresh _ _ opened entry.1 hmem
        rw [ih entry hold]
        simp [Happening.milestone?, show slip.task.id ≠ entry.1.id from Nat.ne_of_gt hlt]
      · rw [List.mem_singleton.1 hnew, (run.fresh there opened).1]
        simp [Happening.milestone?, Stand.milestones, Stand.place?, Slip.id]
    · refine forall_moved run.ordered hl hm ih (fun entry other hentry => ?_) fun hslip => ?_
      · rw [hentry, (moved.others other).1]
        exact List.append_nil _
      · rw [hslip, moved.milestones]

/-- The signals sent for a dispatch are those that its stand says. -/
theorem Run.signals (run : Run S .empty history l) :
    ∀ entry ∈ l.roll, entry.2.Signals entry.1 (signalsIn history entry.1.id) := by
  induction run with
  | nil => exact fun _ h => absurd h List.not_mem_nil
  | @snoc history h l m run step ih =>
    simp only [signalsIn_append, signalsIn_singleton]
    rcases step.roll_cases with ⟨hroll, quiet⟩ | ⟨slip, time, rfl, opened, there, hroll⟩ |
      ⟨before, slip, st, st', after, hl, hm, -, moved⟩
    · intro entry hentry
      rw [hroll] at hentry
      have hmem : entry.1 ∈ l.accepted := List.mem_map_of_mem hentry
      cases hsig : h.signal? entry.1.id with
      | none => simpa using ih entry hentry
      | some signal =>
        rcases quiet.signal _ signal hsig with ⟨-, callback, opened⟩ | ⟨begun, unfinished, away⟩
        · exact absurd rfl (Nat.ne_of_lt (run.ordered.fresh _ _ opened entry.1 hmem))
        · exact echo (ih entry hentry) hentry (begun.2 entry hentry rfl) unfinished away
    · intro entry hentry
      rw [hroll] at hentry
      have hnone : Happening.signal? entry.1.id
          (.reached slip.task (.submitted slip.callback) time) = none := rfl
      rw [hnone, Option.toList_none, List.append_nil]
      rcases List.mem_append.1 hentry with hold | hnew
      · exact ih entry hold
      · rw [List.mem_singleton.1 hnew, (run.fresh there opened).2]
        rfl
    · refine forall_moved run.ordered hl hm ih (fun entry other hentry => ?_) fun hslip => ?_
      · rw [(moved.others other).2]
        simpa using hentry
      · exact moved.signals hslip

/-- Every operation has been what it was made to be. -/
theorem Run.lawful (run : Run S .empty history l) :
    ∀ entry ∈ l.roll, entry.2.Lawful S entry.1 := by
  induction run with
  | nil => exact fun _ h => absurd h List.not_mem_nil
  | @snoc history h l m run step ih =>
    rcases step.roll_cases with ⟨hroll, -⟩ | ⟨slip, time, rfl, -, -, hroll⟩ |
      ⟨before, slip, st, st', after, hl, hm, -, moved⟩
    · rw [hroll]
      exact ih
    · intro entry hentry
      rw [hroll] at hentry
      rcases List.mem_append.1 hentry with hold | hnew
      · exact ih entry hold
      · rw [List.mem_singleton.1 hnew]
        intro p hp
        cases hp
    · exact forall_moved run.ordered hl hm ih (fun entry _ hentry => hentry) moved.lawful

theorem filterMap_waiting {β : Type} {after : List (Slip × Stand)} (f : Slip × Stand → Option β)
    (hf : ∀ slip, f (slip, .waiting) = none) (hafter : ∀ entry ∈ after, entry.2 = .waiting) :
    after.filterMap f = [] := by
  rw [List.filterMap_eq_nil_iff]
  rintro ⟨slip, st⟩ hentry
  rw [show st = .waiting from hafter _ hentry]
  exact hf slip

/-- The operations that were begun are those of the dispatches, each once and in order. -/
theorem Run.operations (run : Run S .empty history l) :
    begunIn history = l.roll.filterMap fun entry => entry.2.operation? entry.1 := by
  induction run with
  | nil => rfl
  | @snoc history h l m run step ih =>
    rw [begunIn_append, begunIn_singleton, ih]
    rcases step.roll_cases with ⟨hroll, quiet⟩ | ⟨slip, time, rfl, -, -, hroll⟩ |
      ⟨before, slip, st, st', after, hl, hm, behind, moved⟩
    · rw [hroll, quiet.begun]
      exact List.append_nil _
    · rw [hroll, List.filterMap_append]
      rfl
    · have hwaiting := filterMap_waiting (fun entry : Slip × Stand => entry.2.operation? entry.1)
        (fun _ => rfl) behind
      have hone : ∀ st : Stand, ((slip, st) :: after).filterMap
          (fun entry => entry.2.operation? entry.1) = (st.operation? slip).toList := by
        intro st
        rw [List.filterMap_cons, hwaiting]
        cases st.operation? slip <;> rfl
      rw [hl, hm, List.filterMap_append, List.filterMap_append, hone, hone, moved.added.1,
        List.append_assoc]

/-- The constructions are numbered in order. -/
theorem Run.numbers (run : Run S .empty history l) :
    (l.roll.filterMap fun entry => entry.2.number?) = List.range l.made := by
  induction run with
  | nil => rfl
  | @snoc history h l m run step ih =>
    rcases step.roll_cases with ⟨hroll, -⟩ | ⟨slip, time, rfl, -, -, hroll⟩ |
      ⟨before, slip, st, st', after, hl, hm, behind, moved⟩
    · rw [Ledger.made, hroll]
      exact ih
    · have hnone : ((l.roll ++ [(slip, Stand.waiting)]).filterMap fun entry => entry.2.number?) =
          l.roll.filterMap fun entry => entry.2.number? := by
        rw [List.filterMap_append]
        exact List.append_nil _
      rw [Ledger.made, hroll, hnone]
      exact ih
    · have hwaiting := filterMap_waiting (fun entry : Slip × Stand => entry.2.number?)
        (fun _ => rfl) behind
      have hone : ∀ st : Stand, ((slip, st) :: after).filterMap (fun entry => entry.2.number?) =
          st.number?.toList := by
        intro st
        rw [List.filterMap_cons, hwaiting]
        cases st.number? <;> rfl
      rw [Ledger.made, hm, List.filterMap_append, hone]
      rw [hl, List.filterMap_append, hone] at ih
      rcases moved.added.2 with hsame | ⟨hnone, hsome⟩
      · rw [hsame, ih, List.length_range]
      · rw [hnone] at ih
        have ih : (before.filterMap fun entry => entry.2.number?) = List.range l.made := by
          simpa using ih
        rw [hsome, ih]
        simp [List.range_succ]

/-- What goes through a kept sink has been announced. -/
theorem Run.late_mem (run : Run S .empty history l) {e : Event} (late : l.late = some e) :
    .late e ∈ history := by
  induction run with
  | nil => cases late
  | @snoc history h l m run step ih =>
    have hsame : ∀ h, l.late = some e → Happening.late e ∈ history ++ [h] := fun h hl =>
      List.mem_append_left _ (ih hl)
    cases step with
    | late e' =>
      rw [Option.some.inj late]
      exact List.mem_append_right _ List.mem_cons_self
    | through _ _ _ _ => cases late
    | _ => exact hsame _ late

/-- An operation whose kept sinks were not used has sent all the signals itself. -/
theorem Run.alone (run : Run S .empty history l) :
    ∀ entry ∈ l.roll, (∀ e, .late e ∈ history → e.id ≠ entry.1.id) → entry.2.Alone := by
  induction run with
  | nil => exact fun _ h => absurd h List.not_mem_nil
  | @snoc history h l m run step ih =>
    have earlier : ∀ {id : DispatchId}, (∀ e, .late e ∈ history ++ [h] → e.id ≠ id) →
        ∀ e, .late e ∈ history → e.id ≠ id :=
      fun unused e he => unused e (List.mem_append_left _ he)
    rcases step.roll_cases with ⟨hroll, -⟩ | ⟨slip, time, rfl, -, -, hroll⟩ |
      ⟨before, slip, st, st', after, hl, hm, -, moved⟩
    · intro entry hentry unused
      rw [hroll] at hentry
      exact ih entry hentry (earlier unused)
    · intro entry hentry unused
      rw [hroll] at hentry
      rcases List.mem_append.1 hentry with hold | hnew
      · exact ih entry hold (earlier unused)
      · rw [List.mem_singleton.1 hnew]
        intro p hp
        cases hp
    · refine forall_moved run.ordered hl hm ih
        (fun entry _ hentry unused => hentry (earlier unused)) fun hslip unused => ?_
      refine moved.alone (fun e late hid => ?_) (hslip (earlier unused))
      exact earlier unused e (run.late_mem late) hid

end Entries

end SerialDispatch.Ledger
