import SerialDispatch.Proofs.Dispatcher.Ledger

/-!
# What a stand says of its dispatch

Where a dispatch stands tells which milestones it has reached, which signals were sent for it and
which operation was begun. Every step of a stand adds to these what the happening of the step says,
and it concerns no other dispatch.
-/
namespace SerialDispatch

/-- A message tells of no milestone, and of the signal of one dispatch only. -/
theorem signal_of_message {h : Happening} {id other : DispatchId} {signal : Signal}
    (posts : h.message? = some (.event ⟨id, signal⟩)) (hother : other ≠ id) :
    h.signal? other = none := by
  rw [Ledger.signal_of_posts posts, if_neg (Ne.symm hother)]

section Stands

variable {S : Setup} {slip : Slip} {cancelled : Bool} {next : Nat} {late : Option Event}
variable {st st' : Stand} {h : Happening}

/-- What moves a dispatch on tells of no other dispatch. -/
theorem Stand.Step.others (step : st.Step S slip cancelled next late h st') {id : DispatchId}
    (other : id ≠ slip.id) : h.milestone? id = none ∧ h.signal? id = none := by
  have reached : ∀ milestone time, Happening.milestone? id (.reached slip.task milestone time) =
      none := fun _ _ => if_neg (Ne.symm other)
  cases step with
  | taken time => exact ⟨reached _ time, rfl⟩
  | discarded time => exact ⟨reached _ time, rfl⟩
  | worked moves =>
    cases moves with
    | checked time => exact ⟨reached _ time, rfl⟩
    | constructed time => exact ⟨reached _ time, rfl⟩
    | broke time breaks => exact ⟨reached _ time, rfl⟩
    | ran works => exact ⟨rfl, rfl⟩
    | looked x time => exact ⟨reached _ time, rfl⟩
    | stepped x word reply => exact ⟨rfl, rfl⟩
    | emitted x posts _ =>
      exact ⟨(Ledger.no_milestone_of_message posts).2.2 id, signal_of_message posts other⟩
    | returned x result time faithful => exact ⟨reached _ time, rfl⟩
  | @heard p _ signal begun kept posts _ =>
    exact ⟨(Ledger.no_milestone_of_message posts).2.2 id, signal_of_message posts other⟩
  | finished fate posts =>
    exact ⟨(Ledger.no_milestone_of_message posts).2.2 id, signal_of_message posts other⟩

/-- A milestone is what it adds to those of its dispatch. -/
theorem Stand.Step.milestones (step : st.Step S slip cancelled next late h st') :
    st'.milestones slip = st.milestones slip ++ (h.milestone? slip.id).toList := by
  have reached : ∀ milestone time,
      Happening.milestone? slip.id (.reached slip.task milestone time) = some milestone :=
    fun _ _ => if_pos rfl
  cases step with
  | taken time => rw [reached]; rfl
  | discarded time => rw [reached]; rfl
  | worked moves =>
    cases moves with
    | checked time =>
      rw [reached]
      cases cancelled <;> rfl
    | constructed time => rw [reached]; rfl
    | broke time breaks => rw [reached]; rfl
    | ran works => rfl
    | looked x time =>
      rw [reached]
      simp [Stand.milestones, Stand.place?, Place.milestones, Execution.look]
    | stepped x word reply => exact (List.append_nil _).symm
    | emitted x posts _ => rw [(Ledger.no_milestone_of_message posts).2.2 slip.id]; simp; rfl
    | returned x result time faithful =>
      rw [reached]
      simp [Stand.milestones, Stand.place?, Place.milestones]
  | @heard p _ signal begun kept posts _ =>
    rw [(Ledger.no_milestone_of_message posts).2.2 slip.id]
    cases p <;> simp <;> rfl
  | finished fate posts =>
    rw [(Ledger.no_milestone_of_message posts).2.2 slip.id]
    simp [Stand.milestones, Stand.place?]

/-- What the signals sent for a dispatch are, by where it stands. -/
def Stand.Signals (slip : Slip) (signals : List Signal) : Stand → Prop
  | .waiting => signals = []
  | .at p => signals = p.signals
  | .settled fate => ∃ after : List Signal, (∀ s ∈ after, s.isFinished = false) ∧
      signals = fate.place.signals ++ .finished (fate.outcome slip.kind) :: after

theorem Stand.Step.signals {signals : List Signal} (step : st.Step S slip cancelled next late h st')
    (before : st.Signals slip signals) :
    st'.Signals slip (signals ++ (h.signal? slip.id).toList) := by
  have posted : ∀ {signal : Signal}, h.message? = some (.event ⟨slip.id, signal⟩) →
      h.signal? slip.id = some signal := fun posts => by
    rw [Ledger.signal_of_posts posts, if_pos rfl]
  have same : ∀ {p q : Place}, h.signal? slip.id = none → signals = p.signals →
      q.signals = p.signals → signals ++ (h.signal? slip.id).toList = q.signals :=
    fun hn hs hq => by rw [hn, hs, hq]; exact List.append_nil _
  cases step with
  | taken time => exact same (p := .taken) rfl before rfl
  | discarded time => exact same (p := .dropped) rfl before rfl
  | worked moves =>
    cases moves with
    | checked time => exact same rfl before (by cases cancelled <;> rfl)
    | emitted x posts _ =>
      rw [posted posts, show signals = x.signals from before]
      rfl
    | _ => exact same rfl before rfl
  | @heard p _ signal begun kept posts _ =>
    rw [posted posts, show signals = p.signals from before]
    cases p with
    | busy x => rfl
    | left x result => rfl
    | _ => cases begun
  | finished fate posts =>
    rw [posted posts, show signals = fate.place.signals from before]
    exact ⟨[], fun _ h => absurd h List.not_mem_nil, rfl⟩

/-- What is known of an operation at any time. -/
structure Execution.Sound (x : Execution) : Prop where
  unfinished : ∀ signal ∈ x.signals, signal.isFinished = false
  own : x.own.Sublist x.signals

/-- What is known of an operation that is over: it has done what its body says, or its construction
has panicked. -/
def Execution.Explains (S : Setup) (slip : Slip) (x : Execution) (result : Option Result) : Prop :=
  if x.broken then
    S.breaks x.number slip.kind = true ∧ x.own = [] ∧ x.looks = [] ∧ result = none
  else
    S.breaks x.number slip.kind = false ∧
      BodyStep.evaluate slip.kind (S.body slip.task.request) x.looks = (x.own, result)

def Place.Lawful (S : Setup) (slip : Slip) : Place → Prop
  | .busy x => x.Sound ∧ x.broken = false ∧ S.breaks x.number slip.kind = false
  | .left x result => x.Sound ∧ x.Explains S slip result
  | _ => True

def Stand.Lawful (S : Setup) (slip : Slip) (st : Stand) : Prop :=
  ∀ p, st.place? = some p → p.Lawful S slip

theorem Execution.Sound.hear {x : Execution} (sound : x.Sound) {signal : Signal}
    (unfinished : signal.isFinished = false) : (x.hear signal).Sound where
  unfinished := by
    intro s hs
    rcases List.mem_append.1 hs with hs | hs
    · exact sound.unfinished s hs
    · rw [List.mem_singleton.1 hs]
      exact unfinished
  own := List.Sublist.trans sound.own (List.sublist_append_left _ _)

theorem Execution.Sound.emit {x : Execution} (sound : x.Sound) {signal : Signal}
    (unfinished : signal.isFinished = false) : (x.emit signal).Sound where
  unfinished := (sound.hear unfinished).unfinished
  own := List.Sublist.append sound.own (List.Sublist.refl _)

theorem Place.Step.lawful {p q : Place} (step : p.Step S slip cancelled next h q)
    (lawful : p.Lawful S slip) : q.Lawful S slip := by
  cases step with
  | checked time => cases cancelled <;> trivial
  | constructed time => trivial
  | broke time breaks =>
    refine ⟨⟨fun _ h => absurd h List.not_mem_nil, List.Sublist.refl _⟩, ?_⟩
    simp [Execution.Explains, Execution.broke, breaks]
  | ran works => exact ⟨⟨fun _ h => absurd h List.not_mem_nil, List.Sublist.refl _⟩, rfl, works⟩
  | looked x time => exact ⟨⟨lawful.1.unfinished, lawful.1.own⟩, lawful.2⟩
  | stepped x word reply => exact lawful
  | emitted x posts unfinished => exact ⟨lawful.1.emit unfinished, lawful.2⟩
  | returned x result time faithful =>
    obtain ⟨sound, whole, works⟩ := lawful
    exact ⟨sound, by simp [Execution.Explains, whole, works, faithful]⟩

theorem Stand.Step.lawful (step : st.Step S slip cancelled next late h st')
    (lawful : st.Lawful S slip) : st'.Lawful S slip := by
  intro q hq
  cases step with
  | taken time => cases hq; trivial
  | discarded time => cases hq; trivial
  | worked moves =>
    cases hq
    exact moves.lawful (lawful _ rfl)
  | @heard p _ signal begun kept posts unfinished =>
    cases hq
    have hp := lawful p rfl
    cases p with
    | busy x => exact ⟨hp.1.hear unfinished, hp.2⟩
    | left x result => exact ⟨hp.1.hear unfinished, hp.2⟩
    | _ => cases begun
  | finished fate posts => exact lawful q hq

/-- All signals of the operation were sent by its body. -/
def Place.Alone : Place → Prop
  | .busy x | .left x _ => x.own = x.signals
  | _ => True

def Stand.Alone (st : Stand) : Prop := ∀ p, st.place? = some p → p.Alone

theorem Place.Step.alone {p q : Place} (step : p.Step S slip cancelled next h q)
    (alone : p.Alone) : q.Alone := by
  cases step with
  | checked time => cases cancelled <;> trivial
  | constructed time => trivial
  | broke time breaks => rfl
  | ran works => rfl
  | looked x time => exact alone
  | stepped x word reply => exact alone
  | @emitted x _ signal posts unfinished => exact congrArg (· ++ [signal]) alone
  | returned x result time faithful => exact alone

theorem Stand.Step.alone (step : st.Step S slip cancelled next late h st')
    (unused : ∀ e, late = some e → e.id ≠ slip.id) (alone : st.Alone) : st'.Alone := by
  intro q hq
  cases step with
  | taken time => cases hq; trivial
  | discarded time => cases hq; trivial
  | worked moves =>
    cases hq
    exact moves.alone (alone _ rfl)
  | heard begun kept posts unfinished => exact absurd rfl (unused _ kept)
  | finished fate posts => exact alone q hq

/-- The operation that was begun for a dispatch, if one was. -/
def Place.operation? (slip : Slip) : Place → Option Operation
  | .busy x | .left x _ =>
    if x.broken then none
    else some ⟨x.number, slip.task.request, slip.task.input, slip.kind.isCancellable⟩
  | _ => none

def Stand.operation? (slip : Slip) (st : Stand) : Option Operation :=
  st.place?.bind (Place.operation? slip)

/-- What a step begins or constructs for its dispatch is what is added. -/
theorem Stand.Step.added (step : st.Step S slip cancelled next late h st') :
    (st'.operation? slip).toList = (st.operation? slip).toList ++ h.begun?.toList ∧
      (st'.number? = st.number? ∨ st.number? = none ∧ st'.number? = some next) := by
  cases step with
  | taken time => exact ⟨rfl, .inl rfl⟩
  | discarded time => exact ⟨rfl, .inl rfl⟩
  | worked moves =>
    cases moves with
    | checked time => cases cancelled <;> exact ⟨rfl, .inl rfl⟩
    | constructed time => exact ⟨rfl, .inr ⟨rfl, rfl⟩⟩
    | broke time breaks => exact ⟨rfl, .inl rfl⟩
    | ran works => exact ⟨rfl, .inl rfl⟩
    | looked x time => exact ⟨(List.append_nil _).symm, .inl rfl⟩
    | stepped x word reply => exact ⟨(List.append_nil _).symm, .inl rfl⟩
    | emitted x posts _ =>
      rw [(Ledger.no_milestone_of_message posts).2.1]
      exact ⟨(List.append_nil _).symm, .inl rfl⟩
    | returned x result time faithful => exact ⟨(List.append_nil _).symm, .inl rfl⟩
  | @heard p _ signal begun kept posts unfinished =>
    rw [(Ledger.no_milestone_of_message posts).2.1]
    cases p <;> exact ⟨(List.append_nil _).symm, .inl rfl⟩
  | finished fate posts =>
    rw [(Ledger.no_milestone_of_message posts).2.1]
    exact ⟨(List.append_nil _).symm, .inl rfl⟩

end Stands

end SerialDispatch
