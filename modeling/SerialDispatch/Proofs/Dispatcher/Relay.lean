import SerialDispatch.Proofs.Dispatcher.Reading

/-!
# The messages of a history, passed on one by one

What the messages of a history come to when a `Relay` passes them on in the order in which they were
sent: every callback is told the signals of its own dispatch down to the terminal one, and no two
dispatches mix; main statement: `Ledger.Run.relayed`.
-/
namespace SerialDispatch

namespace Slip

/-- Who is to be told of the dispatch. -/
def address (slip : Slip) : DispatchId × Nat := (slip.id, slip.callback)

/-- The calls of its callback, for signals of the dispatch. -/
def calls (slip : Slip) (signals : List Signal) : List (Nat × Event) :=
  signals.map fun signal => (slip.callback, ⟨slip.id, signal⟩)

theorem calls_append (slip : Slip) (first second : List Signal) :
    slip.calls (first ++ second) = slip.calls first ++ slip.calls second := List.map_append

end Slip

/-- The signals of a dispatch down to the terminal one. -/
def Fate.signals (kind : Kind) (fate : Fate) : List Signal :=
  fate.place.signals ++ [.finished (fate.outcome kind)]

theorem lookup_eq_none {pairs : List (DispatchId × Nat)} {id : DispatchId}
    (h : ∀ pair ∈ pairs, pair.1 ≠ id) : pairs.lookup id = none := by
  refine List.lookup_eq_none_iff.2 fun pair hpair => ?_
  simpa using (h pair hpair).symm

namespace Ledger

variable {S : Setup} {l m : Ledger} {h : Happening} {history : List Happening} {r : Relay}
variable {slip : Slip}

/-- The dispatches whose callbacks have still to be told of the end. -/
def pending (l : Ledger) : List (DispatchId × Nat) :=
  (l.desk.toList.map Prod.fst ++ l.waiting).map Slip.address ++ l.opened.toList

/-- What the callbacks are told, dispatch after dispatch. -/
def told (l : Ledger) : List (Nat × Event) :=
  l.settled.flatMap (fun entry => entry.1.calls (entry.2.signals entry.1.kind)) ++
    l.desk.toList.flatMap fun d => d.1.calls d.2.signals

/-- A relay that has passed on all that was sent. -/
structure Relayed (l : Ledger) (r : Relay) : Prop where
  known : ∀ id, r.known id = l.pending.lookup id
  told : r.told = l.told

theorem mem_accepted_of_unfinished (hslip : slip ∈ l.desk.toList.map Prod.fst ++ l.waiting) :
    slip ∈ l.accepted := by
  have heq : l.accepted = l.settled.map Prod.fst ++ (l.desk.toList.map Prod.fst ++ l.waiting) := by
    simp [Ledger.accepted, roll, Function.comp_def]
  rw [heq]
  exact List.mem_append_right _ hslip

/-- An id above all others is not pending, unless it is that of the callback sent ahead. -/
theorem lookup_pending_eq_none {id : DispatchId} (above : ∀ slip ∈ l.accepted, slip.id ≠ id)
    (unopened : ∀ callback, l.opened ≠ some (id, callback)) : l.pending.lookup id = none := by
  refine lookup_eq_none fun pair hpair => ?_
  rcases List.mem_append.1 hpair with hmap | hopened
  · obtain ⟨slip, hslip, rfl⟩ := List.mem_map.1 hmap
    exact above slip (mem_accepted_of_unfinished hslip)
  · intro hid
    have hopened : l.opened = some pair := Option.mem_toList.1 hopened
    exact unopened pair.2 (by rw [hopened, ← hid])

/-- Nobody else is to be told of the dispatch at the desk. -/
theorem Ordered.lookup_behind (ordered : l.Ordered) {p : Place} (desk : l.desk = some (slip, p)) :
    (pending { l with desk := none }).lookup slip.id = none := by
  have hslip : slip ∈ l.accepted := by simp [Ledger.accepted, roll, desk]
  refine lookup_eq_none fun pair hpair => ?_
  rcases List.mem_append.1 hpair with hwaiting | hopened
  · obtain ⟨other, hother, rfl⟩ := List.mem_map.1 hwaiting
    have hother : other ∈ l.waiting := by simpa using hother
    have hpairs := ordered.ascending
    have heq : l.accepted = l.settled.map Prod.fst ++ slip :: l.waiting := by
      simp [Ledger.accepted, roll, desk, Function.comp_def]
    rw [heq, List.pairwise_append, List.pairwise_cons] at hpairs
    exact Nat.ne_of_gt (hpairs.2.1.1 other hother)
  · have hopened : l.opened = some pair := Option.mem_toList.1 hopened
    exact Nat.ne_of_gt (ordered.fresh pair.1 pair.2 hopened slip hslip)

theorem lookup_desk {p : Place} (desk : l.desk = some (slip, p)) (id : DispatchId) :
    l.pending.lookup id =
      if id = slip.id then some slip.callback else (pending { l with desk := none }).lookup id := by
  by_cases hid : id = slip.id
  · simp [pending, desk, Slip.address, hid]
  · simp [pending, desk, Slip.address, hid, List.lookup_cons, beq_eq_false_iff_ne.2 hid]

/-- What goes through a kept sink after the end of its dispatch is for nobody. -/
theorem lookup_begun (ordered : l.Ordered) {id : DispatchId} (begun : l.Begun id)
    (away : ∀ slip p, l.desk = some (slip, p) → slip.id ≠ id) : l.pending.lookup id = none := by
  obtain ⟨⟨first, hfirst, hid⟩, hall⟩ := begun
  refine lookup_eq_none fun pair hpair => ?_
  rcases List.mem_append.1 hpair with hmap | hopened
  · obtain ⟨slip, hslip, rfl⟩ := List.mem_map.1 hmap
    rcases List.mem_append.1 hslip with hdesk | hwaiting
    · obtain ⟨⟨slip, p⟩, hd, rfl⟩ := List.mem_map.1 hdesk
      exact away slip p (Option.mem_toList.1 hd)
    · intro heq
      have hroll : (slip, Stand.waiting) ∈ l.roll := by simp [roll, hwaiting]
      have hbegun := hall (slip, .waiting) hroll heq
      cases hbegun
  · have hopened : l.opened = some pair := Option.mem_toList.1 hopened
    have hlt := ordered.fresh pair.1 pair.2 hopened first hfirst
    exact Nat.ne_of_gt (by rw [← hid]; exact hlt)

/-- What tells of nothing that is sent leaves all as it was relayed. -/
theorem Relayed.unsent (relayed : l.Relayed r) (silent : h.message? = none)
    (pending : m.pending = l.pending) (told : m.told = l.told) :
    m.Relayed (r.passAll h.message?.toList) := by
  rw [silent]
  exact ⟨fun id => by rw [pending]; exact relayed.known id, by rw [told]; exact relayed.told⟩

/-- A callback is sent ahead. -/
theorem Relayed.attach (relayed : l.Relayed r) {id : DispatchId} {callback : Callback Command}
    (alone : l.opened = none) (fresh : ∀ slip ∈ l.accepted, slip.id < id) :
    Relayed { l with opened := some (id, callback.number) } (r.pass (.attach id callback)) := by
  refine ⟨fun other => ?_, relayed.told⟩
  have hold : l.pending.lookup id = none :=
    lookup_pending_eq_none (fun slip hslip => Nat.ne_of_lt (fresh slip hslip))
      fun callback h => by rw [alone] at h; cases h
  have hnew : pending { l with opened := some (id, callback.number) } =
      l.pending ++ [(id, callback.number)] := by simp [pending, alone]
  rw [hnew, List.lookup_append]
  by_cases hid : other = id
  · rw [hid, hold]
    simp [Relay.pass, Relay.set]
  · have hother : [(id, callback.number)].lookup other = none :=
      lookup_eq_none fun pair hpair => by rw [List.mem_singleton.1 hpair]; exact Ne.symm hid
    rw [hother, Option.or_none, ← relayed.known other]
    simp [Relay.pass, Relay.set, hid]

theorem told_desk {p : Place} (desk : l.desk = some (slip, p)) :
    l.told = l.settled.flatMap (fun entry => entry.1.calls (entry.2.signals entry.1.kind)) ++
      slip.calls p.signals := by
  simp [told, desk]

theorem told_moved {p q : Place} (desk : l.desk = some (slip, p)) (same : q.signals = p.signals) :
    told { l with desk := some (slip, q) } = l.told := by
  simp [told, desk, same]

/-- The callback of the dispatch at the desk is told a signal that is not the last. -/
theorem Relayed.hear (relayed : l.Relayed r) {p q : Place} (desk : l.desk = some (slip, p))
    {signal : Signal} (unfinished : signal.isFinished = false)
    (heard : q.signals = p.signals ++ [signal]) {m : Ledger} (hm : m.desk = some (slip, q))
    (settled : m.settled = l.settled) (pending : m.pending = l.pending) :
    m.Relayed (r.pass (.event ⟨slip.id, signal⟩ : Message Command)) := by
  have hknown : r.known slip.id = some slip.callback := by
    rw [relayed.known, lookup_desk desk, if_pos rfl]
  refine ⟨fun id => ?_, ?_⟩
  · rw [Relay.known_pass, unfinished, pending]
    simpa using relayed.known id
  · rw [Relay.told_pass r hknown, relayed.told, told_desk desk, told_desk hm, settled, heard,
      Slip.calls_append, List.append_assoc]
    rfl

/-- The callback of the dispatch at the desk is told how that has ended. -/
theorem Relayed.finish (relayed : l.Relayed r) (ordered : l.Ordered) {fate : Fate}
    (desk : l.desk = some (slip, fate.place)) :
    Relayed { l with desk := none, settled := l.settled ++ [(slip, fate)] }
      (r.pass (.event ⟨slip.id, .finished (fate.outcome slip.kind)⟩ : Message Command)) := by
  have hknown : r.known slip.id = some slip.callback := by
    rw [relayed.known, lookup_desk desk, if_pos rfl]
  refine ⟨fun id => ?_, ?_⟩
  · have hpending : pending { l with desk := none, settled := l.settled ++ [(slip, fate)] } =
        pending { l with desk := none } := rfl
    rw [hpending, Relay.known_pass]
    by_cases hid : id = slip.id
    · rw [hid, ordered.lookup_behind desk]
      simp [Signal.isFinished]
    · have hother := relayed.known id
      rw [lookup_desk desk, if_neg hid] at hother
      simpa [hid] using hother
  · rw [Relay.told_pass r hknown, relayed.told, told_desk desk]
    simp [Ledger.told, Fate.signals, Slip.calls_append]
    rfl

/-- What goes through a kept sink is told while the dispatch is at the desk, and is for nobody
afterwards. -/
theorem Relayed.through (relayed : l.Relayed r) (ordered : l.Ordered) {e : Event}
    (begun : l.Begun e.id) (unfinished : e.signal.isFinished = false) :
    (l.hear e).Relayed (r.pass (.event e : Message Command)) := by
  by_cases hdesk : ∃ slip p, l.desk = some (slip, p) ∧ slip.id = e.id
  · obtain ⟨slip, p, desk, hid⟩ := hdesk
    have hroll : (slip, Stand.at p) ∈ l.roll := by simp [roll, desk]
    have hbegun : p.hasBegun = true := begun.2 _ hroll hid
    have heard : (p.hear e.signal).signals = p.signals ++ [e.signal] := by
      cases p with
      | busy x => rfl
      | left x result => rfl
      | _ => cases hbegun
    have he : e = ⟨slip.id, e.signal⟩ := by rw [hid]
    rw [he]
    refine relayed.hear desk unfinished heard ?_ rfl ?_
    · simp [Ledger.hear, desk]
    · simp [pending, Ledger.hear, desk]
  · have away : ∀ slip p, l.desk = some (slip, p) → slip.id ≠ e.id :=
      fun slip p desk hid => hdesk ⟨slip, p, desk, hid⟩
    have hnone : r.known e.id = none := by
      rw [relayed.known]
      exact lookup_begun ordered begun away
    have hsame : (l.hear e).desk = l.desk := by
      cases hd : l.desk with
      | none => simp [Ledger.hear, hd]
      | some d => simp [Ledger.hear, hd, away d.1 d.2 hd]
    rw [Relay.pass_unknown r hnone]
    refine ⟨fun id => ?_, ?_⟩
    · rw [relayed.known]
      simp only [pending, hsame]
      rfl
    · rw [relayed.told]
      simp only [Ledger.told, hsame]
      rfl

theorem Step.relayed (step : l.Step S h m) (ordered : l.Ordered) (there : m.torn = false)
    (relayed : l.Relayed r) : m.Relayed (r.passAll h.message?.toList) := by
  have posted : ∀ {message : Message Command}, h.message? = some message →
      r.passAll h.message?.toList = r.pass message := fun posts => by rw [posts]; rfl
  cases step with
  | silent silent =>
    refine relayed.unsent ?_ rfl rfl
    cases h <;> first | rfl | cases silent
  | attached posts alone fresh =>
    rw [posted posts]
    exact relayed.attach alone fresh
  | submitted slip time opened going _ =>
    refine relayed.unsent rfl ?_ rfl
    simp [pending, opened, Slip.address]
  | refused opened torn =>
    have there : l.torn = false := there
    rw [torn] at there
    cases there
  | taken time free first going =>
    refine relayed.unsent rfl ?_ ?_
    · simp [pending, free, first]
    · simp [told, free, Place.signals, Slip.calls]
  | discarded time free first stopping =>
    refine relayed.unsent rfl ?_ ?_
    · simp [pending, free, first]
    · simp [told, free, Place.signals, Slip.calls]
  | @worked slip p q h desk alone moves =>
    have same : pending { l with desk := some (slip, q) } = l.pending := by simp [pending, desk]
    cases moves with
    | emitted x posts unfinished =>
      rw [posted posts]
      exact relayed.hear desk unfinished rfl rfl rfl same
    | checked time =>
      refine relayed.unsent rfl same (told_moved desk ?_)
      cases decide (slip.id ∈ l.cancelled) <;> rfl
    | _ => exact relayed.unsent rfl same (told_moved desk rfl)
  | finished desk posts =>
    rw [posted posts]
    exact relayed.finish ordered desk
  | through late posts begun unfinished =>
    rw [posted posts]
    exact relayed.through ordered begun unfinished
  | _ => exact relayed.unsent rfl rfl rfl

/-- All messages of a history are passed on: the callbacks are told what the ledger says. -/
theorem Run.relayed (run : Run S .empty history l) (there : l.torn = false) :
    l.Relayed (Relay.start.passAll (messagesIn history)) := by
  induction run with
  | nil => exact ⟨fun _ => rfl, rfl⟩
  | snoc run step ih =>
    rw [messagesIn_append, messagesIn_singleton, Relay.passAll_append]
    exact step.relayed run.ordered there (ih (step.there there))

end Ledger
end SerialDispatch
