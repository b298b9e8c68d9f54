import SerialDispatch.Proofs.Dispatcher.Books

/-!
# Dispatches that are moved on

One dispatch goes from one stand to another and everything else stays as it is: `Ledger.Moved`. If
the worker goes with it, the ledger still fits (`Fits.moved`), and so it does when the worker comes
to its end, when a kept sink is used and when everything is torn down.
-/
namespace SerialDispatch

namespace Ledger

variable {l m : Ledger} {slip : Slip} {st st' : Stand}

/-- One dispatch is moved from one stand to another, and that is all. -/
structure Moved (l : Ledger) (slip : Slip) (st st' : Stand) (m : Ledger) : Prop where
  roll : ∃ before after, l.roll = before ++ (slip, st) :: after ∧
    m.roll = before ++ (slip, st') :: after
  opened : m.opened = l.opened
  late : m.late = l.late
  cancelled : m.cancelled = l.cancelled
  stopping : m.stopping = l.stopping
  torn : m.torn = l.torn

theorem moved_desk {p : Place} (desk : l.desk = some (slip, p)) (q : Place) :
    l.Moved slip (.at p) (.at q) { l with desk := some (slip, q) } := by
  refine ⟨⟨l.settled.map fun e => (e.1, .settled e.2), l.waiting.map (·, .waiting), ?_, ?_⟩,
    rfl, rfl, rfl, rfl, rfl⟩
  · simp [Ledger.roll, desk]
  · simp [Ledger.roll]

theorem moved_settled {p : Place} (desk : l.desk = some (slip, p)) (fate : Fate) :
    l.Moved slip (.at p) (.settled fate)
      { l with desk := none, settled := l.settled ++ [(slip, fate)] } := by
  refine ⟨⟨l.settled.map fun e => (e.1, .settled e.2), l.waiting.map (·, .waiting), ?_, ?_⟩,
    rfl, rfl, rfl, rfl, rfl⟩
  · simp [Ledger.roll, desk]
  · simp [Ledger.roll]

theorem moved_waiting {rest : List Slip} (free : l.desk = none) (first : l.waiting = slip :: rest)
    (p : Place) :
    l.Moved slip .waiting (.at p) { l with desk := some (slip, p), waiting := rest } := by
  refine ⟨⟨l.settled.map fun e => (e.1, .settled e.2), rest.map (·, .waiting), ?_, ?_⟩,
    rfl, rfl, rfl, rfl, rfl⟩
  · simp [Ledger.roll, free, first]
  · simp [Ledger.roll]

theorem moved_dropped {rest : List Slip} (free : l.desk = none)
    (first : l.waiting = slip :: rest) :
    l.Moved slip .waiting (.settled .dropped)
      { l with desk := none, settled := l.settled ++ [(slip, .dropped)], waiting := rest } := by
  refine ⟨⟨l.settled.map fun e => (e.1, .settled e.2), rest.map (·, .waiting), ?_, ?_⟩,
    rfl, rfl, rfl, rfl, rfl⟩
  · simp [Ledger.roll, free, first]
  · simp [Ledger.roll]

namespace Moved

variable (moved : l.Moved slip st st' m)

include moved

theorem accepted : m.accepted = l.accepted := by
  obtain ⟨before, after, hl, hm⟩ := moved.roll
  simp [Ledger.accepted, hl, hm]

theorem slip_mem : slip ∈ l.accepted := by
  obtain ⟨before, after, hl, -⟩ := moved.roll
  exact mem_accepted_of_roll hl

theorem dropped (same : st'.isDropped = st.isDropped) : m.dropped = l.dropped := by
  obtain ⟨before, after, hl, hm⟩ := moved.roll
  simp only [Ledger.dropped, hl, hm, List.filter_append, List.filter_cons, same]
  cases st.isDropped <;> simp

/-- A dispatch that is dropped now is dropped beside those that were before. -/
theorem mem_dropped (was : st.isDropped = false) (now : st'.isDropped = true) (id : DispatchId) :
    id ∈ m.dropped ↔ id ∈ l.dropped ∨ id = slip.id := by
  obtain ⟨before, after, hl, hm⟩ := moved.roll
  simp only [Ledger.dropped, hl, hm, List.filter_append, List.filter_cons, was, now,
    Bool.false_eq_true, if_false, if_true, List.map_append, List.map_cons, List.mem_append,
    List.mem_cons]
  constructor
  · rintro (h | h | h)
    · exact .inl (.inl h)
    · exact .inr h
    · exact .inl (.inr h)
  · rintro ((h | h) | h)
    · exact .inl h
    · exact .inr (.inr h)
    · exact .inr (.inl h)

theorem begun (stays : st.hasBegun = true → st'.hasBegun = true) {id : DispatchId}
    (begun : l.Begun id) : m.Begun id := by
  obtain ⟨before, after, hl, hm⟩ := moved.roll
  obtain ⟨⟨other, hother, hid⟩, hall⟩ := begun
  refine ⟨⟨other, by rw [moved.accepted]; exact hother, hid⟩, ?_⟩
  intro entry hentry hentryId
  rw [hm] at hentry
  rw [hl] at hall
  rcases List.mem_append.1 hentry with hb | hrest
  · exact hall entry (List.mem_append_left _ hb) hentryId
  · rcases List.mem_cons.1 hrest with rfl | ha
    · exact stays (hall (slip, st) (by simp) hentryId)
    · exact hall entry (by simp [ha]) hentryId

theorem made : m.made + st.number?.toList.length = l.made + st'.number?.toList.length := by
  obtain ⟨before, after, hl, hm⟩ := moved.roll
  simp only [Ledger.made, hl, hm, List.filterMap_append, List.filterMap_cons, List.length_append]
  cases st.number? <;> cases st'.number? <;> simp <;> omega

end Moved
end Ledger

section Fits

variable {S : Setup} {w : WorkerSide} {l m : Ledger} {slip : Slip} {st st' : Stand}

/-- A dispatch is moved, and the worker with it. -/
theorem Fits.moved_of_known (fits : Fits S w l) (moved : l.Moved slip st st' m)
    (stage : Stage) (waiting : List Task) (constructed : Nat) {tokens : TokenPool}
    (known : Known w.handles w.nextId tokens m)
    (begun : st.hasBegun = true → st'.hasBegun = true) (was : w.stage.isOver = false)
    (there : stage.isOver = false) (fit : stage.Fits S m.desk m.waiting)
    (queue : m.waiting.map Slip.task = waiting)
    (made : constructed + st.number?.toList.length =
      w.constructed + st'.number?.toList.length) :
    Fits S { w with
      tokens := tokens
      inbox := { w.inbox with waiting := waiting }
      stage := stage
      constructed := constructed } m where
  opened := moved.opened.trans fits.opened
  late := moved.late.trans fits.late
  torn := by
    have ht : m.torn = false := moved.torn.trans (fits.not_dead was)
    refine ⟨fun h => ?_, fun h => ?_⟩
    · rw [ht] at h
      cases h
    · have h : stage = .dead := h
      rw [h] at there
      cases there
  stopping := moved.stopping.trans fits.stopping
  held := fits.held
  closed := fits.closed.trans (was.trans there.symm)
  ended h := by
    have h : stage = .ended := h
    rw [h] at there
    cases there
  known := known
  kept id hid := moved.begun begun (fits.kept id hid)
  made := by
    have hmade := moved.made
    have hl := fits.made
    show constructed = m.made
    omega
  queue _ := queue
  worker := fit

theorem Fits.moved (fits : Fits S w l) (moved : l.Moved slip st st' m) (stage : Stage)
    (waiting : List Task) (constructed : Nat) (dropped : st'.isDropped = st.isDropped)
    (begun : st.hasBegun = true → st'.hasBegun = true) (was : w.stage.isOver = false)
    (there : stage.isOver = false) (fit : stage.Fits S m.desk m.waiting)
    (queue : m.waiting.map Slip.task = waiting)
    (made : constructed + st.number?.toList.length =
      w.constructed + st'.number?.toList.length) :
    Fits S { w with
      inbox := { w.inbox with waiting := waiting }
      stage := stage
      constructed := constructed } m :=
  fits.moved_of_known moved stage waiting constructed
    (fits.known.congr moved.accepted moved.cancelled (moved.dropped dropped) moved.torn)
    begun was there fit queue made

/-- The worker ends when nothing waits and it was told to stop. -/
theorem Fits.end (fits : Fits S w l) (idle : w.stage = .idle) (empty : w.inbox.waiting = [])
    (stopping : w.inbox.stopping = true) :
    Fits S { w with stage := .ended, inbox := w.inbox.close } l := by
  have there : w.stage.isOver = false := by rw [idle]; rfl
  have ht := fits.not_dead there
  have hworker := fits.worker
  rw [idle] at hworker
  have hwaiting : l.waiting = [] := by
    have h := fits.queue there
    rw [empty] at h
    exact List.map_eq_nil_iff.1 h
  exact ⟨fits.opened, fits.late, by simp [ht], fits.stopping, fits.held, rfl, fun _ => stopping,
    fits.known, fits.kept, fits.made, (fun h => by cases h), hworker, hwaiting⟩

theorem Place.hear_same (p : Place) (signal : Signal) : (p.hear signal).isDropped = p.isDropped ∧
    (p.hear signal).hasBegun = p.hasBegun ∧ (p.hear signal).number? = p.number? := by
  cases p <;> exact ⟨rfl, rfl, rfl⟩

/-- A signal through a kept sink does not move the worker. -/
theorem Stage.Fits.hear {desk : Option (Slip × Place)} {waiting : List Slip} {stage : Stage}
    (fit : stage.Fits S desk waiting) (e : Event) :
    stage.Fits S (desk.map fun d => (d.1, if d.1.id = e.id then d.2.hear e.signal else d.2))
      waiting := by
  have heard : ∀ {slip : Slip} {p : Place}, desk = some (slip, p) →
      desk.map (fun d => (d.1, if d.1.id = e.id then d.2.hear e.signal else d.2)) =
        some (slip, if slip.id = e.id then p.hear e.signal else p) := fun h => by rw [h]; rfl
  cases stage with
  | idle => rw [show desk = none from fit]; rfl
  | window task wake =>
    obtain ⟨slip, htask, hdesk⟩ := fit
    exact ⟨slip, htask, by rw [heard hdesk]; simp [Place.hear]⟩
  | ready task =>
    obtain ⟨slip, htask, hdesk⟩ := fit
    exact ⟨slip, htask, by rw [heard hdesk]; simp [Place.hear]⟩
  | running task n rest wake =>
    obtain ⟨slip, x, htask, hdesk, hn, leaves⟩ := fit
    by_cases hid : slip.id = e.id
    · exact ⟨slip, x.hear e.signal, htask, by rw [heard hdesk, if_pos hid]; rfl, hn, leaves⟩
    · exact ⟨slip, x, htask, by rw [heard hdesk, if_neg hid], hn, leaves⟩
  | leaving task result =>
    obtain ⟨slip, x, htask, hdesk⟩ := fit
    by_cases hid : slip.id = e.id
    · exact ⟨slip, x.hear e.signal, htask, by rw [heard hdesk, if_pos hid]; rfl⟩
    · exact ⟨slip, x, htask, by rw [heard hdesk, if_neg hid]⟩
  | ended => exact ⟨by rw [fit.1]; rfl, fit.2⟩
  | dead => trivial

/-- What is read off the roll only. -/
structure Ledger.SameRoll (l m : Ledger) : Prop where
  accepted : m.accepted = l.accepted
  dropped : m.dropped = l.dropped
  made : m.made = l.made
  begun : ∀ id, l.Begun id → m.Begun id

theorem Ledger.SameRoll.of_eq (h : m.roll = l.roll) : l.SameRoll m := by
  refine ⟨?_, ?_, ?_, fun id => ?_⟩
  · rw [Ledger.accepted, h]
    rfl
  · rw [Ledger.dropped, h]
    rfl
  · rw [Ledger.made, h]
    rfl
  · simp only [Ledger.Begun, Ledger.accepted, h]
    exact fun begun => begun

theorem Ledger.sameRoll_hear (l : Ledger) (e : Event) : l.SameRoll (l.hear e) := by
  cases hd : l.desk with
  | none => exact .of_eq (by simp [Ledger.hear, Ledger.roll, hd])
  | some d =>
    obtain ⟨slip, p⟩ := d
    by_cases hid : slip.id = e.id
    · have moved := Ledger.moved_desk hd (p.hear e.signal)
      have hroll : (l.hear e).roll =
          Ledger.roll { l with desk := some (slip, p.hear e.signal) } := by
        simp [Ledger.hear, Ledger.roll, hd, hid]
      have same := Ledger.SameRoll.of_eq hroll
      obtain ⟨hdropped, hbegun, hnumber⟩ := p.hear_same e.signal
      refine ⟨same.accepted.trans moved.accepted, same.dropped.trans (moved.dropped hdropped), ?_,
        fun id begun => same.begun id (moved.begun ?_ begun)⟩
      · have hmade := moved.made
        simp only [Stand.number?, Stand.place?, Option.bind_some, hnumber] at hmade
        rw [same.made]
        omega
      · exact fun h => hbegun.trans h
    · exact .of_eq (by simp [Ledger.hear, Ledger.roll, hd, hid])

/-- A signal through a kept sink changes nothing of what the session knows. -/
theorem Fits.hear (fits : Fits S w l) (e : Event) :
    Fits S w (Ledger.hear { l with late := some e } e) := by
  obtain ⟨accepted, dropped, made, begun⟩ := Ledger.sameRoll_hear { l with late := some e } e
  exact ⟨fits.opened, rfl, fits.torn, fits.stopping, fits.held, fits.closed, fits.ended,
    fits.known.congr accepted rfl dropped rfl, fun id hid => begun id (fits.kept id hid),
    fits.made.trans made.symm, fits.queue, fits.worker.hear e⟩

/-- Everything is torn down. -/
theorem Fits.tearDown (fits : Fits S w l) {owner : Owner} (held : owner = .held ↔ w.owner = .held) :
    Fits S { w with stage := .dead, inbox := w.inbox.close, owner := owner }
      { l with torn := true } where
  opened := fits.opened
  late := fits.late
  torn := ⟨fun _ => rfl, fun _ => rfl⟩
  stopping := fits.stopping
  held := fits.held.trans (not_congr held).symm
  closed := rfl
  ended h := by cases h
  known := by
    obtain ⟨refused, hhandles, -⟩ := fits.known.handed
    exact ⟨fits.known.ascending, fits.known.fresh, ⟨refused, hhandles, fun h => by cases h⟩,
      fits.known.marked, fits.known.flags⟩
  kept := fits.kept
  made := fits.made
  queue h := by cases h
  worker := trivial

end Fits

end SerialDispatch
