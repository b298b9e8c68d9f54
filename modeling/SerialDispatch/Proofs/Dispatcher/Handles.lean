import SerialDispatch.Proofs.Dispatcher.Reading

/-!
# Handles and tokens of a session

A session gives out ids and tokens together, so a handle, a waiting task and the task that the
worker is at share a token exactly when they stand for the same dispatch. `Known` says so, and that
the flag of a token is raised by a cancellation or by being discarded, and by nothing else.
-/
namespace SerialDispatch

namespace TokenPool

variable (p : TokenPool) (t u : Token)

@[simp] theorem isCancelled_grow : p.grow.isCancelled t = p.isCancelled t := by
  unfold isCancelled grow
  by_cases h : t < p.flags.length
  · rw [List.getElem?_append_left h]
  · have h : p.flags.length ≤ t := Nat.le_of_not_lt h
    rw [List.getElem?_append_right h, List.getElem?_eq_none h]
    cases t - p.flags.length <;> simp

theorem isCancelled_cancel (h : t < p.fresh) :
    (p.cancel t).isCancelled u = (p.isCancelled u || decide (u = t)) := by
  unfold isCancelled cancel
  rw [List.getElem?_set]
  by_cases hu : t = u
  · subst hu
    simp [show t < p.flags.length from h]
  · simp [hu, Ne.symm hu]

@[simp] theorem fresh_grow : p.grow.fresh = p.fresh + 1 := by simp [fresh, grow]

@[simp] theorem fresh_cancel : (p.cancel t).fresh = p.fresh := by simp [fresh, cancel]

theorem isCancelled_fresh : p.isCancelled p.fresh = false := by simp [isCancelled, fresh]

/-- Raising a raised flag changes nothing. -/
theorem isCancelled_of_cancelled (h : p.isCancelled t = true) :
    p.isCancelled u = (p.isCancelled u || decide (u = t)) := by
  by_cases hu : u = t
  · rw [hu, h, Bool.true_or]
  · simp [hu]

end TokenPool

namespace Slip

/-- What stands for the dispatch in the list of handles. -/
def handle (slip : Slip) : DispatchId × Token := (slip.id, slip.task.token)

end Slip

def Place.isDropped : Place → Bool
  | .dropped => true
  | _ => false

def Stand.isDropped (st : Stand) : Bool := (st.place?.map Place.isDropped).getD false

/-- The dispatches that were discarded. -/
def Ledger.dropped (l : Ledger) : List DispatchId :=
  (l.roll.filter fun entry => entry.2.isDropped).map (·.1.id)

/-- What handles and tokens have to do with the dispatches of a ledger. -/
structure Known (handles : List (DispatchId × Token)) (nextId : DispatchId) (tokens : TokenPool)
    (l : Ledger) : Prop where
  ascending : handles.Pairwise fun a b => a.1 < b.1 ∧ a.2 < b.2
  fresh : ∀ handle ∈ handles, handle.1 < nextId ∧ handle.2 < tokens.fresh
  /-- Every dispatch has its handle, and so have, after the end of everything, refused starts. -/
  handed : ∃ refused, handles = l.accepted.map Slip.handle ++ refused ∧
    (l.torn = false → refused = [])
  marked : ∀ id ∈ l.cancelled, id < nextId
  flags : ∀ slip ∈ l.accepted, tokens.isCancelled slip.task.token =
    (decide (slip.id ∈ l.cancelled) || decide (slip.id ∈ l.dropped))

namespace Known

variable {handles : List (DispatchId × Token)} {nextId : DispatchId} {tokens : TokenPool}
variable {l m : Ledger}

theorem empty : Known [] 1 .empty .empty where
  ascending := .nil
  fresh _ h := absurd h List.not_mem_nil
  handed := ⟨[], rfl, fun _ => rfl⟩
  marked _ h := absurd h List.not_mem_nil
  flags _ h := absurd h List.not_mem_nil

/-- What is known stays, as long as no dispatch comes in, is cancelled or is discarded. -/
theorem congr (known : Known handles nextId tokens l) (accepted : m.accepted = l.accepted)
    (cancelled : m.cancelled = l.cancelled) (dropped : m.dropped = l.dropped)
    (torn : m.torn = l.torn) : Known handles nextId tokens m where
  ascending := known.ascending
  fresh := known.fresh
  handed := by rw [accepted, torn]; exact known.handed
  marked := by rw [cancelled]; exact known.marked
  flags := by rw [accepted, cancelled, dropped]; exact known.flags

theorem mem_handles (known : Known handles nextId tokens l) {slip : Slip}
    (hslip : slip ∈ l.accepted) : slip.handle ∈ handles := by
  obtain ⟨refused, hhandles, -⟩ := known.handed
  rw [hhandles]
  exact List.mem_append_left _ (List.mem_map_of_mem hslip)

/-- Two handles share their token exactly when they share their id. -/
theorem token_eq (known : Known handles nextId tokens l) {a b : DispatchId × Token}
    (ha : a ∈ handles) (hb : b ∈ handles) : a.2 = b.2 ↔ a.1 = b.1 := by
  by_cases hab : a = b
  · rw [hab]
    exact ⟨fun _ => rfl, fun _ => rfl⟩
  · have hall : handles.Pairwise fun a b => a.1 ≠ b.1 ∧ a.2 ≠ b.2 :=
      known.ascending.imp fun h => ⟨Nat.ne_of_lt h.1, Nat.ne_of_lt h.2⟩
    have : Std.Symm fun a b : DispatchId × Token => a.1 ≠ b.1 ∧ a.2 ≠ b.2 :=
      ⟨fun _ _ h => ⟨Ne.symm h.1, Ne.symm h.2⟩⟩
    have hne := hall.forall ha hb hab
    exact ⟨fun h => absurd h hne.2, fun h => absurd h hne.1⟩

/-- An id and a token are used up. -/
theorem allot (known : Known handles nextId tokens l) :
    Known handles (nextId + 1) tokens.grow l where
  ascending := known.ascending
  fresh handle hh := by
    have h := known.fresh handle hh
    rw [TokenPool.fresh_grow]
    exact ⟨Nat.lt_succ_of_lt h.1, Nat.lt_succ_of_lt h.2⟩
  handed := known.handed
  marked id hid := Nat.lt_succ_of_lt (known.marked id hid)
  flags slip hslip := by
    rw [TokenPool.isCancelled_grow]
    exact known.flags slip hslip

/-- The handle of a fresh id and a fresh token goes behind all others. -/
theorem ascending_snoc (known : Known handles nextId tokens l) :
    (handles ++ [(nextId, tokens.fresh)]).Pairwise fun a b => a.1 < b.1 ∧ a.2 < b.2 := by
  refine List.pairwise_append.2 ⟨known.ascending, List.pairwise_singleton _ _, ?_⟩
  intro a ha b hb
  rw [List.mem_singleton.1 hb]
  exact known.fresh a ha

theorem fresh_snoc (known : Known handles nextId tokens l) :
    ∀ handle ∈ handles ++ [(nextId, tokens.fresh)],
      handle.1 < nextId + 1 ∧ handle.2 < tokens.fresh + 1 := by
  intro handle hh
  rcases List.mem_append.1 hh with hh | hh
  · have h := known.fresh handle hh
    exact ⟨Nat.lt_succ_of_lt h.1, Nat.lt_succ_of_lt h.2⟩
  · rw [List.mem_singleton.1 hh]
    exact ⟨Nat.lt_succ_self _, Nat.lt_succ_self _⟩

/-- A dispatch comes in under a fresh id and a fresh token. -/
theorem submit (known : Known handles nextId tokens l) {slip : Slip} (hid : slip.id = nextId)
    (htoken : slip.task.token = tokens.fresh) (there : l.torn = false)
    (accepted : m.accepted = l.accepted ++ [slip]) (cancelled : m.cancelled = l.cancelled)
    (dropped : m.dropped = l.dropped) :
    Known (handles ++ [slip.handle]) (nextId + 1) tokens.grow m := by
  have hhandle : slip.handle = (nextId, tokens.fresh) := by rw [Slip.handle, hid, htoken]
  obtain ⟨refused, hhandles, hnone⟩ := known.handed
  refine ⟨?_, ?_, ?_, ?_, ?_⟩
  · rw [hhandle]
    exact known.ascending_snoc
  · rw [hhandle, TokenPool.fresh_grow]
    exact known.fresh_snoc
  · refine ⟨[], ?_, fun _ => rfl⟩
    rw [accepted, hhandles, hnone there]
    simp
  · rw [cancelled]
    exact fun id hmem => Nat.lt_succ_of_lt (known.marked id hmem)
  · intro other hother
    rw [TokenPool.isCancelled_grow, cancelled, dropped]
    rw [accepted] at hother
    rcases List.mem_append.1 hother with hold | hnew
    · exact known.flags other hold
    · rw [List.mem_singleton.1 hnew, htoken, TokenPool.isCancelled_fresh]
      have hc : slip.id ∉ l.cancelled := fun hc =>
        absurd hid (Nat.ne_of_lt (known.marked _ hc))
      have hd : slip.id ∉ l.dropped := fun hd => by
        obtain ⟨entry, hentry, heq⟩ := List.mem_map.1 hd
        have hacc : entry.1 ∈ l.accepted := List.mem_map_of_mem (List.mem_filter.1 hentry).1
        have hlt := (known.fresh _ (known.mem_handles hacc)).1
        exact absurd (heq.trans hid) (Nat.ne_of_lt hlt)
      simp [hc, hd]

/-- A start is refused after the end of everything; its token is raised. -/
theorem refuse (known : Known handles nextId tokens l) (torn : l.torn = true) :
    Known (handles ++ [(nextId, tokens.fresh)]) (nextId + 1)
      (tokens.grow.cancel tokens.fresh) l := by
  obtain ⟨refused, hhandles, -⟩ := known.handed
  refine ⟨known.ascending_snoc, ?_, ?_, ?_, ?_⟩
  · rw [TokenPool.fresh_cancel, TokenPool.fresh_grow]
    exact known.fresh_snoc
  · refine ⟨refused ++ [(nextId, tokens.fresh)], by rw [hhandles, List.append_assoc], ?_⟩
    intro there
    rw [there] at torn
    cases torn
  · exact fun id hmem => Nat.lt_succ_of_lt (known.marked id hmem)
  · intro slip hslip
    have hlt := (known.fresh _ (known.mem_handles hslip)).2
    have hne : slip.task.token ≠ tokens.fresh := Nat.ne_of_lt hlt
    rw [TokenPool.isCancelled_cancel _ _ _ (by rw [TokenPool.fresh_grow]; exact Nat.lt_succ_self _),
      TokenPool.isCancelled_grow, known.flags slip hslip]
    simp [hne]

/-- A dispatch is cancelled through its handle; its token was raised already, or is raised now. -/
theorem cancel (known : Known handles nextId tokens l) {handle : DispatchId × Token}
    {pool : TokenPool} (hh : handle ∈ handles) (hfresh : pool.fresh = tokens.fresh)
    (hpool : ∀ t, pool.isCancelled t = (tokens.isCancelled t || decide (t = handle.2))) :
    Known handles nextId pool { l with cancelled := l.cancelled ++ [handle.1] } where
  ascending := known.ascending
  fresh := by rw [hfresh]; exact known.fresh
  handed := known.handed
  marked := by
    intro id hid
    rcases List.mem_append.1 hid with hid | hid
    · exact known.marked id hid
    · rw [List.mem_singleton.1 hid]
      exact (known.fresh handle hh).1
  flags := by
    intro slip hslip
    have hsame := known.token_eq (known.mem_handles hslip) hh
    have htoken : decide (slip.task.token = handle.2) = decide (slip.id = handle.1) :=
      decide_eq_decide.2 hsame
    rw [hpool, known.flags slip hslip, htoken]
    have hdropped : Ledger.dropped { l with cancelled := l.cancelled ++ [handle.1] } = l.dropped :=
      rfl
    rw [hdropped]
    simp only [List.mem_append, List.mem_singleton, Bool.decide_or]
    cases decide (slip.id ∈ l.cancelled) <;> cases decide (slip.id ∈ l.dropped) <;> simp

/-- A dispatch is discarded, which raises its token. -/
theorem discard (known : Known handles nextId tokens l) {slip : Slip} (hslip : slip ∈ l.accepted)
    (accepted : m.accepted = l.accepted) (cancelled : m.cancelled = l.cancelled)
    (dropped : ∀ id, id ∈ m.dropped ↔ id ∈ l.dropped ∨ id = slip.id) (torn : m.torn = l.torn) :
    Known handles nextId (tokens.cancel slip.task.token) m where
  ascending := known.ascending
  fresh := by rw [TokenPool.fresh_cancel]; exact known.fresh
  handed := by rw [accepted, torn]; exact known.handed
  marked := by rw [cancelled]; exact known.marked
  flags := by
    intro other hother
    rw [accepted] at hother
    have hlt : slip.task.token < tokens.fresh := (known.fresh _ (known.mem_handles hslip)).2
    have hsame := known.token_eq (known.mem_handles hother) (known.mem_handles hslip)
    have htoken : decide (other.task.token = slip.task.token) = decide (other.id = slip.id) :=
      decide_eq_decide.2 hsame
    rw [TokenPool.isCancelled_cancel _ _ _ hlt, known.flags other hother, htoken, cancelled]
    simp only [dropped, Bool.decide_or, Bool.or_assoc]

end Known
end SerialDispatch
