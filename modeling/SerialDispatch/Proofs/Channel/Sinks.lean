import SerialDispatch.Proofs.Channel.Succession
import SerialDispatch.Proofs.Exchanges

/-!
# Sinks made and dropped

Which sinks of a channel are held can be told from the steps by which they were made and dropped,
and from the answers to them: `Channel.Lent`, which every step keeps.
-/
namespace SerialDispatch
namespace Channel

variable {c d : Channel} {step : ChannelStep} {ex : List (ChannelStep × ChannelReply)}

section Frames

/-- Only closing takes a channel from its owner. -/
theorem held_step (held : c.holding = .held) (open_ : step ≠ .close) :
    (c.step step).1.holding = .held := by
  have same : (c.poster.step step).held = c.poster.held := by
    cases step with
    | attach | sink =>
      rw [Poster.step, Poster.next]
      split <;> rfl
    | progress | prevent | finish | dropSink | flush => rfl
    | close => exact absurd rfl open_
  rw [← poster_step] at same
  exact of_decide_eq_true (same.trans (decide_eq_true held))

theorem held_run {steps : List ChannelStep} (held : c.holding = .held) (open_ : .close ∉ steps) :
    (c.run steps).holding = .held := by
  induction steps generalizing c with
  | nil => exact held
  | cons step rest ih =>
    obtain ⟨first, others⟩ := not_or.1 (List.mem_cons.not.1 open_)
    exact ih (held_step held (Ne.symm first)) others

/-- Only two steps have to do with which sinks are held. -/
theorem sinks_step (unmade : ∀ id, step ≠ .sink id) (undropped : ∀ n, step ≠ .dropSink n) :
    (c.step step).1.sinks = c.sinks := by
  refine (congrArg Poster.sinks (poster_step c step)).trans ?_
  cases step with
  | attach id panicsOn =>
    rw [Poster.step, Poster.next]
    split <;> rfl
  | finish | progress | prevent | flush | close => rfl
  | sink id => exact absurd rfl (unmade id)
  | dropSink n => exact absurd rfl (undropped n)

end Frames

section Sinks

/-- The sinks that are held are those that were made and not dropped. -/
structure Lent (ex : List (ChannelStep × ChannelReply)) (c : Channel) : Prop where
  made : ∀ id n, (.sink id, .sink n) ∈ ex → n < c.sinks.length
  dropped : ∀ n, (.dropSink n, .dropped true) ∈ ex → n < c.sinks.length
  held : ∀ n id, c.sinks[n]? = some (some id) ↔
    (.sink id, .sink n) ∈ ex ∧ (.dropSink n, .dropped true) ∉ ex

theorem lent_start (coalescing : Bool) : Lent [] (start coalescing) :=
  ⟨nofun, nofun, by simp [start]⟩

variable {reply : ChannelReply}

theorem Lent.same (lent : Lent ex c) (sinks : d.sinks = c.sinks)
    (unmade : ∀ id n, (step, reply) ≠ (.sink id, .sink n))
    (undropped : ∀ n, (step, reply) ≠ (.dropSink n, .dropped true)) :
    Lent (ex ++ [(step, reply)]) d := by
  have made : ∀ id n, (.sink id, .sink n) ∈ ex ++ [(step, reply)] ↔ (.sink id, .sink n) ∈ ex := by
    intro id n
    simp [Ne.symm (unmade id n)]
  have dropped : ∀ n, (.dropSink n, .dropped true) ∈ ex ++ [(step, reply)] ↔
      (.dropSink n, .dropped true) ∈ ex := by
    intro n
    simp [Ne.symm (undropped n)]
  refine ⟨fun id n there => ?_, fun n there => ?_, fun n id => ?_⟩
  · rw [sinks]
    exact lent.made id n ((made id n).1 there)
  · rw [sinks]
    exact lent.dropped n ((dropped n).1 there)
  · rw [sinks, made, dropped]
    exact lent.held n id

/-- A sink comes in under a number that no sink had before. -/
theorem Lent.sink (lent : Lent ex c) (id : DispatchId) :
    Lent (ex ++ [(.sink id, .sink c.sinks.length)]) { c with sinks := c.sinks ++ [some id] } := by
  refine ⟨fun other n there => ?_, fun n there => ?_, fun n other => ?_⟩
  · rw [List.length_append, List.length_singleton]
    rcases List.mem_append.1 there with before | now
    · exact Nat.lt_succ_of_lt (lent.made other n before)
    · cases List.mem_singleton.1 now
      exact Nat.lt_succ_self _
  · rw [List.length_append, List.length_singleton]
    exact Nat.lt_succ_of_lt (lent.dropped n (by simpa using there))
  · rw [getElem?_snoc_eq_some, lent.held, Option.some.injEq]
    simp only [List.mem_append, List.mem_singleton, Prod.mk.injEq, reduceCtorEq, and_self, or_false,
      ChannelStep.sink.injEq, ChannelReply.sink.injEq]
    constructor
    · rintro (before | ⟨rfl, rfl⟩)
      · exact ⟨.inl before.1, before.2⟩
      · exact ⟨.inr ⟨rfl, rfl⟩, fun dropped => absurd (lent.dropped _ dropped) (Nat.lt_irrefl _)⟩
    · rintro ⟨before | ⟨rfl, rfl⟩, undropped⟩
      · exact .inl ⟨before, undropped⟩
      · exact .inr ⟨rfl, rfl⟩

theorem Lent.dropSink (lent : Lent ex c) {n : Nat} (made : n < c.sinks.length) :
    Lent (ex ++ [(.dropSink n, .dropped (c.sinkHeld n).isSome)])
      { c with sinks := c.sinks.set n none } := by
  refine ⟨fun id m there => ?_, fun m there => ?_, fun m id => ?_⟩
  · rw [List.length_set]
    exact lent.made id m (by simpa using there)
  · rw [List.length_set]
    rcases List.mem_append.1 there with before | now
    · exact lent.dropped m before
    · obtain ⟨rfl, -⟩ : m = n ∧ _ := by simpa using now
      exact made
  · by_cases same : n = m
    · subst same
      rw [List.getElem?_set_self made]
      simp only [Option.some.injEq, reduceCtorEq, false_iff, not_and, not_not]
      intro there
      have madeHere : (.sink id, .sink n) ∈ ex := by simpa using there
      by_cases dropped : (.dropSink n, .dropped true) ∈ ex
      · exact List.mem_append_left _ dropped
      · have held := (lent.held n id).2 ⟨madeHere, dropped⟩
        simp [sinkHeld, held]
    · rw [List.getElem?_set_ne same, lent.held]
      simp [Ne.symm same]

theorem Lent.next (lent : Lent ex c) (step : ChannelStep) :
    Lent (ex ++ [(step, (c.step step).2)]) (c.step step).1 := by
  cases step with
  | sink id =>
    rw [Channel.step]
    split
    · exact lent.sink id
    · exact lent.same rfl (by simp) (by simp)
  | dropSink n =>
    rw [Channel.step]
    split
    · exact lent.dropSink ‹_›
    · exact lent.same rfl (by simp) (by simp)
  | attach | progress | prevent | finish | flush | close =>
    exact lent.same (sinks_step (by simp) (by simp)) (by simp) (by simp)

/-- All sinks that were made were dropped. -/
def AllDropped (ex : List (ChannelStep × ChannelReply)) : Prop :=
  ∀ id n, (.sink id, .sink n) ∈ ex → (.dropSink n, .dropped true) ∈ ex

/-- Nobody holds a sink if all sinks that were made were dropped. -/
theorem Lent.noSinkHeld_iff (lent : Lent ex c) : c.noSinkHeld = true ↔ AllDropped ex := by
  rw [noSinkHeld, List.all_eq_true]
  constructor
  · intro none id n made
    by_contra undropped
    have held := none _ (List.mem_of_getElem? ((lent.held n id).2 ⟨made, undropped⟩))
    cases held
  · intro dropped sink there
    obtain ⟨n, there⟩ := List.mem_iff_getElem?.1 there
    cases sink with
    | none => rfl
    | some id =>
      obtain ⟨made, undropped⟩ := (lent.held n id).1 there
      exact absurd (dropped id n made) undropped

end Sinks

end Channel
end SerialDispatch
