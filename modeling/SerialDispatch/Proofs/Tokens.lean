import Mathlib.Logic.Relation
import SerialDispatch.Proofs.Exchanges
import SerialDispatch.Token

/-!
# Which tokens are one

A copy of a token is as good as the token it was made from, and as all other copies, made before or
after: they have one origin. Origins are told here from the steps and their answers alone, by who
was cloned from whom, whatever flags there may be (`TokenTable.SameOrigin`). A variable reads as
cancelled once any variable of its origin was cancelled, and only the first cancel of an origin is
told that it made the difference; main statement: `TokenTable.aliased_after`. A step is one access to
one flag, so it does not matter which thread takes it.
-/
namespace SerialDispatch

/-- The variable that a step is about, if it is about one. -/
def TokenStep.named? : TokenStep → Option Nat
  | .new => none
  | .clone v | .cancel v | .check v => some v
  | .checkWithin v => v

namespace TokenTable

section Origins

variable (ex : List (TokenStep × TokenReply))

/-- A step was answered with this variable. -/
def Made (v : Nat) : Prop := ∃ step, (step, .held v) ∈ ex

/-- Clones lead from one variable to the other, each taken in either direction. -/
def SameOrigin : Nat → Nat → Prop :=
  Relation.EqvGen fun v w => (TokenStep.clone v, TokenReply.held w) ∈ ex

/-- A variable of this origin was cancelled, for the first time or again. -/
def Cancelled (v : Nat) : Prop :=
  ∃ w answer, (.cancel w, .flag answer) ∈ ex ∧ SameOrigin ex v w

end Origins

variable {ex more : List (TokenStep × TokenReply)} {step : TokenStep} {reply : TokenReply}
  {t : TokenTable} {v w : Nat} {token : Token}

section Exchanges

theorem SameOrigin.mono (sub : ex ⊆ more) (same : SameOrigin ex v w) : SameOrigin more v w :=
  Relation.EqvGen.mono (fun _ _ h => sub h) _ _ same

theorem Cancelled.mono (sub : ex ⊆ more) (cancelled : Cancelled ex v) : Cancelled more v :=
  let ⟨w, answer, there, same⟩ := cancelled
  ⟨w, answer, sub there, same.mono sub⟩

theorem made_snoc : Made (ex ++ [(step, reply)]) v ↔ Made ex v ∨ reply = .held v := by
  simp [Made, exists_or, eq_comm]

end Exchanges

section Flags

variable (p : TokenPool) (s : Token)

@[simp] theorem isCancelled_grow : p.grow.isCancelled s = p.isCancelled s := by
  unfold TokenPool.isCancelled TokenPool.grow
  rw [List.getElem?_append]
  split
  · rfl
  · rename_i beyond
    rw [List.getElem?_eq_none (Nat.le_of_not_lt beyond)]
    cases s - p.flags.length <;> rfl

theorem isCancelled_cancel {token : Token} (old : token < p.fresh) :
    (p.cancel token).isCancelled s = true ↔ s = token ∨ p.isCancelled s = true := by
  unfold TokenPool.isCancelled TokenPool.cancel
  by_cases same : token = s
  · subst same
    rw [List.getElem?_set_self old]
    simp
  · rw [List.getElem?_set_ne same]
    simp [Ne.symm same]

end Flags

/-- What the table has to do with the steps that have led to it. -/
structure Traced (ex : List (TokenStep × TokenReply)) (t : TokenTable) : Prop where
  made : ∀ v, Made ex v ↔ v < t.held.length
  /-- The next flag is nobody's yet. -/
  old : ∀ (v : Nat) (token : Token), t.held[v]? = some token → token < t.pool.fresh
  cloned : ∀ v w, (.clone v, .held w) ∈ ex →
    ∃ token, t.held[v]? = some token ∧ t.held[w]? = some token
  joined : ∀ (v w : Nat) (token : Token), t.held[v]? = some token → t.held[w]? = some token →
    SameOrigin ex v w
  cancelled : ∀ v answer, (.cancel v, .flag answer) ∈ ex →
    ∃ token, t.held[v]? = some token ∧ t.pool.isCancelled token = true
  raised : ∀ token, t.pool.isCancelled token = true →
    ∃ v answer, (.cancel v, .flag answer) ∈ ex ∧ t.held[v]? = some token

namespace Traced

theorem start : Traced [] empty where
  made := by simp [Made, empty]
  old := by simp [empty]
  cloned := by simp
  joined := by simp [empty]
  cancelled := by simp
  raised := by simp [TokenPool.isCancelled, empty, TokenPool.empty]

/-- Variables of one origin hold the same token. -/
theorem held_eq (traced : Traced ex t) (same : SameOrigin ex v w) : t.held[v]? = t.held[w]? := by
  induction same with
  | rel v w cloned =>
    obtain ⟨token, first, second⟩ := traced.cloned v w cloned
    exact first.trans second.symm
  | refl v => rfl
  | symm v w _ ih => exact ih.symm
  | trans v w x _ _ first second => exact first.trans second

theorem held_of_made (traced : Traced ex t) (made : Made ex v) : ∃ token, t.held[v]? = some token :=
  ⟨_, List.getElem?_eq_getElem ((traced.made v).1 made)⟩

theorem held_of_unmade (traced : Traced ex t) (unmade : ¬ Made ex v) : t.held[v]? = none := by
  rw [traced.made] at unmade
  exact List.getElem?_eq_none (Nat.le_of_not_lt unmade)

theorem isCancelled_iff (traced : Traced ex t) (held : t.held[v]? = some token) :
    t.pool.isCancelled token = true ↔ Cancelled ex v := by
  constructor
  · intro raised
    obtain ⟨w, answer, there, same⟩ := traced.raised token raised
    exact ⟨w, answer, there, traced.joined v w token held same⟩
  · rintro ⟨w, answer, there, same⟩
    obtain ⟨other, heldOther, raised⟩ := traced.cancelled w answer there
    rw [← traced.held_eq same, held] at heldOther
    rwa [Option.some.inj heldOther]

/-- A step that makes and raises nothing leaves no trace in the table. -/
theorem idle (traced : Traced ex t) (unmade : ∀ v, reply ≠ .held v)
    (unraised : ∀ v answer, (step, reply) ≠ (.cancel v, .flag answer)) :
    Traced (ex ++ [(step, reply)]) t where
  made v := by simp [made_snoc, unmade, traced.made]
  old := traced.old
  cloned v w there := by
    refine traced.cloned v w ((List.mem_append.1 there).resolve_right fun now => ?_)
    exact unmade w (congrArg Prod.snd (List.mem_singleton.1 now)).symm
  joined v w token first second :=
    (traced.joined v w token first second).mono (List.subset_append_left _ _)
  cancelled v answer there := by
    refine traced.cancelled v answer ((List.mem_append.1 there).resolve_right fun now => ?_)
    exact unraised v answer (List.mem_singleton.1 now).symm
  raised token raised :=
    let ⟨v, answer, there, held⟩ := traced.raised token raised
    ⟨v, answer, List.mem_append_left _ there, held⟩

/-- A token comes in that nobody holds. -/
theorem new (traced : Traced ex t) :
    Traced (ex ++ [(.new, .held t.held.length)]) ⟨t.pool.grow, t.held ++ [t.pool.fresh]⟩ where
  made v := by
    rw [made_snoc, traced.made, List.length_append, List.length_singleton,
      TokenReply.held.injEq]
    omega
  old v token held := by
    have fresh : t.pool.grow.fresh = t.pool.fresh + 1 := by
      simp [TokenPool.grow, TokenPool.fresh]
    rw [fresh]
    rcases getElem?_snoc_eq_some.1 held with before | ⟨-, rfl⟩
    · exact Nat.lt_succ_of_lt (traced.old v token before)
    · exact Nat.lt_succ_self _
  cloned v w there := by
    obtain ⟨token, first, second⟩ := traced.cloned v w (by simpa using there)
    exact ⟨token, getElem?_snoc_eq_some.2 (.inl first), getElem?_snoc_eq_some.2 (.inl second)⟩
  joined v w token first second := by
    rcases getElem?_snoc_eq_some.1 first with hv | ⟨rfl, rfl⟩ <;>
      rcases getElem?_snoc_eq_some.1 second with hw | ⟨rfl, last⟩
    · exact (traced.joined v w token hv hw).mono (List.subset_append_left _ _)
    · exact absurd (traced.old v token hv) (by rw [last]; exact Nat.lt_irrefl _)
    · exact absurd (traced.old w _ hw) (Nat.lt_irrefl _)
    · exact .refl _
  cancelled v answer there := by
    obtain ⟨token, held, raised⟩ := traced.cancelled v answer (by simpa using there)
    exact ⟨token, getElem?_snoc_eq_some.2 (.inl held), by rwa [isCancelled_grow]⟩
  raised token raised := by
    rw [isCancelled_grow] at raised
    obtain ⟨v, answer, there, held⟩ := traced.raised token raised
    exact ⟨v, answer, List.mem_append_left _ there, getElem?_snoc_eq_some.2 (.inl held)⟩

/-- A clone is joined to the variable that it was made from, and by it to all that are joined to
that. -/
theorem clone (traced : Traced ex t) (source : t.held[v]? = some token) :
    Traced (ex ++ [(.clone v, .held t.held.length)]) { t with held := t.held ++ [token] } where
  made w := by
    rw [made_snoc, traced.made, List.length_append, List.length_singleton,
      TokenReply.held.injEq]
    omega
  old w other held := by
    rcases getElem?_snoc_eq_some.1 held with before | ⟨-, rfl⟩
    · exact traced.old w other before
    · exact traced.old v token source
  cloned w x there := by
    rcases List.mem_append.1 there with before | now
    · obtain ⟨other, first, second⟩ := traced.cloned w x before
      exact ⟨other, getElem?_snoc_eq_some.2 (.inl first), getElem?_snoc_eq_some.2 (.inl second)⟩
    · obtain ⟨hw, hx⟩ : w = v ∧ x = t.held.length := by simpa using now
      subst hw hx
      exact ⟨token, getElem?_snoc_eq_some.2 (.inl source), getElem?_snoc_eq_some.2 (.inr ⟨rfl, rfl⟩)⟩
  joined w x other first second := by
    have copied : SameOrigin (ex ++ [(.clone v, .held t.held.length)]) v t.held.length :=
      .rel _ _ (by simp)
    have before : ∀ w : Nat, t.held[w]? = some token →
        SameOrigin (ex ++ [(.clone v, .held t.held.length)]) v w := fun w held =>
      (traced.joined v w token source held).mono (List.subset_append_left _ _)
    rcases getElem?_snoc_eq_some.1 first with hw | ⟨rfl, rfl⟩ <;>
      rcases getElem?_snoc_eq_some.1 second with hx | ⟨rfl, last⟩
    · exact (traced.joined w x other hw hx).mono (List.subset_append_left _ _)
    · subst last
      exact .trans _ _ _ (.symm _ _ (before w hw)) copied
    · exact .trans _ _ _ (.symm _ _ copied) (before x hx)
    · exact .refl _
  cancelled w answer there := by
    obtain ⟨other, held, raised⟩ := traced.cancelled w answer (by simpa using there)
    exact ⟨other, getElem?_snoc_eq_some.2 (.inl held), raised⟩
  raised other raised := by
    obtain ⟨w, answer, there, held⟩ := traced.raised other raised
    exact ⟨w, answer, List.mem_append_left _ there, getElem?_snoc_eq_some.2 (.inl held)⟩

theorem cancel (traced : Traced ex t) (held : t.held[v]? = some token) (answer : Bool) :
    Traced (ex ++ [(.cancel v, .flag answer)]) { t with pool := t.pool.cancel token } where
  made w := by simp [made_snoc, traced.made]
  old w other there := by
    have same : (t.pool.cancel token).fresh = t.pool.fresh := List.length_set
    rw [same]
    exact traced.old w other there
  cloned w x there := traced.cloned w x (by simpa using there)
  joined w x other first second :=
    (traced.joined w x other first second).mono (List.subset_append_left _ _)
  cancelled w other there := by
    rcases List.mem_append.1 there with before | now
    · obtain ⟨flag, heldBefore, raised⟩ := traced.cancelled w other before
      exact ⟨flag, heldBefore,
        (isCancelled_cancel _ _ (traced.old v token held)).2 (.inr raised)⟩
    · obtain ⟨rfl, -⟩ : w = v ∧ other = answer := by simpa using now
      exact ⟨token, held, (isCancelled_cancel _ _ (traced.old w token held)).2 (.inl rfl)⟩
  raised other raised := by
    rcases (isCancelled_cancel _ _ (traced.old v token held)).1 raised with rfl | before
    · exact ⟨v, answer, by simp, held⟩
    · obtain ⟨w, earlier, there, heldBefore⟩ := traced.raised other before
      exact ⟨w, earlier, List.mem_append_left _ there, heldBefore⟩

/-- Whatever step is taken next, its answer and the table it leads to fit what came before. -/
theorem next (traced : Traced ex t) (step : TokenStep) :
    Traced (ex ++ [(step, (t.step step).2)]) (t.step step).1 := by
  cases step with
  | new => exact traced.new
  | clone v =>
    rw [TokenTable.step]
    cases held : t.held[v]? with
    | none => exact traced.idle nofun nofun
    | some token => exact traced.clone held
  | cancel v =>
    rw [TokenTable.step]
    cases held : t.held[v]? with
    | none => exact traced.idle nofun nofun
    | some token => exact traced.cancel held _
  | check v =>
    rw [TokenTable.step]
    cases t.held[v]? with
    | none => exact traced.idle nofun nofun
    | some token => exact traced.idle nofun nofun
  | checkWithin v =>
    cases v with
    | none => exact traced.idle nofun nofun
    | some v =>
      rw [TokenTable.step]
      cases t.held[v]? with
      | none => exact traced.idle nofun nofun
      | some token => exact traced.idle nofun nofun

end Traced

theorem traced_after (steps : List TokenStep) :
    Traced (exchanges TokenTable.step empty steps) (stateAfter TokenTable.step empty steps) :=
  kept_along Traced.start (fun _ _ step before => before.next step) steps

section Answers

/-- A variable keeps its token. -/
theorem held_step (held : t.held[v]? = some token) (step : TokenStep) :
    (t.step step).1.held[v]? = some token := by
  cases step with
  | new => exact getElem?_snoc_eq_some.2 (.inl held)
  | clone w =>
    rw [TokenTable.step]
    cases t.held[w]? with
    | none => exact held
    | some other => exact getElem?_snoc_eq_some.2 (.inl held)
  | cancel w | check w =>
    rw [TokenTable.step]
    cases t.held[w]? <;> exact held
  | checkWithin w =>
    cases w with
    | none => exact held
    | some w =>
      rw [TokenTable.step]
      cases t.held[w]? <;> exact held

theorem held_after (held : t.held[v]? = some token) (steps : List TokenStep) :
    (stateAfter TokenTable.step t steps).held[v]? = some token := by
  induction steps generalizing t with
  | nil => exact held
  | cons step rest ih => exact ih (held_step held step)

theorem step_of_held (held : t.held[v]? = some token) :
    t.state[v]? = some (t.pool.isCancelled token) ∧
    t.step (.check v) = (t, .flag (t.pool.isCancelled token)) ∧
    t.step (.checkWithin (some v)) = (t, .flag (t.pool.isCancelled token)) ∧
    (t.step (.cancel v)).2 = .flag !(t.pool.isCancelled token) := by
  simp [state, TokenTable.step, held]

theorem step_of_unheld (unheld : t.held[v]? = none) {step : TokenStep}
    (named : step.named? = some v) : t.step step = (t, .unknownVariable) := by
  cases step with
  | new => cases named
  | clone w | cancel w | check w =>
    cases named
    rw [TokenTable.step, unheld]
  | checkWithin w =>
    cases named
    rw [TokenTable.step, unheld]

theorem of_cancel_answer {answer : Bool} (same : (t.step (.cancel v)).2 = .flag answer) :
    ∃ token, t.held[v]? = some token ∧ answer = !t.pool.isCancelled token := by
  rw [TokenTable.step] at same
  cases held : t.held[v]? with
  | none =>
    rw [held] at same
    cases same
  | some token =>
    rw [held] at same
    exact ⟨token, rfl, (TokenReply.flag.inj same).symm⟩

/-- Of the cancels of one origin the first makes the difference, and no other. -/
theorem answer_iff {steps : List TokenStep} {i : Nat} {answer : Bool}
    (here : (exchanges TokenTable.step empty steps)[i]? = some (.cancel v, .flag answer)) :
    answer = true ↔ ∀ j < i, ∀ w earlier,
      (exchanges TokenTable.step empty steps)[j]? = some (.cancel w, .flag earlier) →
        ¬ SameOrigin (exchanges TokenTable.step empty steps) v w := by
  obtain ⟨before, cancel, after, rfl, rfl, taken⟩ := exchanges_split here
  obtain ⟨rfl, same⟩ := Prod.mk.inj taken
  obtain ⟨token, held, rfl⟩ := of_cancel_answer same.symm
  have prior := traced_after before
  have final := traced_after (before ++ .cancel v :: after)
  have lasts : ∀ {w : Nat} {other : Token},
      (stateAfter TokenTable.step empty before).held[w]? = some other →
      (stateAfter TokenTable.step empty (before ++ .cancel v :: after)).held[w]? = some other :=
    fun heldThen => by
      rw [stateAfter_append]
      exact held_after heldThen _
  rw [Bool.not_eq_true', ← Bool.not_eq_true]
  constructor
  · intro unraised j early w earlier there origin
    rw [getElem?_exchanges_append early] at there
    obtain ⟨other, heldThen, raised⟩ := prior.cancelled w earlier (List.mem_of_getElem? there)
    have alike := final.held_eq origin
    rw [lasts held, lasts heldThen] at alike
    rw [Option.some.inj alike] at unraised
    exact unraised raised
  · intro none raised
    obtain ⟨w, earlier, there, heldThen⟩ := prior.raised token raised
    obtain ⟨j, there⟩ := List.mem_iff_getElem?.1 there
    have early : j < before.length := by
      have inside := (List.getElem?_eq_some_iff.1 there).1
      rwa [length_exchanges] at inside
    rw [← getElem?_exchanges_append early] at there
    exact none j early w earlier there
      (final.joined v w token (lasts held) (lasts heldThen))

end Answers

/-- How the variables of a table share their flags, told by the steps taken so far. -/
structure Aliased (ex : List (TokenStep × TokenReply)) (t : TokenTable) : Prop where
  made : ∀ v, Made ex v ↔ v < t.state.length
  /-- Whoever looks at a variable sees whether a variable of its origin was cancelled, and a cancel
  is told so if none was. -/
  reads : ∀ v, Made ex v → ∃ seen, (seen = true ↔ Cancelled ex v) ∧
    t.state[v]? = some seen ∧
    t.step (.check v) = (t, .flag seen) ∧
    t.step (.checkWithin (some v)) = (t, .flag seen) ∧
    (t.step (.cancel v)).2 = .flag !seen
  /-- Of the cancels of an origin the first was told that it made the difference, and no other. -/
  first : ∀ (i v : Nat) (answer : Bool), ex[i]? = some (.cancel v, .flag answer) →
    (answer = true ↔ ∀ j < i, ∀ w earlier,
      ex[j]? = some (.cancel w, .flag earlier) → ¬ SameOrigin ex v w)
  kept : ∀ step (v : Nat), t.state[v]? = some true → (t.step step).1.state[v]? = some true
  without : t.step (.checkWithin none) = (t, .flag false)
  unknown : ∀ step v, step.named? = some v → ¬ Made ex v → t.step step = (t, .unknownVariable)

/-- After any steps the variables share their flags with those of the same origin and no others. -/
theorem aliased_after (steps : List TokenStep) :
    Aliased (exchanges TokenTable.step empty steps) (stateAfter TokenTable.step empty steps) := by
  have traced := traced_after steps
  refine ⟨fun v => ?_, fun v made => ?_, fun i v answer here => answer_iff here,
    fun step v raised => ?_, rfl, fun step v named unmade => ?_⟩
  · rw [traced.made, state, List.length_map]
  · obtain ⟨token, held⟩ := traced.held_of_made made
    exact ⟨_, traced.isCancelled_iff held, step_of_held held⟩
  · rw [state, List.getElem?_map, Option.map_eq_some_iff] at raised
    obtain ⟨token, held, raised⟩ := raised
    have later := held_step held step
    have cancelled := (traced.isCancelled_iff held).1 raised
    have still := ((traced.next step).isCancelled_iff later).2
      (cancelled.mono (List.subset_append_left _ _))
    rw [(step_of_held later).1, still]
  · exact step_of_unheld (traced.held_of_unmade unmade) named

end TokenTable
end SerialDispatch
