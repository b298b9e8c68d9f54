import SerialDispatch.Proofs.Dispatcher.Kinship

/-!
# Instants that hardly differ

Two instants are akin when they differ in their sessions only, and these are kin. What comes next of
them is akin again; what the worker goes on to is up to the kinship, and so is what a teardown
leaves. What goes on alike from instant to instant comes to ends that are alike. Main statements:
`Akin.next`, `outcome_of_lockstep`.
-/
namespace SerialDispatch

section Rel

variable {α β : Type} {r q : α → β → Prop} {a : Option α} {b : Option β}

theorem rel_cases (rel : Option.Rel r a b) :
    (a = none ∧ b = none) ∨ ∃ u v, a = some u ∧ b = some v ∧ r u v := by
  cases rel with
  | some both => exact .inr ⟨_, _, rfl, rfl, both⟩
  | none => exact .inl ⟨rfl, rfl⟩

/-- What holds of two results holds all the more where it is known what the first is. -/
theorem rel_of_some (rel : Option.Rel r a b) (more : ∀ u v, a = some u → r u v → q u v) :
    Option.Rel q a b := by
  cases rel with
  | some both => exact .some (more _ _ rfl both)
  | none => exact .none

end Rel

namespace Instant

/-- The instants differ in their sessions only, and these no further. -/
structure Akin (k : Kinship) (i j : Instant) : Prop where
  kin : Session.Kin k i.session j.session
  focus : j.focus = i.focus
  script : j.script = i.script
  answers : j.answers = i.answers

variable {S : Setup} {k : Kinship} {i j : Instant} {R : Instant → Instant → Prop}

section Next

variable {limit : Nat} {step : CallerStep} {events : List Event}
variable (akin : Akin k i j)
variable (stays : ∀ {i' j' : Instant}, i.next? S = some i' → Akin k i' j' → R i' j')

include stays

/-- Both go on to what is akin. -/
theorem rel_next {i' j' : Instant} (akin : Akin k i' j') (next : i.next? S = some i')
    (follows : j.next? S = some j') : Option.Rel R (i.next? S) (j.next? S) := by
  have related := stays next akin
  rw [next, follows]
  exact .some related

include akin

namespace Akin

theorem next_caller (fair : k.Fair i.session) (hf : i.focus = .caller)
    (tears : ∀ rest, i.focus = .caller → i.script = .teardown :: rest →
      R (i.answered (i.session.teardown, .ok) rest) (j.answered (j.session.teardown, .ok) rest)) :
    Option.Rel R (i.next? S) (j.next? S) := by
  obtain ⟨kin, focus, script, answers⟩ := akin
  have hf' := focus.trans hf
  cases hscript : i.script with
  | nil =>
    simp only [next?, hf, hf', hscript, script.trans hscript]
    exact .none
  | cons step rest =>
    have hscript' := script.trans hscript
    rcases rel_cases (kin.begins step) with ⟨hs, ht⟩ |
      ⟨⟨limit, u⟩, ⟨limit', v⟩, hs, ht, same, begun⟩
    · by_cases torn : step = .teardown
      · subst torn
        simp only [next?, hf, hf', hscript, hscript', hs, ht]
        exact .some (tears rest hf hscript)
      · obtain ⟨done, same⟩ := kin.still fair S hs torn
        have answered : Akin k (i.answered (i.session.step S step) rest)
            (j.answered (j.session.step S step) rest) :=
          ⟨done, rfl, rfl, by simp only [Instant.answered, answers, same, done.clock]⟩
        exact rel_next stays answered (by simp only [next?, hf, hscript, hs])
          (by simp only [next?, hf', hscript', ht])
    · obtain rfl : limit = limit' := same
      have working : Akin k { i with session := u, focus := .work limit step, script := rest }
          { j with session := v, focus := .work limit step, script := rest } :=
        ⟨begun, rfl, rfl, answers⟩
      exact rel_next stays working (by simp only [next?, hf, hscript, hs])
        (by simp only [next?, hf', hscript', ht])

theorem next_work (abreast : i.session.stage.Abreast j.session.stage)
    (hf : i.focus = .work limit step)
    (works : (i.session.givesWay && !i.session.mailbox.isEmpty) = false →
      Option.Rel (fun u v => R { i with session := u } { j with session := v })
        (i.session.work? S (some limit)) (j.session.work? S (some limit))) :
    Option.Rel R (i.next? S) (j.next? S) := by
  obtain ⟨kin, focus, script, answers⟩ := akin
  have hf' := focus.trans hf
  have gives := kin.givesWay abreast
  cases waiting : i.session.givesWay && !i.session.mailbox.isEmpty with
  | true =>
    obtain ⟨taken, due⟩ := kin.taken S
    have bringing : Akin k
        { i with
          session := i.session.taken S
          focus := .batch limit step (i.session.dueEvents S) }
        { j with
          session := j.session.taken S
          focus := .batch limit step (j.session.dueEvents S) } :=
      ⟨taken, by simp only [due], script, answers⟩
    exact rel_next stays bringing (by simp only [next?, hf, waiting, if_true])
      (by simp only [next?, hf', gives, kin.mailbox, waiting, if_true])
  | false =>
    have worked := works waiting
    rcases rel_cases worked with ⟨hs, ht⟩ | ⟨u, v, hs, ht, both⟩
    · obtain ⟨ended, same⟩ := kin.ends abreast limit step
      have answered : Akin k (i.answered (step.ends limit i.session) i.script)
          (j.answered (step.ends limit j.session) j.script) :=
        ⟨ended, rfl, script, by simp only [Instant.answered, answers, same, ended.clock]⟩
      exact rel_next stays answered
        (by simp only [next?, hf, waiting, hs, Bool.false_eq_true, if_false])
        (by simp only [next?, hf', gives, kin.mailbox, waiting, ht, Bool.false_eq_true, if_false])
    · simp only [next?, hf, hf', gives, kin.mailbox, waiting, hs, ht, Bool.false_eq_true, if_false]
      rw [hf, hf'] at both
      exact .some both

theorem next_batch (hf : i.focus = .batch limit step events) :
    Option.Rel R (i.next? S) (j.next? S) := by
  obtain ⟨kin, focus, script, answers⟩ := akin
  have hf' := focus.trans hf
  cases events with
  | nil =>
    have brought : Akin k { i with focus := .work limit step }
        { j with focus := .work limit step } := ⟨kin, rfl, script, answers⟩
    exact rel_next stays brought (by simp only [next?, hf]) (by simp only [next?, hf'])
  | cons e rest =>
    cases found : i.session.callbacks.find? e.id with
    | none =>
      have unclaimed : Akin k
          { i with
            session := i.session.log (.unclaimed e.id e.signal.trigger)
            focus := .onward i.session.phase limit step rest }
          { j with
            session := j.session.log (.unclaimed e.id e.signal.trigger)
            focus := .onward j.session.phase limit step rest } :=
        ⟨kin.log _, by simp only [kin.phase], script, answers⟩
      exact rel_next stays unclaimed (by simp only [next?, hf, found])
        (by simp only [next?, hf', kin.callbacks, found])
    | some callback =>
      by_cases panics : callback.panicsOn = some e.signal.trigger
      · have panicked : Akin k
            { i with
              session := (i.session.call callback e).panicDelivery
              focus := .work limit step }
            { j with
              session := (j.session.call callback e).panicDelivery
              focus := .work limit step } :=
          ⟨(kin.call callback e).panicDelivery, rfl, script, answers⟩
        exact rel_next stays panicked (by simp only [next?, hf, found, if_pos panics])
          (by simp only [next?, hf', kin.callbacks, found, if_pos panics])
      · have called : Akin k
            { i with
              session := i.session.call callback e
              focus := .reaction limit step rest callback.number
                (callback.reaction e.signal.trigger) }
            { j with
              session := j.session.call callback e
              focus := .reaction limit step rest callback.number
                (callback.reaction e.signal.trigger) } :=
          ⟨kin.call callback e, rfl, script, answers⟩
        exact rel_next stays called (by simp only [next?, hf, found, if_neg panics])
          (by simp only [next?, hf', kin.callbacks, found, if_neg panics])

theorem next_reaction (fair : k.Fair i.session) {callback : Nat} {commands : List Command}
    (hf : i.focus = .reaction limit step events callback commands) :
    Option.Rel R (i.next? S) (j.next? S) := by
  obtain ⟨kin, focus, script, answers⟩ := akin
  have hf' := focus.trans hf
  cases commands with
  | nil =>
    have resumed : Akin k { i with focus := .onward i.session.phase limit step events }
        { j with focus := .onward j.session.phase limit step events } :=
      ⟨kin, by simp only [kin.phase], script, answers⟩
    exact rel_next stays resumed (by simp only [next?, hf]) (by simp only [next?, hf'])
  | cons c rest =>
    have reacted : Akin k
        { i with
          session := i.session.react S callback c
          focus := .reaction limit step events callback rest }
        { j with
          session := j.session.react S callback c
          focus := .reaction limit step events callback rest } :=
      ⟨kin.react fair S callback c, rfl, script, answers⟩
    exact rel_next stays reacted (by simp only [next?, hf]) (by simp only [next?, hf'])

/-- What comes next of akin instants is akin; of what the worker does, and of a teardown, the
kinship does not tell. -/
theorem next (fair : k.Fair i.session) (abreast : i.session.stage.Abreast j.session.stage)
    (works : ∀ limit step, i.focus = .work limit step →
      (i.session.givesWay && !i.session.mailbox.isEmpty) = false →
      Option.Rel (fun u v => R { i with session := u } { j with session := v })
        (i.session.work? S (some limit)) (j.session.work? S (some limit)))
    (tears : ∀ rest, i.focus = .caller → i.script = .teardown :: rest →
      R (i.answered (i.session.teardown, .ok) rest) (j.answered (j.session.teardown, .ok) rest)) :
    Option.Rel R (i.next? S) (j.next? S) := by
  cases hf : i.focus with
  | caller => exact akin.next_caller stays fair hf tears
  | work limit step => exact akin.next_work stays abreast hf (works limit step hf)
  | batch limit step events => exact akin.next_batch stays hf
  | reaction limit step events callback commands => exact akin.next_reaction stays fair hf

end Akin
end Next

/-- What goes on alike from instant to instant comes to ends that are alike. -/
theorem outcome_of_lockstep
    (lockstep : ∀ i' j', Leads S i i' → R i' j' → Option.Rel R (i'.next? S) (j'.next? S))
    (related : R i j) : R (last (i.outcome S)) (last (j.outcome S)) := by
  have onward : ∀ i', Leads S i' (last (i.outcome S)) → Leads S i i' → ∀ j', R i' j' →
      R (last (i.outcome S)) (last (j'.outcome S)) := by
    intro i' leads
    induction leads using Relation.ReflTransGen.head_induction_on with
    | refl =>
      intro before j' related
      rcases rel_cases (lockstep _ _ before related) with ⟨-, stops⟩ | ⟨u, _, goes, -⟩
      · rcases Relation.ReflTransGen.cases_head (leads_outcome (S := S) j') with
          same | ⟨_, goes, -⟩
        · exact same ▸ related
        · rw [stops] at goes
          cases goes
      · rw [next_last] at goes
        cases goes
    | head next _ ih =>
      intro before j' related
      rcases rel_cases (lockstep _ _ before related) with ⟨stops, -⟩ | ⟨u, v, goes, follows, both⟩
      · rw [next] at stops
        cases stops
      · rw [next] at goes
        cases goes
        rw [← outcome_next follows]
        exact ih (before.tail next) _ both
  exact onward i (leads_outcome i) .refl j related

end Instant
end SerialDispatch
