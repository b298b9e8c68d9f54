import SerialDispatch.Proofs.Dispatcher.Nearness
import SerialDispatch.Proofs.Dispatcher.Passing
import SerialDispatch.Proofs.Dispatcher.Turns

/-!
# Two modes of delivery in step

Of two sessions that are alike, one delivers message by message and the other batch by batch. What
the one delivers in many rounds the other delivers in one, and for all else they keep in step; so a
run leads both to sessions that are alike, unless delivery is cut off in one of them. Main
statement: `Session.InStep.run`.
-/
namespace SerialDispatch
namespace Session

open Relation

variable {S P C : Setup} {s t u v w : Session} {limit : Option Nat}

/-- All that waits for delivery was announced. -/
theorem announced_mailbox (booked : Booked S s) (passing : Passing S s) (alive : s.phase = .alive) :
    Announced (messagesIn s.history) ∧ Announced s.mailbox := by
  obtain ⟨⟨l, run, fits⟩, dead⟩ := booked
  have untorn : l.torn = false := by
    cases torn : l.torn with
    | false => rfl
    | true => exact absurd alive (dead (fits.torn.1 torn)).1
  have announced := run.announced untorn
  obtain ⟨batches, sent, -⟩ := passing alive
  refine ⟨announced, ?_⟩
  rw [sent] at announced
  exact (List.pairwise_append.1 announced).2.1

section Rounds

variable (plain : P.config.coalescing = false) (alike : P.Alike C) (calmly : P.calm = P)
  (calm : C.calm = C)

include plain alike calmly calm

/-- What the second session delivers at once the first delivers message by message, unless it is cut
off meanwhile. -/
theorem drain (limit : Option Nat) {rest : List (Message Command)} (near : Near rest s t)
    (announced : Announced rest) (first : s.Serene) (second : t.Serene)
    (gives : rest ≠ [] → s.givesWay = true ∨ s.CutOff) :
    ∃ u v left, Steps P limit s u ∧ Near left u v ∧ u.Serene ∧
      t.deliverEvents C (rest.filterMap Message.event?) =
        v.deliverEvents C (left.filterMap Message.event?) ∧
      (left = [] ∧ (s.turn.isDelivery = true ∨ rest ≠ [] → u.turn.isDelivery = true) ∨
        u.CutOff) := by
  induction rest generalizing s t with
  | nil =>
    exact ⟨s, t, [], .refl, near, first, rfl,
      .inl ⟨rfl, fun h => h.elim id fun h => absurd rfl h⟩⟩
  | cons m rest ih =>
    rcases gives (List.cons_ne_nil m rest) with gives | cut
    · have waiting : s.mailbox ≠ [] := by rw [near.mailbox]; exact List.cons_ne_nil _ _
      have next : s.next? P limit = some (s.deliverRound P) :=
        next_of_waiting (by simp [gives, waiting])
      obtain ⟨others, later⟩ := List.pairwise_cons.1 announced
      have turn : (s.deliverRound P).turn.isDelivery = true := by
        rw [turn_deliverRound]
        exact Turn.isDelivery_delivered _
      have serene := first.deliverRound calmly
      have again : ∀ {x : Session}, Near rest (s.deliverRound P) x → rest ≠ [] →
          (s.deliverRound P).givesWay = true ∨ (s.deliverRound P).CutOff := fun near more =>
        gives_again gives (by rw [near.mailbox]; simp [more])
      cases m with
      | attach owner callback =>
        have registered : Near rest (s.deliverRound P) t := by
          rw [deliverRound_attach plain near.mailbox]
          exact ⟨near.like, near.alive, rfl, near.callbacks, near.did⟩
        obtain ⟨u, v, left, steps, facts, serene, same, ends⟩ :=
          ih registered later serene second (again registered)
        exact ⟨u, v, left, .head next steps, facts, serene, same,
          ends.imp (fun h => ⟨h.1, fun _ => h.2 (.inl turn)⟩) id⟩
      | event e =>
        have told : Near rest (s.deliverRound P) (t.deliverEvent C e) := by
          have taken : Near rest { s with
              mailbox := rest ++ t.mailbox, turn := s.turn.delivered } t :=
            ⟨near.like, near.alive, rfl, near.callbacks, near.did⟩
          rw [deliverRound_event plain near.mailbox]
          exact taken.deliverEvent alike others fun _ => second.unmoved
        obtain ⟨u, v, left, steps, facts, serene, same, ends⟩ :=
          ih told later serene (second.deliverEvent calm e) (again told)
        refine ⟨u, v, left, .head next steps, facts, serene, ?_,
          ends.imp (fun h => ⟨h.1, fun _ => h.2 (.inl turn)⟩) id⟩
        rw [← same]
        exact deliverEvents_cons _ told.alive.2
    · exact ⟨s, t, m :: rest, .refl, near, first, rfl, .inr cut⟩

end Rounds

/-- The two sessions have done the same and deliver the same, and their turns agree. -/
structure InStep (C : Setup) (s t : Session) : Prop where
  near : Near [] s t
  turns : s.turn.Agrees t.turn
  first : s.Serene
  second : t.Serene
  booked : Booked C t
  passing : Passing C t

/-- In one of the two sessions delivery is cut off. If no callback gives a command from then on,
the two have done the same. -/
structure Parting (s t : Session) (cut : Session) : Prop where
  cutOff : cut.CutOff
  past : didIn cut.history <+: didIn s.history ∧ didIn cut.history <+: didIn t.history
  like : didIn s.history = didIn cut.history → didIn t.history = didIn cut.history →
    Like .effects s t

/-- In the runs that begin at the two sessions delivery is cut off in one. -/
def Severs (P C : Setup) (limit : Option Nat) (s t : Session) : Prop :=
  ∃ u v, Steps P limit s u ∧ Steps C limit t v ∧ (Parting u v u ∨ Parting u v v)

theorem Severs.head (first : Steps P limit s u) (second : Steps C limit t v)
    (severs : Severs P C limit u v) : Severs P C limit s t := by
  obtain ⟨w, x, later, follow, parting⟩ := severs
  exact ⟨w, x, first.trans later, second.trans follow, parting⟩

namespace InStep

/-- Delivery is cut off in one of the two sessions. -/
theorem parting (inStep : InStep C s t) {cut : Session} (cutOff : cut.CutOff)
    (did : didIn cut.history = didIn s.history) : Parting s t cut := by
  have same : didIn cut.history = didIn t.history := did.trans inStep.near.did
  exact ⟨cutOff, ⟨did ▸ List.prefix_rfl, same ▸ List.prefix_rfl⟩, fun _ _ => inStep.near.like⟩

section Modes

variable (plain : P.config.coalescing = false) (coalescing : C.config.coalescing = true)
  (alike : P.Alike C) (calmly : P.calm = P) (calm : C.calm = C)

/-- What the worker or the clock does next is done to both sessions. -/
theorem worked (inStep : InStep C s t) (first : s.work? C limit = some u)
    (second : t.work? C limit = some v) (like : Like .effects u v) :
    Near [] u v ∧ u.turn.Agrees v.turn := by
  obtain ⟨near, turns, -, -, booked, -⟩ := inStep
  by_cases halted : s.stage.isOver = true
  · have undead : t.stage ≠ .dead := fun dead => (booked.2 dead).1 near.alive.2
    rw [work_over halted, finishShutdown_of_alive (near.like.stage ▸ undead) near.alive.1] at first
    rw [work_over (near.like.stage ▸ halted), finishShutdown_of_alive undead near.alive.2] at second
    split at first
    · split at second
      · cases first
        cases second
        refine ⟨⟨like, near.alive, near.mailbox, near.callbacks, ?_⟩, turns⟩
        simp only [note, history_record, didIn_append]
        exact congrArg (· ++ []) near.did
      · cases second
    · cases first
  · unfold work? at first second
    rw [← near.like.stage, ← near.like.clock (.inl rfl)] at second
    split at first
    · rename_i waits
      rw [if_pos waits] at second
      split at first
      · rename_i soon
        rw [if_pos soon] at second
        cases first
        cases second
        exact ⟨near.acts (.frame rfl) (.frame rfl) like, turns⟩
      · cases first
    · rename_i ready
      rw [if_neg ready] at second
      refine ⟨?_, ?_⟩
      · rcases Acts.advance C first with acts | ⟨ended, -⟩
        · rcases Acts.advance C second with follow | ⟨ended, -⟩
          · exact near.acts acts follow like
          · exact absurd (near.like.stage ▸ ended) halted
        · exact absurd ended halted
      · rw [turn_advance first, turn_advance second]
        exact agrees_nextTurn near.like turns

include alike in
/-- Where neither session delivers, the same is done next in both. -/
theorem next_seen (limit : Option Nat) (inStep : InStep C s t)
    (settled : (s.givesWay && !s.mailbox.isEmpty) = false)
    (resting : (t.givesWay && !t.mailbox.isEmpty) = false) :
    (s.next? P limit).map (outline .effects) = (t.next? C limit).map (outline .effects) := by
  have near := inStep.near
  rw [next_of_settled settled, next_of_settled resting, alike.work,
    work_outline fun halted => ⟨rfl, near.alive.1, mailbox_of_settled settled halted⟩, near.like.eq,
    ← work_outline fun halted => ⟨rfl, near.alive.2, mailbox_of_settled resting halted⟩]

include alike calmly calm in
/-- What is not done by delivery is done in both sessions. -/
theorem work (inStep : InStep C s t) (settled : (s.givesWay && !s.mailbox.isEmpty) = false)
    (resting : (t.givesWay && !t.mailbox.isEmpty) = false) (next : t.next? C limit = some v) :
    ∃ u, s.next? P limit = some u ∧ InStep C u v := by
  have seen := inStep.next_seen alike limit settled resting
  rw [next] at seen
  obtain ⟨u, goes, like⟩ := Option.map_eq_some_iff.1 seen
  have first := goes
  have second := next
  rw [next_of_settled settled, alike.work] at first
  rw [next_of_settled resting] at second
  obtain ⟨near, turns⟩ := inStep.worked first second like
  exact ⟨u, goes, near, turns, inStep.first.next calmly goes, inStep.second.next calm next,
    inStep.booked.next next, inStep.passing.next next⟩

include alike in
/-- When nothing is left to be done in the one session, nothing is in the other. -/
theorem stops (inStep : InStep C s t) (stops : t.next? C limit = none) :
    s.next? P limit = none := by
  have empty := mailbox_of_rest stops
  have settled : (s.givesWay && !s.mailbox.isEmpty) = false := by
    simp [inStep.near.mailbox, empty]
  have seen := inStep.next_seen alike limit settled (by simp [empty])
  rw [stops] at seen
  exact Option.map_eq_none_iff.1 seen

include plain coalescing alike calmly calm in
/-- What is delivered in one session in many rounds is delivered in the other in one. -/
theorem deliver (inStep : InStep C s t) (gives : s.givesWay = true) (waiting : t.mailbox ≠ []) :
    (∃ u, Steps P limit s u ∧ InStep C u (t.deliverRound C)) ∨
      ∃ u, Steps P limit s u ∧ Parting u (t.deliverRound C) u := by
  obtain ⟨near, turns, first, second, booked, passing⟩ := inStep
  have nothing : (t.taken C).mailbox = [] := by simp [taken, Message.nextBatch, coalescing]
  have batch : (Message.nextBatch C.config.coalescing t.mailbox).1 = t.mailbox := by
    rw [coalescing]
    rfl
  have early : Near t.mailbox s (t.taken C) := by
    refine ⟨near.like, near.alive, ?_, fun id => ?_, near.did⟩
    · rw [nothing, List.append_nil]
      exact near.mailbox
    · show _ = (Message.registered (Message.nextBatch C.config.coalescing t.mailbox).1 _).find? id
      rw [batch]
      exact Callbacks.find_registered_congr (near.callbacks id) _
  have calmed : (t.taken C).Serene := by
    refine ⟨?_, second.unharmed⟩
    have counterpart := calm_taken C t
    rwa [calm, second.itself] at counterpart
  obtain ⟨u, v, left, steps, facts, serene, same, ends⟩ := drain plain alike calmly calm limit early
    (announced_mailbox booked passing near.alive.2).2 first calmed fun _ => .inl gives
  have thinned := near_thinned calm
    (Event.thinned_coalesce (t.mailbox.filterMap Message.event?)) (.refl early.alive.2) calmed
    calmed
  have due : t.dueEvents C = Event.coalesce (t.mailbox.filterMap Message.event?) := by
    unfold dueEvents Message.events
    rw [batch, coalescing]
    rfl
  rw [same, ← due, ← deliverRound_eq] at thinned
  rcases ends with ⟨rfl, turn⟩ | cutOff
  · refine .inl ⟨u, steps, facts.trans thinned, .inr ⟨turn (.inr waiting), ?_⟩, serene,
      second.deliverRound calm, booked.deliverRound, passing.deliverRound⟩
    rw [turn_deliverRound]
    exact Turn.isDelivery_delivered _
  · refine .inr ⟨u, steps, cutOff, ⟨List.prefix_rfl, ?_⟩, fun _ idle => ?_⟩
    · rw [facts.did, ← thinned.did]
      exact (follows_deliverEvents C v _).past.filterMap _
    · rw [← thinned.did, facts.did] at idle
      exact (facts.like.trans (deliverEvents_unseen _ idle).symm).trans thinned.like

include plain coalescing alike calmly calm in
/-- Two runs stay in step, unless delivery is cut off in one of them. -/
theorem run (limit : Option Nat) (inStep : InStep C s t) :
    InStep C (s.run P limit) (t.run C limit) ∨ Severs P C limit s t := by
  fun_induction Session.run C limit t generalizing s with
  | case1 t stops =>
    rw [run_of_rest (inStep.stops alike stops)]
    exact .inl inStep
  | case2 t v next ih =>
    have onwards : ∀ {u : Session}, Steps P limit s u → InStep C u v →
        InStep C (s.run P limit) (v.run C limit) ∨ Severs P C limit s t := by
      intro u steps after
      rw [steps.run_eq]
      exact (ih after).imp id fun severs => severs.head steps (.single next)
    have mailbox : s.mailbox = t.mailbox := inStep.near.mailbox
    by_cases empty : t.mailbox = []
    · obtain ⟨u, goes, after⟩ := inStep.work alike calmly calm (by simp [mailbox, empty])
        (by simp [empty]) next
      exact onwards (.single goes) after
    cases first : s.givesWay with
    | false =>
      cases second : t.givesWay with
      | false =>
        obtain ⟨u, goes, after⟩ := inStep.work alike calmly calm (by simp [first])
          (by simp [second]) next
        exact onwards (.single goes) after
      | true =>
        exact .inr ⟨s, t, .refl, .refl, .inl (inStep.parting (cutOff_of_differ inStep.near.like
          inStep.turns (by rw [mailbox]; exact empty) first second) rfl)⟩
    | true =>
      cases second : t.givesWay with
      | false =>
        exact .inr ⟨s, t, .refl, .refl, .inr (inStep.parting (cutOff_of_differ
          inStep.near.like.symm inStep.turns.symm empty second first) inStep.near.did.symm)⟩
      | true =>
        rw [next_of_waiting (by simp [second, empty])] at next
        cases next
        rcases inStep.deliver plain coalescing alike calmly calm first empty with
          ⟨u, steps, after⟩ | ⟨u, steps, parting⟩
        · exact onwards steps after
        · exact .inr ⟨u, _, steps, .single (next_of_waiting (by simp [second, empty])),
            .inl parting⟩

end Modes
end InStep

end Session
end SerialDispatch
