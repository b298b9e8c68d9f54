import SerialDispatch.Proofs.Dispatcher.Evaluation
import SerialDispatch.Proofs.Dispatcher.Lockstep
import SerialDispatch.Proofs.Dispatcher.Timetable

/-!
# Coalescing leaves out progress, and nothing else

A session is followed next to the same session with coalescing. The two keep in step until
delivery is cut off in one of them; if no callback gives a command from then on, the work goes on
in the same way, and in the end the callbacks have been told the same but for superseded progress.
Main statement: `Session.coalescing_thins`.
-/
namespace SerialDispatch

/-- The same setup in one of the modes of delivery. -/
def Setup.mode (S : Setup) (coalescing : Bool) : Setup :=
  { S with config := { S.config with coalescing := coalescing } }

/-- The calls about one dispatch: its callback each time, and what that is told. -/
def callsOf (id : DispatchId) (history : List Happening) : List (Nat × Event) :=
  (toldIn history).filter fun call => call.2.id = id

/-- Of the calls about one dispatch some are left out: progress that is followed by progress. -/
structure ThinsProgress (plain coalesced : List (Nat × Event)) : Prop where
  sublist : List.Sublist coalesced plain
  /-- All calls are there that are not about progress. -/
  others : (coalesced.filter fun call => call.2.signal.trigger ≠ .progress) =
    plain.filter fun call => call.2.signal.trigger ≠ .progress
  /-- So is progress with something else right behind it. -/
  latest : ∀ before progress next after, plain = before ++ progress :: next :: after →
    next.2.signal.trigger ≠ .progress → ∃ former later,
      coalesced = former ++ progress :: next :: later ∧
        List.Sublist former before ∧ List.Sublist later after

theorem ThinsProgress.of_thinned {plain coalesced : List (Nat × Event)}
    (thinned : Thinned CallSuperseded plain coalesced) : ThinsProgress plain coalesced := by
  refine ⟨thinned.sublist, thinned.filter_eq fun a b superseded => ?_,
    fun before progress next after whole differ => ?_⟩
  · simp [(Event.superseded_iff.1 superseded.2).1]
  · rw [whole] at thinned
    obtain ⟨former, later, rfl, sub, rest⟩ := thinned.kept fun superseded =>
      differ (Event.superseded_iff.1 superseded.2).2.1
    cases rest with
    | keep _ rest => exact ⟨former, _, rfl, sub, rest.sublist⟩
    | skip superseded _ => exact absurd (Event.superseded_iff.1 superseded.2).1 differ

/-- Coalescing thins out the calls about each dispatch if it thins out all of them. -/
theorem thinned_callsOf {history other : List Happening} (id : DispatchId)
    (thinned : Thinned CallSuperseded (toldIn history) (toldIn other)) :
    ThinsProgress (callsOf id history) (callsOf id other) := by
  refine .of_thinned ?_
  unfold callsOf
  rw [← List.filterMap_eq_filter]
  refine thinned.filterMap fun a b superseded => ?_
  have same := (Event.superseded_iff.1 superseded.2).2.2
  by_cases about : b.2.id = id
  · exact .inr ⟨a, b, by simp [Option.guard, same, about], by simp [Option.guard, about],
      superseded⟩
  · exact .inl ⟨by simp [Option.guard, same, about], by simp [Option.guard, about]⟩

namespace Session

variable {S P C : Setup} {s t u v x : Session} {limit : Nat}
  {steps : List CallerStep} {p c : List (Nat × String × Reply)}

/-- The script, begun at the session, leads through the other in a run. -/
def Passed (S : Setup) (s : Session) : List CallerStep → Session → Prop
  | [], _ => False
  | step :: rest, x =>
    (∃ limit u, step.begins? s = some (limit, u) ∧ Steps S (some limit) u x) ∨
      Passed S (s.step S step).1 rest x

/-- Messages that were sent in both sessions and are not waiting any more have been told. -/
theorem thinned_told (plain : P.config.coalescing = false) (coalescing : C.config.coalescing = true)
    (like : Like .effects s t) (alive : s.phase = .alive ∧ t.phase = .alive)
    (mailbox : s.mailbox = t.mailbox) (booked : Booked C t) (first : Passing P s)
    (second : Passing C t) : Thinned CallSuperseded (toldIn s.history) (toldIn t.history) := by
  have announced := (announced_mailbox booked second alive.2).1
  obtain ⟨batches, sent, echoes⟩ := first alive.1
  obtain ⟨others, received, follows⟩ := second alive.2
  have messages : messagesIn s.history = messagesIn t.history := by
    refine like.view _ fun h => ?_
    cases h with
    | log record => cases hp : record.event.party <;> simp [Regard.see, Happening.message?, hp]
    | note n => cases n <;> rfl
    | reached task milestone time => cases milestone <;> rfl
    | _ => rfl
  have flat : batches.flatten = others.flatten := by
    rw [sent, received, mailbox] at messages
    exact List.append_cancel_right messages
  rw [received] at announced
  have announced : Announced batches.flatten := by
    rw [flat]
    exact (List.pairwise_append.1 announced).1
  rw [echoes.told, follows.told, plain, coalescing, ← Relay.passAll_flatten _ announced, flat]
  rw [flat] at announced
  exact (Relay.passBatches_thinned announced (r := Relay.start) rfl (.refl _) true).2

/-- How two sessions agree, of which callbacks have given the commands `p` and `c` in the end. -/
inductive Accord (p c : List (Nat × String × Reply)) (s t : Session) : Prop
  /-- The same is still to be delivered, to the same effect. -/
  | near (near : Near [] s t)
  /-- No callback gives a command any more. -/
  | spoken (like : Like .effects s t) (alive : s.phase = .alive ∧ t.phase = .alive)
      (mailbox : s.mailbox = t.mailbox) (did : didIn s.history = p ∧ didIn t.history = c)
  /-- Worker and delivery have vanished. -/
  | vanished (like : Like .effects s t) (torn : s.alive = false) (quiet : s.Quiet ∧ t.Quiet)
      (told : Thinned CallSuperseded (toldIn s.history) (toldIn t.history))

theorem Accord.like (accord : Accord p c s t) : Like .effects s t := by
  cases accord with
  | near near => exact near.like
  | spoken like => exact like
  | vanished like => exact like

/-- What holds of two sessions all along: they agree, and callbacks were told the same but for
superseded progress. -/
structure Matched (P C : Setup) (p c : List (Nat × String × Reply)) (s t : Session) : Prop where
  accord : Accord p c s t
  first : s.Serene
  second : t.Serene
  booked : Booked C t
  passing : Passing P s ∧ Passing C t

namespace Matched

theorem told (matched : Matched P C p c s t) (plain : P.config.coalescing = false)
    (coalescing : C.config.coalescing = true) :
    Thinned CallSuperseded (toldIn s.history) (toldIn t.history) := by
  obtain ⟨accord, -, -, booked, passing⟩ := matched
  cases accord with
  | near near =>
    exact thinned_told plain coalescing near.like near.alive near.mailbox booked passing.1 passing.2
  | spoken like alive mailbox did =>
    exact thinned_told plain coalescing like alive mailbox booked passing.1 passing.2
  | vanished like torn quiet told => exact told

/-- A step that begins no run. -/
theorem still (matched : Matched P C p c s t) (plain : P.config.coalescing = false)
    (coalescing : C.config.coalescing = true) (alike : P.Alike C) {step : CallerStep}
    (still : step.begins? s = none) :
    Accord p c (s.step P step).1 (t.step C step).1 ∧ (s.step P step).2 = (t.step C step).2 := by
  have accord := matched.accord
  obtain ⟨like, reply⟩ := still_like alike accord.like still
  have other : step.begins? t = none := by
    by_contra begins
    obtain ⟨run, begins⟩ := Option.ne_none_iff_exists'.1 begins
    obtain ⟨limit, u, begun, -⟩ := begins_like accord.like.symm begins
    rw [still] at begun
    cases begun
  refine ⟨?_, reply⟩
  have torn : step = .teardown → Accord p c (s.step P step).1 (t.step C step).1 := by
    rintro rfl
    refine .vanished like rfl ⟨(Quiet.teardown s).quiet, (Quiet.teardown t).quiet⟩ ?_
    show Thinned _ (toldIn s.teardown.history) (toldIn t.teardown.history)
    rw [(Quiet.teardown s).told, (Quiet.teardown t).told]
    exact matched.told plain coalescing
  rcases acts_of_still (S := P) still with ⟨first, -⟩ | h
  · rcases acts_of_still (S := C) other with ⟨second, -⟩ | h
    · cases accord with
      | near near => exact .near (near.acts first second like)
      | spoken before alive mailbox did =>
        refine .spoken like ⟨first.phase.trans alive.1, second.phase.trans alive.2⟩
          (mailbox_of_acts [] before alive mailbox first second like) ?_
        rw [did_of_acts first, did_of_acts second]
        exact did
      | vanished before torn quiet told =>
        have mutes := Quiet.acts quiet.1 first
        have muted := Quiet.acts quiet.2 second
        refine .vanished like (first.alive.trans torn) ⟨mutes.quiet, muted.quiet⟩ ?_
        rw [mutes.told, muted.told]
        exact told
    · exact torn h
  · exact torn h

end Matched

theorem turn_of_begins {step : CallerStep} (begins : step.begins? s = some (limit, u)) :
    u.turn = .first := by
  cases begins_cases begins with
  | sleep | shutdown => rfl

/-- What the caller does after a run is a deed, as long as delivery goes on. -/
theorem acts_of_ends {step : CallerStep} (undead : s.stage ≠ .dead) (alive : s.phase = .alive) :
    Acts s (step.ends limit s).1 := by
  rcases ends_cases limit s step with h | h <;> rw [h]
  · rw [logShutdown_of_alive undead alive]
    exact .refl s
  · exact .frame rfl

namespace Accord

/-- The sessions that two runs have come to agree after what the caller does, too. -/
theorem ends (accord : Accord p c s t) {step : CallerStep}
    (alive : s.phase = .alive ∧ t.phase = .alive)
    (empty : s.mailbox = [] ∧ t.mailbox = []) (undead : t.stage ≠ .dead) :
    Accord p c (step.ends limit s).1 (step.ends limit t).1 ∧
      (step.ends limit s).2 = (step.ends limit t).2 := by
  obtain ⟨like, reply⟩ : Like .effects (step.ends limit s).1 (step.ends limit t).1 ∧
      (Regard.effects = .effects → (step.ends limit s).2 = (step.ends limit t).2) :=
    ends_like accord.like (.inl rfl) fun _ => ⟨⟨alive.1, empty.1⟩, alive.2, empty.2⟩
  have first : Acts s (step.ends limit s).1 :=
    acts_of_ends (accord.like.stage ▸ undead) alive.1
  have second : Acts t (step.ends limit t).1 := acts_of_ends undead alive.2
  refine ⟨?_, reply rfl⟩
  cases accord with
  | near near => exact .near (near.acts first second like)
  | spoken before _ mailbox did =>
    refine .spoken like ⟨first.phase.trans alive.1, second.phase.trans alive.2⟩
      (mailbox_of_acts [] before alive mailbox first second like) ?_
    rw [did_of_acts first, did_of_acts second]
    exact did
  | vanished before torn quiet _ => exact absurd alive.1 quiet.1.1

end Accord

/-- A part of a list that the list is a part of is the list. -/
theorem eq_of_prefixes {α : Type} {xs ys : List α} (first : xs <+: ys) (second : ys <+: xs) :
    xs = ys := first.eq_of_length_le second.length_le

section Runs

variable {limit : Option Nat} (alike : P.Alike C)
  (alive : (s.run P limit).phase = .alive ∧ (t.run C limit).phase = .alive)
  (said : didIn (s.run P limit).history <+: p) (answered : didIn (t.run C limit).history <+: c)

include alike alive said answered

/-- When no callback gives a command any more, runs lead to sessions that agree. -/
theorem accord_run (like : Like .effects s t) (did : didIn s.history = p ∧ didIn t.history = c) :
    Accord p c (s.run P limit) (t.run C limit) := by
  have first : didIn s.history <+: didIn (s.run P limit).history :=
    (follows_run P limit s).past.filterMap _
  have second : didIn t.history <+: didIn (t.run C limit).history :=
    (follows_run C limit t).past.filterMap _
  rw [did.1] at first
  rw [did.2] at second
  have idle := eq_of_prefixes said first
  have nor := eq_of_prefixes answered second
  refine .spoken (run_like alike like (.inl rfl) ⟨idle.trans did.1.symm, fun _ => alive.1⟩
    ⟨nor.trans did.2.symm, fun _ => alive.2⟩) alive ?_ ⟨idle, nor⟩
  rw [mailbox_of_rest (run_next_none P _ s), mailbox_of_rest (run_next_none C _ t)]

/-- So do they when delivery is cut off in one, if no callback gives a command from then on. -/
theorem Parting.accord_run {cut : Session} (parting : Parting s t cut)
    (settled : p = didIn cut.history ∧ c = didIn cut.history) :
    Accord p c (s.run P limit) (t.run C limit) := by
  obtain ⟨rfl, rfl⟩ := settled
  have first : didIn s.history = didIn cut.history :=
    eq_of_prefixes (((follows_run P limit s).past.filterMap _).trans said) parting.past.1
  have second : didIn t.history = didIn cut.history :=
    eq_of_prefixes (((follows_run C limit t).past.filterMap _).trans answered) parting.past.2
  exact Session.accord_run alike alive said answered (parting.like first second) ⟨first, second⟩

end Runs

namespace Matched

/-- A step that begins a run. -/
theorem ran (matched : Matched P C p c s t) (plain : P.config.coalescing = false)
    (coalescing : C.config.coalescing = true) (alike : P.Alike C) (calmly : P.calm = P)
    (calm : C.calm = C) {step : CallerStep} (same : step.calm = step)
    (begins : step.begins? s = some (limit, u))
    (said : didIn (s.step P step).1.history <+: p)
    (answered : didIn (t.step C step).1.history <+: c)
    (settled : ∀ v, step.begins? t = some (limit, v) → ∀ x,
      Steps P (some limit) u x ∨ Steps C (some limit) v x → x.CutOff →
        p = didIn x.history ∧ c = didIn x.history) :
    Accord p c (s.step P step).1 (t.step C step).1 ∧ (s.step P step).2 = (t.step C step).2 := by
  obtain ⟨accord, first, second, booked, passing⟩ := matched
  obtain ⟨acts, there⟩ := acts_of_begins begins
  obtain ⟨other, v, follows, together, limits⟩ := begins_like accord.like begins
  obtain rfl : limit = other := limits.resolve_right fun h => by cases h.1
  have others := (acts_of_begins follows).1
  have alive : s.phase = .alive ∧ t.phase = .alive := by
    cases accord with
    | near near => exact near.alive
    | spoken like alive => exact alive
    | vanished like torn =>
      rw [torn] at there
      cases there
  have begun := first.begins same begins
  have follow := second.begins same follows
  have going : (u.run P (some limit)).phase = .alive :=
    begun.alive_run calmly _ (acts.phase.trans alive.1)
  have goes : (v.run C (some limit)).phase = .alive :=
    follow.alive_run calm _ (others.phase.trans alive.2)
  have ended : Booked C (v.run C (some limit)) := (booked.begins follows).run _
  have undead : (v.run C (some limit)).stage ≠ .dead := fun dead => (ended.2 dead).1 goes
  rw [step_of_begins begins] at said ⊢
  rw [step_of_begins follows] at answered ⊢
  suffices ran : Accord p c (u.run P (some limit)) (v.run C (some limit)) from
    ran.ends ⟨going, goes⟩ ⟨mailbox_of_rest (run_next_none P _ u),
      mailbox_of_rest (run_next_none C _ v)⟩ undead
  have said : didIn (u.run P (some limit)).history <+: p :=
    ((past_ends limit _ step).filterMap _).trans said
  have answered : didIn (v.run C (some limit)).history <+: c :=
    ((past_ends limit _ step).filterMap _).trans answered
  cases accord with
  | near near =>
    have inStep : InStep C u v :=
      ⟨near.acts acts others together, .inl ((turn_of_begins begins).trans
        (turn_of_begins follows).symm), begun, follow, booked.begins follows,
        passing.2.acts others⟩
    rcases inStep.run plain coalescing alike calmly calm (some limit) with
      ran | ⟨w, x, later, latter, parting⟩
    · exact .near ran.near
    · obtain ⟨cut, parting, passed⟩ : ∃ cut, Parting w x cut ∧
          (Steps P (some limit) u cut ∨ Steps C (some limit) v cut) :=
        parting.elim (fun h => ⟨w, h, .inl later⟩) fun h => ⟨x, h, .inr latter⟩
      rw [later.run_eq] at said going ⊢
      rw [latter.run_eq] at answered goes ⊢
      exact parting.accord_run alike ⟨going, goes⟩ said answered
        (settled v follows cut passed parting.cutOff)
  | spoken like _ mailbox did =>
    exact accord_run alike ⟨going, goes⟩ said answered together
      ⟨(did_of_acts acts).trans did.1, (did_of_acts others).trans did.2⟩
  | vanished like torn =>
    rw [torn] at there
    cases there

section Script

variable (plain : P.config.coalescing = false) (coalescing : C.config.coalescing = true)
  (alike : P.Alike C) (calmly : P.calm = P) (calm : C.calm = C)

include plain coalescing alike calmly calm

theorem step (matched : Matched P C p c s t) {step : CallerStep} (same : step.calm = step)
    {rest : List CallerStep}
    (said : didIn (s.step P step).1.history <+: p)
    (answered : didIn (t.step C step).1.history <+: c)
    (settled : ∀ x, Passed P s (step :: rest) x ∨ Passed C t (step :: rest) x → x.CutOff →
      p = didIn x.history ∧ c = didIn x.history) :
    Matched P C p c (s.step P step).1 (t.step C step).1 ∧
      (s.step P step).2 = (t.step C step).2 := by
  have done : Accord p c (s.step P step).1 (t.step C step).1 ∧
      (s.step P step).2 = (t.step C step).2 := by
    cases begins : step.begins? s with
    | none => exact matched.still plain coalescing alike begins
    | some run =>
      obtain ⟨limit, u⟩ := run
      refine matched.ran plain coalescing alike calmly calm same begins said answered
        fun v follows x passed => settled x (passed.imp ?_ ?_)
      · exact fun first => .inl ⟨limit, u, begins, first⟩
      · exact fun second => .inl ⟨limit, v, follows, second⟩
  exact ⟨⟨done.1, matched.first.step calmly same, matched.second.step calm same,
    matched.booked.step step, matched.passing.1.step step, matched.passing.2.step step⟩, done.2⟩

/-- A script leads to sessions that agree, and is answered alike step by step. -/
theorem script (matched : Matched P C p c s t) (same : ∀ step ∈ steps, step.calm = step)
    (said : didIn (s.runScript P steps).history <+: p)
    (answered : didIn (t.runScript C steps).history <+: c)
    (settled : ∀ x, Passed P s steps x ∨ Passed C t steps x → x.CutOff →
      p = didIn x.history ∧ c = didIn x.history) :
    Matched P C p c (s.runScript P steps) (t.runScript C steps) ∧
      (s.entries P steps).map (fun e => (e.reply, e.clock)) =
        (t.entries C steps).map fun e => (e.reply, e.clock) := by
  induction steps generalizing s t with
  | nil => exact ⟨matched, rfl⟩
  | cons step rest ih =>
    obtain ⟨next, reply⟩ := matched.step plain coalescing alike calmly calm
      (same step List.mem_cons_self)
      (((past_script P _ rest).filterMap Happening.did?).trans said)
      (((past_script C _ rest).filterMap Happening.did?).trans answered) settled
    obtain ⟨after, replies⟩ := ih next (fun k hk => same k (List.mem_cons_of_mem step hk)) said
      answered fun x passed => settled x (passed.imp .inr .inr)
    refine ⟨after, ?_⟩
    rw [entries, entries, List.map_cons, List.map_cons, replies]
    exact congrArg (· :: _) (Prod.ext reply (next.accord.like.clock (.inl rfl)))

end Script

end Matched

theorem matched_start (P C : Setup) (p c : List (Nat × String × Reply)) :
    Matched P C p c start start := by
  have passing : ∀ S : Setup, Passing S start := fun S => passing_runScript S []
  have serene : start.Serene := ⟨rfl, fun h => by cases h⟩
  exact ⟨.near (.refl rfl), serene, serene, booked_start, passing P, passing C⟩

/-- In neither mode does a callback give a command once delivery has been cut off in one of them. -/
def SettledOnceCut (P C : Setup) (steps : List CallerStep) : Prop :=
  ∀ x, Passed P start steps x ∨ Passed C start steps x → x.CutOff →
    didIn (start.runScript P steps).history = didIn x.history ∧
      didIn (start.runScript C steps).history = didIn x.history

/-- As much has been delivered as is used up of a turn of delivery. -/
def Metered (S : Setup) (s : Session) : Prop :=
  s.phase = .alive → ∃ batches, Passes S.config.coalescing s batches ∧
    ∀ credit, s.turn = .delivery credit → Turn.length ≤ credit + batches.flatten.length

namespace Metered

theorem deliverRound (metered : Metered S s) (waiting : s.mailbox ≠ []) :
    Metered S (s.deliverRound S) := by
  intro alive
  have before := alive_of_deliverRound alive
  obtain ⟨batches, passes, used⟩ := metered before
  refine ⟨_, passes.deliverRound before alive, fun credit turn => ?_⟩
  have more : 0 < (Message.nextBatch S.config.coalescing s.mailbox).1.length := by
    have length := congrArg List.length (nextBatch_append S.config.coalescing s.mailbox)
    have less := Message.nextBatch_rest_lt S.config.coalescing waiting
    rw [List.length_append] at length
    omega
  rw [turn_deliverRound] at turn
  rw [List.flatten_append, List.length_append, List.flatten_singleton]
  cases now : s.turn with
  | worker left =>
    rw [now] at turn
    cases turn
    simp only [Turn.length]
    omega
  | delivery left =>
    have most := used left now
    rw [now] at turn
    cases left with
    | zero =>
      cases turn
      simp only [Turn.length]
      omega
    | succ left =>
      cases turn
      omega

theorem posts (metered : Metered S s) (posts : Posts s t)
    (turn : ∀ credit, t.turn = .delivery credit → s.turn = .delivery credit) : Metered S t := by
  intro alive
  have before : s.phase = .alive := posts.phase.symm.trans alive
  obtain ⟨batches, passes, used⟩ := metered before
  exact ⟨batches, passes.posts before posts, fun credit now => used credit (turn credit now)⟩

theorem next {limit : Option Nat} (metered : Metered S s) (next : s.next? S limit = some t) :
    Metered S t := by
  by_cases gives : (s.givesWay && !s.mailbox.isEmpty) = true
  · rw [next_of_waiting gives] at next
    cases next
    exact metered.deliverRound (by simp at gives; exact gives.2)
  · rw [Bool.not_eq_true] at gives
    rw [next_of_settled gives] at next
    rcases work_cases next with rfl | ⟨-, works⟩
    · exact metered.posts (.frame rfl) fun _ => id
    · refine metered.posts (.advance S works) fun credit turn => ?_
      rw [turn_advance works] at turn
      exact credit_of_nextTurn turn

theorem along {limit : Option Nat} (metered : Metered S s) (way : Steps S limit s t) :
    Metered S t := by
  induction way with
  | refl => exact metered
  | tail _ next ih => exact ih.next next

/-- A session that is cut off has sent more messages than one turn delivers. -/
theorem many (metered : Metered S s) (alive : s.phase = .alive) (cut : s.CutOff) :
    Turn.length < (messagesIn s.history).length := by
  obtain ⟨batches, passes, used⟩ := metered alive
  have most := used 0 cut.used
  have waits := List.length_pos_of_ne_nil cut.waiting
  rw [passes.sent, List.length_append]
  omega

end Metered

theorem metered_of_begins {step : CallerStep} (passing : Passing S s)
    (begins : step.begins? s = some (limit, u)) : Metered S u := by
  intro alive
  obtain ⟨batches, passes⟩ := passing.acts (acts_of_begins begins).1 alive
  refine ⟨batches, passes, fun credit turn => ?_⟩
  rw [turn_of_begins begins] at turn
  cases turn
  exact Nat.le_add_right _ _

theorem Orderly.along {limit : Option Nat} (orderly : Orderly S s) (there : s.alive = true)
    (way : Steps S limit s t) : Orderly S t ∧ t.alive = true := by
  induction way with
  | refl => exact ⟨orderly, there⟩
  | tail _ next ih => exact ⟨ih.1.next ih.2 next, (follows_next next).alive.trans ih.2⟩

/-- A session that sends no more messages than one turn delivers is never cut off. -/
theorem uncut_of_few (orderly : Orderly S s) (passing : Passing S s)
    (few : (messagesIn (s.runScript S steps).history).length ≤ Turn.length)
    (passed : Passed S s steps x) : ¬ x.CutOff := by
  induction steps generalizing s with
  | nil => exact passed.elim
  | cons step rest ih =>
    rcases passed with ⟨limit, u, begins, way⟩ | passed
    · intro cut
      obtain ⟨acts, there⟩ := acts_of_begins begins
      have ordered := ((orderly.begins begins).along (acts.alive.trans there) way).1
      have alive : x.phase = .alive := by
        by_contra dead
        exact cut.waiting (ordered.empty dead)
      have past : x.history <+: (s.runScript S (step :: rest)).history := by
        refine (follows_run S (some limit) x).past.trans ?_
        rw [← way.run_eq]
        refine (past_ends limit _ step).trans ?_
        rw [← step_of_begins begins]
        exact past_script S _ rest
      have many := ((metered_of_begins passing begins).along way).many alive cut
      have most := (past.filterMap Happening.message?).length_le
      exact absurd (Nat.lt_of_lt_of_le many most) (Nat.not_lt.2 few)
    · exact ih (orderly.step step) (passing.step step) few passed

/-- So callbacks may give what commands they like where no more is sent. -/
theorem settled_of_few (first : (messagesIn (start.runScript P steps).history).length ≤ Turn.length)
    (second : (messagesIn (start.runScript C steps).history).length ≤ Turn.length) :
    SettledOnceCut P C steps := by
  have passing : ∀ S : Setup, Passing S start := fun S => passing_runScript S []
  rintro x (passed | passed) cut
  · exact absurd cut (uncut_of_few (orderly_start P) (passing P) first passed)
  · exact absurd cut (uncut_of_few (orderly_start C) (passing C) second passed)

/-- Two sessions are the same but for progress that the callbacks are not told in the second. -/
structure SameButProgress (s t : Session) : Prop where
  /-- What caller and worker log, and when. -/
  logs : ∀ party, party ≠ .delivery → logsOf party s.history = logsOf party t.history
  /-- Which operations are constructed and executed, when, on what, and how their steps end. -/
  labour : labourIn s.history = labourIn t.history
  /-- When the dispatches pass which milestone. -/
  moments : momentsIn s.history = momentsIn t.history
  /-- What is sent to the callbacks, the outcomes among it. -/
  messages : messagesIn s.history = messagesIn t.history
  store : s.store = t.store
  tokens : s.tokens = t.tokens
  calls : ∀ id, ThinsProgress (callsOf id s.history) (callsOf id t.history)

theorem Matched.same (matched : Matched P C p c s t) (plain : P.config.coalescing = false)
    (coalescing : C.config.coalescing = true) : SameButProgress s t := by
  have like := matched.accord.like
  have view : ∀ {α : Type} (f : Happening → Option α),
      (∀ h, (Regard.effects.see h).bind f = f h) → s.history.filterMap f = t.history.filterMap f :=
    fun f seen => like.view f seen
  refine ⟨fun party caller => view _ fun h => ?_, view _ fun h => ?_, view _ fun h => ?_,
    view _ fun h => ?_, like.store, like.tokens,
    fun id => thinned_callsOf id (matched.told plain coalescing)⟩
  · cases h with
    | log record =>
      cases hp : record.event.party <;> simp [Regard.see, Happening.logOf?, hp, caller.symm]
    | note n => cases n <;> rfl
    | reached task milestone time => cases milestone <;> rfl
    | _ => rfl
  all_goals
    cases h with
    | log record => cases hp : record.event.party <;> simp [Regard.see, Happening.labour?,
        Happening.moment?, Happening.message?, hp]
    | note n => cases n <;> rfl
    | reached task milestone time => cases milestone <;> rfl
    | _ => rfl

end Session

theorem Setup.alike_modes (S : Setup) : (S.mode false).Alike (S.mode true) :=
  ⟨fun _ c => by cases c <;> rfl, fun _ _ => rfl⟩

theorem Setup.calm_mode (S : Setup) (coalescing : Bool) :
    (S.calm.mode coalescing).calm = S.calm.mode coalescing :=
  congrArg (mode · coalescing) S.calm_calm

namespace Session

/-- Coalescing leaves out progress, and nothing else. -/
theorem coalescing_thins (S : Setup) (steps : List CallerStep)
    (settled : SettledOnceCut (S.calm.mode false) (S.calm.mode true)
      (steps.map CallerStep.calm)) :
    SameButProgress (start.runScript (S.calm.mode false) (steps.map CallerStep.calm))
      (start.runScript (S.calm.mode true) (steps.map CallerStep.calm)) ∧
    (start.entries (S.calm.mode false) (steps.map CallerStep.calm)).map
        (fun e => (e.reply, e.clock)) =
      (start.entries (S.calm.mode true) (steps.map CallerStep.calm)).map
        fun e => (e.reply, e.clock) := by
  have same : ∀ step ∈ steps.map CallerStep.calm, step.calm = step := by
    intro step hstep
    obtain ⟨original, -, rfl⟩ := List.mem_map.1 hstep
    exact original.calm_calm
  obtain ⟨after, replies⟩ := (matched_start _ _ _ _).script rfl rfl S.calm.alike_modes
    (S.calm_mode false) (S.calm_mode true) same List.prefix_rfl List.prefix_rfl settled
  exact ⟨after.same rfl rfl, replies⟩

/-- Two operations that report their progress twice in a row; the first callback cancels the second
dispatch when it is told. -/
theorem coalescing_thins_twice :
    let S : Setup := ⟨{}, .ofAll (.ofBodies
      [[.progress ⟨none, 1, 9⟩, .progress ⟨none, 2, 9⟩, .work 10, .progress ⟨none, 9, 9⟩]]
      fun _ => some 0), [], 300⟩
    let steps : List CallerStep :=
      [.command (.start ⟨.backup, ⟨[]⟩⟩ .default .unneeded none [(.progress, [.cancel 1])]),
        .begin .backup .unneeded, .sleep 50, .shutdown]
    let plain := start.runScript (S.calm.mode false) (steps.map CallerStep.calm)
    let coalesced := start.runScript (S.calm.mode true) (steps.map CallerStep.calm)
    (callsOf 1 plain.history).length = 4 ∧ (callsOf 1 coalesced.history).length = 3 ∧
      SameButProgress plain coalesced := by
  intro S steps plain coalesced
  let view (s : Session) : Nat × Nat :=
    ((messagesIn s.history).length, (callsOf 1 s.history).length)
  have first : view plain = (7, 4) := runScript_of_within 60 view (by decide +kernel)
  have second : view coalesced = (7, 3) := runScript_of_within 60 view (by decide +kernel)
  obtain ⟨messages, calls⟩ := Prod.mk.inj first
  obtain ⟨received, heard⟩ := Prod.mk.inj second
  refine ⟨calls, heard, (coalescing_thins S steps (settled_of_few ?_ ?_)).1⟩
  · exact Nat.le_trans (Nat.le_of_eq messages) (by decide)
  · exact Nat.le_trans (Nat.le_of_eq received) (by decide)

/-- Callbacks may be late in one mode. The mailbox is full when worker and delivery begin; the
worker takes the last dispatch before it is delivered that the callback of the one before, which
cancels it, is told. -/
theorem not_always_same_work : ¬ ∀ (S : Setup) (steps : List CallerStep),
    logsOf .worker
        (start.runScript (S.calm.mode false) (steps.map CallerStep.calm)).history =
      logsOf .worker
        (start.runScript (S.calm.mode true) (steps.map CallerStep.calm)).history := by
  intro always
  let steps : List CallerStep :=
    List.replicate 127 (.begin .delete .unneeded) ++
      .command (.start ⟨.delete, ⟨[]⟩⟩ .default .unneeded none [(.finished, [.cancel 128])]) ::
      .begin .backup .unneeded :: (List.range 128).map (fun n => .command (.cancel n)) ++
      [.sleep 50, .shutdown]
  have plain : (start.scriptWithin ((Setup.sample []).calm.mode false) 600
      (steps.map CallerStep.calm)).map (fun s => (logsOf .worker s.history).getLast?) =
      some (some ⟨10, some ⟨129, .backup⟩, .operationComplete .ok⟩) := by decide +kernel
  have coalesced : (start.scriptWithin ((Setup.sample []).calm.mode true) 600
      (steps.map CallerStep.calm)).map (fun s => (logsOf .worker s.history).getLast?) =
      some (some ⟨0, some ⟨129, .backup⟩, .cancelledBeforeStart⟩) := by decide +kernel
  have same := congrArg List.getLast? (always (.sample []) steps)
  rw [runScript_of_within 600 (fun s => (logsOf .worker s.history).getLast?) plain,
    runScript_of_within 600 (fun s => (logsOf .worker s.history).getLast?) coalesced] at same
  simp at same

end Session
end SerialDispatch
