import Mathlib.Data.List.Basic
import SerialDispatch.Proofs.Dispatcher.Aftermath
import SerialDispatch.Proofs.Dispatcher.Evaluation
import SerialDispatch.Proofs.Dispatcher.Serenity

/-!
# A callback that panics ends delivery

A session is followed next to its calm counterpart. The two are the same until a callback panics;
from then on nothing is delivered in the one, while the other goes on, with the same work as long as
no callback gives a command. Main statement: `Session.panic_truncates`.
-/
namespace SerialDispatch
namespace Session

variable {S : Setup} {s t u v : Session} {limit : Option Nat}

/-- In a session that is quiet no callback can panic, so a run has its counterpart. -/
theorem Quiet.calm_run (limit : Option Nat) (quiet : s.Quiet) :
    (s.run S limit).calm = s.calm.run S.calm limit := by
  fun_induction Session.run S limit s with
  | case1 s stops =>
    rw [run_of_rest]
    rw [calm_next fun gives => by simp [quiet.2] at gives, stops]
    rfl
  | case2 s t next ih =>
    rw [ih (quiet.next next).quiet]
    refine (run_of_next ?_).symm
    rw [calm_next fun gives => by simp [quiet.2] at gives, next]
    rfl

theorem Quiet.calm_step (quiet : s.Quiet) (step : CallerStep) :
    (s.step S step).1.calm = (s.calm.step S.calm step.calm).1 := by
  cases begins : step.begins? s with
  | none => rw [calm_still begins]
  | some run =>
    obtain ⟨limit, u⟩ := run
    have follows : step.calm.begins? s.calm = some (limit, u.calm) := by
      rw [calm_begins, begins]
      rfl
    have still := (quiet.acts (acts_of_begins begins).1).quiet
    rw [step_of_begins begins, step_of_begins follows, ← still.calm_run, calm_ends]

theorem Quiet.calmed (quiet : s.Quiet) : s.calm.Quiet :=
  ⟨quiet.1, by rw [show s.calm.mailbox = s.mailbox.map Message.calm from rfl, quiet.2]; rfl⟩

theorem didIn_calm (history : List Happening) :
    didIn (history.map Happening.calm) = didIn history := by
  rw [didIn, List.filterMap_map]
  refine congrArg (history.filterMap ·) (funext fun h => ?_)
  cases h <;> rfl

theorem toldIn_calm (history : List Happening) :
    toldIn (history.map Happening.calm) = toldIn history := by
  rw [toldIn, List.filterMap_map]
  refine congrArg (history.filterMap ·) (funext fun h => ?_)
  cases h <;> rfl

/-- Who panics is decided by what delivery has taken. -/
theorem panicsIn_congr {history other : List Happening} (same : sentIn history = sentIn other)
    (call : Nat × Event) : PanicsIn history call ↔ PanicsIn other call := by
  unfold PanicsIn
  rw [same]

/-- No callback has panicked, and the other session is the calm counterpart. -/
structure Together (S : Setup) (s t : Session) : Prop where
  counterpart : s.calm = t
  orderly : Orderly S s
  unharmed : s.phase ≠ .panicked
  tame : ∀ call ∈ toldIn s.history, ¬ PanicsIn s.history call

/-- A callback has panicked. Until then the sessions were counterparts; from then on nothing is
delivered, and if no callback gives a command in the other session either, the same work is done. -/
structure Parted (S : Setup) (s t : Session) : Prop where
  quiet : s.Quiet
  parting : ∃ before call after later,
    s.history = before ++ .told call.1 call.2 :: after ∧
    t.history = before.map Happening.calm ++ .told call.1 call.2 :: later ∧
    lostIn before = [] ∧ (∀ h ∈ after, h.isMute = true) ∧ PanicsIn s.history call ∧
    ∀ earlier ∈ toldIn before, ¬ PanicsIn s.history earlier
  work : didIn t.history = didIn s.history → Like .labour s.calm t

namespace Parted

/-- The one session goes on without delivery, and the other goes on. -/
theorem go (parted : Parted S s t) (mutes : Mutes s u) (past : t.history <+: v.history)
    (work : didIn v.history = didIn t.history → Like .labour s.calm t → Like .labour u.calm v) :
    Parted S u v := by
  obtain ⟨quiet, ⟨before, call, after, later, hs, ht, unlost, silent, panics, tame⟩, labour⟩ :=
    parted
  obtain ⟨calm, more, hmore, muted⟩ := mutes
  obtain ⟨rest, hrest⟩ := past
  have same : sentIn u.history = sentIn s.history := by
    rw [hmore, sentIn_append, sentIn_mute muted, List.append_nil]
  refine ⟨calm, ⟨before, call, after ++ more, later ++ rest, ?_, ?_, unlost, fun h hh => ?_,
    (panicsIn_congr same call).2 panics,
    fun earlier hearlier => (panicsIn_congr same earlier).not.2 (tame earlier hearlier)⟩,
    fun idle => ?_⟩
  · rw [hmore, hs, List.append_assoc, List.cons_append]
  · rw [← hrest, ht, List.append_assoc, List.cons_append]
  · rcases List.mem_append.1 hh with hh | hh
    · exact silent h hh
    · exact muted h hh
  -- All commands of callbacks in the first session came before the panic, and so did those of the
  -- other before its own.
  · have did : didIn u.history = didIn s.history := by
      rw [hmore, didIn_append, didIn_mute muted, List.append_nil]
    have first : didIn s.history <+: didIn t.history := by
      refine ⟨didIn later, ?_⟩
      have told : didIn [Happening.told call.1 call.2] = [] := rfl
      rw [hs, ht, ← List.singleton_append, ← List.singleton_append (l := later), didIn_append,
        didIn_append, didIn_append, didIn_append, didIn_calm, didIn_mute silent, told]
      simp
    have second : didIn t.history <+: didIn v.history :=
      ⟨didIn rest, by rw [← hrest, didIn_append]⟩
    have between : didIn t.history = didIn s.history :=
      (first.eq_of_length_le (by rw [← did, ← idle]; exact second.length_le)).symm
    exact work (by rw [idle, did, between]) (labour between)

theorem run (parted : Parted S s t) {limit other : Option Nat}
    (same : limit = other ∨ s.stage.isOver = true) :
    Parted S (s.run S limit) (t.run S.calm other) := by
  refine parted.go (parted.quiet.run S limit) (follows_run S.calm other t).past fun idle like => ?_
  rw [parted.quiet.calm_run]
  refine run_like (.refl S.calm) like (same.imp id fun halted => ⟨rfl, ?_⟩)
    ⟨(parted.quiet.calmed.run S.calm limit).did, fun h => by cases h⟩ ⟨idle, fun h => by cases h⟩
  rw [← halted]
  exact isOver_calm s.stage

/-- What the caller does after a run. -/
theorem ends (parted : Parted S s t) (step : CallerStep) {limit other : Nat}
    (same : limit = other ∨ s.stage.isOver = true) :
    Parted S (step.ends limit s).1 (step.calm.ends other t).1 := by
  refine parted.go (parted.quiet.ends limit step) (past_ends other t step.calm) fun _ like => ?_
  have limits : limit = other ∨ Regard.labour = .labour ∧ s.calm.stage.isOver = true :=
    same.imp id fun halted => ⟨rfl, (isOver_calm s.stage).trans halted⟩
  have ended : Like .labour (step.calm.ends limit s.calm).1 (step.calm.ends other t).1 :=
    (ends_like like limits fun h => by cases h).1
  rw [calm_ends] at ended
  exact ended

theorem step (parted : Parted S s t) (step : CallerStep) :
    Parted S (s.step S step).1 (t.step S.calm step.calm).1 := by
  refine parted.go (parted.quiet.step S step) (past_step S.calm t step.calm) fun idle like => ?_
  rw [parted.quiet.calm_step]
  exact (step_like (.refl S.calm) like (parted.quiet.calmed.step S.calm step.calm).did idle
    (fun h => by cases h) fun h => by cases h).1

end Parted

/-- Events delivered one after another are delivered in two portions. -/
theorem deliverEvents_append (before rest : List Event)
    (alive : (s.deliverEvents S before).phase = .alive) :
    s.deliverEvents S (before ++ rest) = (s.deliverEvents S before).deliverEvents S rest := by
  induction before generalizing s with
  | nil => rfl
  | cons e before ih =>
    rw [List.cons_append]
    rw [deliverEvents] at alive
    rw [deliverEvents, deliverEvents]
    by_cases going : (s.deliverEvent S e).phase = .alive
    · simp only [going, if_true] at alive ⊢
      exact ih alive
    · simp only [going, if_false] at alive

/-- An event whose callback has not panicked is written down first, when it is delivered at last. -/
theorem told_deliverEvents {e : Event} {callback : Callback Command} (rest : List Event)
    (found : s.callbacks.find? e.id = some callback)
    (unmoved : callback.panicsOn ≠ some e.signal.trigger) :
    s.history ++ [.told callback.number e] <+: (s.deliverEvents S (e :: rest)).history := by
  have first : s.history ++ [.told callback.number e] <+: (s.deliverEvent S e).history := by
    rw [deliverEvent_reacts found unmoved]
    refine List.IsPrefix.trans ?_ (Posts.reactions S callback.number _ _).past
    rw [history_record]
    exact List.prefix_rfl
  rw [deliverEvents]
  split
  · exact first.trans (follows_deliverEvents S _ rest).past
  · exact first

/-- A batch in which a callback panics parts the sessions. -/
theorem parted_deliverRound (orderly : Orderly S s) (waiting : s.mailbox ≠ [])
    (panicked : (s.deliverRound S).phase = .panicked) :
    Parted S (s.deliverRound S) (s.calm.deliverRound S.calm) := by
  have alive : s.phase = .alive := by
    by_contra dead
    exact waiting (orderly.empty dead)
  have taken : Attended (s.taken S) := (orderly.attended alive).taken S
  have booked : Booked S (s.taken S) := orderly.booked.frame rfl rfl id
  rcases taken.deliverEvents (S := S) alive (s.dueEvents S) with ⟨going, -⟩ |
    ⟨before, e, rest, u, callback, hevents, hu, going, attended, found, panics, hpanic⟩
  · rw [deliverRound_eq, going] at panicked
    cases panicked
  · have reached : s.calm.deliverRound S.calm = u.calm.deliverEvents S.calm (e :: rest) := by
      have part := calm_deliverEvents S (s.taken S) before
        (by rw [hu, going]; exact fun h => by cases h)
      rw [hu, calm_taken] at part
      rw [deliverRound_eq, dueEvents_calm, hevents,
        deliverEvents_append _ _ (by rw [← part]; exact going),
        ← part]
    rw [deliverRound_eq, hpanic, reached]
    generalize hpart : ({ u with callbacks := u.callbacks.after e }.record
      (.told callback.number e)).panicDelivery = p
    have history : p.history = u.history ++ .told callback.number e :: [] := by
      rw [← hpart]
      exact history_record _ _
    have same : sentIn p.history = sentIn u.history := by
      rw [history, sentIn_append]
      exact List.append_nil _
    have calmly : u.calm.callbacks.find? e.id = some callback.calm := by
      rw [show u.calm.callbacks = u.callbacks.calm from rfl, Callbacks.find_calm, found]
      rfl
    obtain ⟨later, hlater⟩ := told_deliverEvents (S := S.calm) rest calmly fun h => by cases h
    obtain ⟨first, hfirst, hnumber, hpanics⟩ := attended.registered e.id callback found
    have tame := attended.tame (hu ▸ booked.deliverEvents before) going
    refine ⟨⟨?_, ?_⟩, ⟨u.history, (callback.number, e), [], later, history, ?_, attended.unlost,
      (fun _ h => by cases h),
      (panicsIn_congr same _).2 ⟨first, hfirst, hnumber, hpanics.trans panics⟩,
      fun earlier hearlier => (panicsIn_congr same earlier).not.2 (tame earlier hearlier)⟩,
      fun idle => ?_⟩
    · rw [← hpart]
      exact fun h => by cases h
    · rw [← hpart]
      rfl
    · rw [← hlater, history_calm, List.append_assoc]
      rfl
    · have did : didIn p.history = didIn u.calm.history := by
        rw [history, didIn_append, history_calm, didIn_calm]
        exact List.append_nil _
      refine Like.trans ?_ (deliverEvents_unseen _ (idle.trans did)).symm
      rw [← hpart]
      exact Like.unseen u.calm rfl

namespace Together

/-- Both sessions go on, and no callback has panicked yet. -/
theorem go (together : Together S s t) (counterpart : u.calm = v) (orderly : Orderly S u)
    (unharmed : u.phase ≠ .panicked)
    (silenced : u.phase ≠ .alive → Mutes s u) : Together S u v := by
  refine ⟨counterpart, orderly, unharmed, ?_⟩
  by_cases alive : u.phase = .alive
  · exact orderly.tame alive
  · obtain ⟨-, more, hmore, muted⟩ := silenced alive
    intro call hcall
    rw [hmore, toldIn_append, toldIn_mute muted, List.append_nil] at hcall
    refine (panicsIn_congr ?_ call).not.2 (together.tame call hcall)
    rw [hmore, sentIn_append, sentIn_mute muted, List.append_nil]

/-- Until a callback panics, both sessions run side by side. -/
theorem run (together : Together S s t) (there : s.alive = true) (limit : Option Nat) :
    Together S (s.run S limit) (t.run S.calm limit) ∨
      Parted S (s.run S limit) (t.run S.calm limit) := by
  fun_induction Session.run S limit s generalizing t with
  | case1 s stops =>
    obtain ⟨rfl, orderly, unharmed, tame⟩ := together
    have rest : s.calm.next? S.calm limit = none := by
      rw [calm_next fun gives => ?_, stops]
      · rfl
      · rw [next_of_waiting gives] at stops
        cases stops
    rw [run_of_rest rest]
    exact .inl ⟨rfl, orderly, unharmed, tame⟩
  | case2 s u next ih =>
    obtain rfl := together.counterpart
    have orderly := together.orderly.next there next
    have alive := (follows_next next).alive.trans there
    have empty : s.calm.mailbox.isEmpty = s.mailbox.isEmpty := List.isEmpty_map
    by_cases harm : (s.givesWay && !s.mailbox.isEmpty) = true ∧
        (s.deliverRound S).phase = .panicked
    · obtain ⟨gives, panicked⟩ := harm
      rw [next_of_waiting gives] at next
      cases next
      have follows : s.calm.next? S.calm limit = some (s.calm.deliverRound S.calm) :=
        next_of_waiting (by rw [givesWay_calm, empty]; exact gives)
      simp only [Bool.and_eq_true, Bool.not_eq_true', List.isEmpty_eq_false_iff] at gives
      rw [run_of_next follows]
      exact .inr ((parted_deliverRound together.orderly gives.2 panicked).run (.inl rfl))
    · have follows : s.calm.next? S.calm limit = some u.calm := by
        rw [calm_next fun gives panicked => harm ⟨gives, panicked⟩, next]
        rfl
      rw [run_of_next follows]
      have phase : u.phase = s.phase := by
        rcases (follows_next next).phase with same | panicked
        · exact same
        · refine phase_of_settled ?_ next
          by_contra gives
          rw [Bool.not_eq_false] at gives
          have given := next
          rw [next_of_waiting gives] at given
          cases given
          exact harm ⟨gives, panicked⟩
      refine ih (together.go rfl orderly (by rw [phase]; exact together.unharmed)
        fun dead => ?_) alive
      rw [phase] at dead
      exact Quiet.next ⟨dead, together.orderly.empty dead⟩ next

/-- A step leads both sessions to counterparts, or parts them. -/
theorem step (together : Together S s t) (step : CallerStep) :
    Together S (s.step S step).1 (t.step S.calm step.calm).1 ∨
      Parted S (s.step S step).1 (t.step S.calm step.calm).1 := by
  have orderly := together.orderly.step step
  obtain rfl := together.counterpart
  cases begins : step.begins? s with
  | none =>
    refine .inl (together.go (by rw [calm_still begins]) orderly ?_ fun dead => ?_)
    · rcases acts_of_still (S := S) begins with ⟨acts, -⟩ | rfl
      · rw [acts.phase]
        exact together.unharmed
      · exact fun h => by cases h
    · rcases acts_of_still (S := S) begins with ⟨acts, -⟩ | rfl
      · rw [acts.phase] at dead
        exact Quiet.acts ⟨dead, together.orderly.empty dead⟩ acts
      · exact Quiet.teardown s
  | some run =>
    obtain ⟨limit, u⟩ := run
    obtain ⟨acts, there⟩ := acts_of_begins begins
    have follows : step.calm.begins? s.calm = some (limit, u.calm) := by
      rw [calm_begins, begins]
      rfl
    have begun : Together S u u.calm := by
      refine together.go rfl (together.orderly.begins begins) ?_ fun dead => ?_
      · rw [acts.phase]
        exact together.unharmed
      · rw [acts.phase] at dead
        exact Quiet.acts ⟨dead, together.orderly.empty dead⟩ acts
    rw [step_of_begins begins] at orderly ⊢
    rw [step_of_begins follows]
    rcases begun.run (by rw [acts.alive]; exact there) (some limit) with ran | parted
    · refine .inl (ran.go ?_ orderly ?_ fun dead => ?_)
      · rw [← ran.counterpart, calm_ends]
      · rw [phase_ends]
        exact ran.unharmed
      · rw [phase_ends] at dead
        exact Quiet.ends ⟨dead, ran.orderly.empty dead⟩ limit step
    · exact .inr (parted.ends step (.inl rfl))

end Together

/-- The same is done by the workers of two sessions, of which the second is calm. -/
structure SameWork (s t : Session) : Prop where
  /-- What is logged of it, and when. -/
  logs : logsOf .worker s.history = logsOf .worker t.history
  /-- Which operations are constructed and executed, when, on what, and how their steps end. -/
  labour : labourIn s.history = labourIn t.history
  /-- When the dispatches pass which milestone behind their submission. -/
  moments : (momentsIn s.history).filter (fun m => !m.milestone.isSubmitted) =
    (momentsIn t.history).filter (fun m => !m.milestone.isSubmitted)
  /-- What is sent to the callbacks, be it delivered or not. -/
  messages : (messagesIn s.history).map Message.calm = messagesIn t.history
  tokens : s.tokens = t.tokens
  store : s.store = t.store

theorem messagesIn_calm (history : List Happening) :
    messagesIn (history.map Happening.calm) = (messagesIn history).map Message.calm := by
  rw [messagesIn, messagesIn, List.filterMap_map, List.map_filterMap]
  refine congrArg (history.filterMap ·) (funext fun h => ?_)
  cases h <;> rfl

theorem SameWork.of_like (like : Like .labour s.calm t) : SameWork s t := by
  have view : ∀ {α : Type} (f : Happening → Option α), (∀ h, f h.calm = f h) →
      (∀ h, (Regard.labour.see h).bind f = f h) →
      s.history.filterMap f = t.history.filterMap f := by
    intro α f uncalm seen
    refine Eq.trans ?_ (like.view f seen)
    rw [history_calm, List.filterMap_map]
    exact congrArg (s.history.filterMap ·) (funext fun h => (uncalm h).symm)
  refine ⟨view _ (fun h => by cases h <;> rfl) fun h => ?_,
    view _ (fun h => by cases h <;> rfl) fun h => ?_, ?_, ?_, like.tokens, like.store⟩
  · cases h with
    | log record => cases hp : record.event.party <;> simp [Regard.see, Happening.logOf?, hp]
    | note n => cases n <;> rfl
    | reached task milestone time => cases milestone <;> rfl
    | _ => rfl
  · cases h with
    | log record => cases hp : record.event.party <;> simp [Regard.see, Happening.labour?, hp]
    | note n => cases n <;> rfl
    | reached task milestone time => cases milestone <;> rfl
    | _ => rfl
  · rw [momentsIn, momentsIn, List.filter_filterMap, List.filter_filterMap]
    refine view _ (fun h => by cases h <;> rfl) fun h => ?_
    cases h with
    | log record => cases hp : record.event.party <;> simp [Regard.see, Happening.moment?, hp]
    | note n => cases n <;> rfl
    | reached task milestone time => cases milestone <;> rfl
    | _ => rfl
  · rw [← messagesIn_calm, ← history_calm]
    refine like.view _ fun h => ?_
    cases h with
    | log record => cases hp : record.event.party <;> simp [Regard.see, Happening.message?, hp]
    | note n => cases n <;> rfl
    | reached task milestone time => cases milestone <;> rfl
    | _ => rfl

/-- What a panic of a callback takes away. The history of `s` comes to the call that panics and goes
on behind it; `t` is the same session with callbacks that never panic. -/
structure Truncated (s t : Session) (before : List Happening) (call : Nat × Event)
    (after later : List Happening) : Prop where
  history : s.history = before ++ .told call.1 call.2 :: after
  calm : t.history = before.map Happening.calm ++ .told call.1 call.2 :: later
  panics : PanicsIn s.history call
  first : ∀ earlier ∈ toldIn before, ¬ PanicsIn s.history earlier
  /-- It is the last call, and one of the calls that are made otherwise. -/
  calls : toldIn s.history = toldIn before ++ [call] ∧
    toldIn t.history = toldIn before ++ call :: toldIn later
  /-- All that is sent from then on is lost, once; nothing was before. -/
  lost : lostIn s.history = messagesIn after
  /-- If no callback gives a command from then on in the calm session, the work is the same, and so
  is what is lost and what is sent in the calm session. -/
  same : didIn later = [] → SameWork s t ∧ (messagesIn after).map Message.calm = messagesIn later

theorem lostIn_mute {more : List Happening} (mute : ∀ h ∈ more, h.isMute = true) :
    lostIn more = messagesIn more := by
  refine List.filterMap_congr fun h hh => ?_
  cases h with
  | sent m => cases mute _ hh
  | _ => rfl

theorem Parted.truncated (parted : Parted S s t) :
    ∃ before call after later, Truncated s t before call after later := by
  obtain ⟨-, ⟨before, call, after, later, hs, ht, unlost, silent, panics, tame⟩, labour⟩ := parted
  have idle : didIn s.history = didIn before := by
    rw [hs, didIn_append, ← List.singleton_append, didIn_append, didIn_mute silent]
    simp [didIn, Happening.did?]
  have told : toldIn [Happening.told call.1 call.2] = [call] := rfl
  refine ⟨before, call, after, later, hs, ht, panics, tame, ⟨?_, ?_⟩, ?_, fun none => ?_⟩
  · rw [hs, toldIn_append, ← List.singleton_append, toldIn_append, told, toldIn_mute silent,
      List.append_nil]
  · rw [ht, toldIn_append, toldIn_calm, ← List.singleton_append, toldIn_append, told,
      List.singleton_append]
  · rw [hs, lostIn_append, ← List.singleton_append, lostIn_append, unlost, lostIn_mute silent]
    rfl
  have others : didIn t.history = didIn before := by
    rw [ht, didIn_append, didIn_calm, ← List.singleton_append, didIn_append, none]
    simp [didIn, Happening.did?]
  have same := SameWork.of_like (labour (others.trans idle.symm))
  refine ⟨same, ?_⟩
  -- The messages before the panic are the same, so those behind it are.
  have messages := same.messages
  have unsent : messagesIn [Happening.told call.1 call.2] = [] := rfl
  rw [hs, ht, ← List.singleton_append, ← List.singleton_append (l := later), messagesIn_append,
    messagesIn_append, messagesIn_append, messagesIn_append, messagesIn_calm, unsent,
    List.map_append, List.map_append] at messages
  exact List.append_cancel_left messages

/-- The session after a script and the session after its calm counterpart. -/
theorem compared_runScript (S : Setup) (steps : List CallerStep) :
    Together S (start.runScript S steps) (start.runScript S.calm (steps.map CallerStep.calm)) ∨
      Parted S (start.runScript S steps) (start.runScript S.calm (steps.map CallerStep.calm)) := by
  unfold runScript
  induction steps using List.reverseRecOn with
  | nil => exact .inl ⟨rfl, orderly_start S, fun h => (by cases h), fun _ h => by cases h⟩
  | append_singleton steps step ih =>
    rw [List.map_append, List.foldl_append, List.foldl_append]
    rcases ih with together | parted
    · exact together.step step
    · exact .inr (parted.step step)

/-- When a callback has panicked, delivery has ended, one way or the other. -/
theorem dead_of_panic (S : Setup) (steps : List CallerStep)
    (panicked : ∃ call ∈ toldIn (start.runScript S steps).history,
      PanicsIn (start.runScript S steps).history call) :
    (start.runScript S steps).phase ≠ .alive := by
  rcases compared_runScript S steps with together | parted
  · obtain ⟨call, told, panics⟩ := panicked
    exact absurd panics (together.tame call told)
  · exact parted.quiet.1

/-- What a callback that panics changes in a session: `t` is the same session with callbacks that
never panic. -/
structure Truncates (S : Setup) (s t : Session) : Prop where
  calm : ∀ call ∈ toldIn t.history, ¬ PanicsIn t.history call
  compared : (∀ call ∈ toldIn s.history, ¬ PanicsIn s.history call) ∧ s.calm = t ∨
    ∃ before call after later, Truncated s t before call after later
  /-- A shutdown of the caller comes to its end with the worker. -/
  shutdown : s.alive = true → s.owner = .held →
    (∃ call ∈ toldIn (s.step S .shutdown).1.history, PanicsIn (s.step S .shutdown).1.history call) →
      Answered s.clock (s.step S .shutdown).1 (s.step S .shutdown).2
  /-- So does one in the background. -/
  background : (∃ call ∈ toldIn s.history, PanicsIn s.history call) → s.owner = .closing →
    s.stage.isOver = false
  reports : Reports s.history

/-- A callback that panics ends delivery, and takes nothing else away. -/
theorem panic_truncates (S : Setup) (steps : List CallerStep) :
    Truncates S (start.runScript S steps)
      (start.runScript S.calm (steps.map CallerStep.calm)) := by
  have orderly := orderly_runScript S steps
  refine ⟨fun call _ => (serene_runScript S steps).tame call, ?_, fun there held panicked => ?_,
    fun panicked closing => attending_runScript S steps (dead_of_panic S steps panicked) closing,
    orderly.reports⟩
  · rcases compared_runScript S steps with together | parted
    · exact .inl ⟨together.tame, together.counterpart⟩
    · exact .inr parted.truncated
  · have longer : ((start.runScript S steps).step S .shutdown).1 =
        start.runScript S (steps ++ [.shutdown]) := by
      unfold runScript
      rw [List.foldl_append]
      rfl
    refine orderly.answered there held ?_
    rw [longer] at panicked ⊢
    exact dead_of_panic S _ panicked

/-- A callback that would have cancelled another dispatch does not when it panics. -/
theorem not_always_same_logs : ¬ ∀ (S : Setup) (steps : List CallerStep),
    logsOf .worker (start.runScript S steps).history =
      logsOf .worker (start.runScript S.calm (steps.map CallerStep.calm)).history := by
  intro always
  let steps : List CallerStep :=
    [.command (.start ⟨.backup, ⟨[]⟩⟩ .default .unneeded (some .progress)
        [(.progress, [.cancel 1])]),
      .begin .backup .unneeded, .sleep 50]
  have harmed : (start.scriptWithin (.sample []) 60 steps).map (fun s => logsOf .worker s.history) =
      some [⟨10, some ⟨1, .backup⟩, .operationComplete .ok⟩,
        ⟨20, some ⟨2, .backup⟩, .operationComplete .ok⟩] := by decide +kernel
  have calm : (start.scriptWithin (Setup.sample []).calm 60 (steps.map CallerStep.calm)).map
      (fun s => logsOf .worker s.history) =
      some [⟨10, some ⟨1, .backup⟩, .operationComplete .ok⟩,
        ⟨10, some ⟨2, .backup⟩, .cancelledBeforeStart⟩] := by decide +kernel
  have same := always (.sample []) steps
  rw [runScript_of_within 60 _ harmed, runScript_of_within 60 _ calm] at same
  simp at same

end Session
end SerialDispatch
