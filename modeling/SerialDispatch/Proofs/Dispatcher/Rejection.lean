import SerialDispatch.Proofs.Dispatcher.Evaluation
import SerialDispatch.Proofs.Dispatcher.Renumbering

/-!
# Starts that are rejected

A start of a kind for which nothing is registered panics before anything is taken or sent. All that
it leaves behind is that it was counted, and what it was answered. So the session goes on as if the
start had never been made, except that later callbacks are numbered by one higher; and no id is
lost. Main statement: `Session.rejections_traceless`.
-/
namespace SerialDispatch

/-- One start more was counted: what would have had the number `c` has the next one, and so on. -/
def Recount.beyond (c : Nat) : Recount := ⟨fun n => if n < c then n else n + 1, 1, [], []⟩

/-- The session and the panic when a start of a kind is rejected. -/
def Session.rejecting (s : Session) (kind : Kind) : Session × Reply :=
  ({ s with starts := s.starts + 1 }, .startPanicked s.starts (.unrecognized ⟨kind⟩))

namespace Instant

/-- The instant without the command that is carried out next. -/
def passedOver (i : Instant) : Instant :=
  match i.focus with
  | .caller => { i with script := i.script.tail }
  | .work .. =>
    match i.session.stage with
    | .running task n (_ :: rest) _ => { i with session := { i.session with
        stage := .running task n rest i.session.clock } }
    | _ => i
  | .batch .. => i
  | .reaction limit step events callback commands => { i with
      focus := .reaction limit step events callback commands.tail }

/-- The instant with so many starts more, and with something else behind it. -/
def recalling (i : Instant) (more : Nat) (past : List Happening) (answers : List (Reply × Nat)) :
    Instant := { i with
  session := { i.session with starts := i.session.starts + more, trail := past }
  answers := answers }

end Instant

/-- The limit leaves the other starts of a script as they are: it is lower by one, or no start has
come to it. -/
def Enough (S : Setup) (steps : List CallerStep) (limit : Nat) : Prop :=
  limit + 1 = S.startLimit ∨
    S.startLimit ≤ limit ∧ (Session.start.runScript S steps).starts < S.startLimit

/-- At an instant of a script a request is started whose kind is not registered. -/
structure Rejects (S : Setup) (steps : List CallerStep) (i : Instant) (kind : Kind) : Prop where
  occurs : Instant.Occurs S steps i
  starts : ∃ request input surface panicsOn reactions,
    i.command? = some (.start request input surface panicsOn reactions) ∧ request.kind = kind
  held : i.session.owner = .held
  room : i.session.starts < S.startLimit
  unsupported : S.registry.supports kind = false

/-- What a script comes to, `final`, after a start was rejected at an instant, by what it comes to
without that start, `other`. -/
structure Traceless (i rejected : Instant) (final other : Session × List (Reply × Nat)) : Prop where
  /-- Ids, handles, tokens, worker, delivery, sinks, store and clock are the same. -/
  session : final.1 =
    { other.1.recount (.beyond i.session.starts) with trail := final.1.trail }
  /-- The same happens after it. -/
  history : ∃ later, other.1.history = i.session.history ++ later ∧
    final.1.history = rejected.session.history ++
      later.map (Happening.recount (.beyond i.session.starts))
  /-- The caller is answered the same after it. -/
  answers : ∃ later, other.2 = i.answers ++ later ∧ final.2 = rejected.answers ++
    later.map fun answer => (answer.1.recount (.beyond i.session.starts), answer.2)
  logs : logsIn final.1.history = logsIn other.1.history
  messages : messagesIn final.1.history = (messagesIn other.1.history).map
    (Message.alter (Callback.recount (.beyond i.session.starts)))
  told : toldIn final.1.history = (toldIn other.1.history).map fun call =>
    ((Recount.beyond i.session.starts).number call.1, call.2)

namespace Instant

variable {S : Setup} {steps : List CallerStep} {i j : Instant} {kind : Kind} {command : Command}

theorem recount_passedOver (r : Recount) (i : Instant) :
    (i.recount r).passedOver = i.passedOver.recount r := by
  obtain ⟨s, focus, script, answers⟩ := i
  cases focus with
  | work limit step =>
    simp only [passedOver, recount, Focus.recount, show (s.recount r).stage = s.stage from rfl]
    cases s.stage with
    | running task n rest wake =>
      cases rest <;> rfl
    | _ => rfl
  | _ => rfl

/-- What is not changed by another count is determined, but for what is behind it. -/
theorem recount_recalling {number : Nat → Nat} (same : i.recount ⟨number, 0, [], []⟩ = i)
    (more : Nat) (past : List Happening) (answers : List (Reply × Nat)) :
    (i.recalling 0 [] []).recount ⟨number, more, past, answers⟩ =
      i.recalling more past answers := by
  have fresh : (i.recalling 0 [] []).recount ⟨number, more, past, answers⟩ =
      (i.recount ⟨number, 0, [], []⟩).recalling more past (answers ++ []) := rfl
  rw [fresh, same, List.append_nil]

/-- A start that is rejected is passed over, but for the count and for the answer. -/
theorem carriedOut_rejecting (command : i.command? = some command) (kind : Kind) :
    i.carriedOut (i.session.rejecting kind) = i.passedOver.recalling 1
      (i.carriedOut (i.session.rejecting kind)).session.trail
      (i.carriedOut (i.session.rejecting kind)).answers := by
  obtain ⟨s, focus, script, answers⟩ := i
  cases focus with
  | caller => rfl
  | work limit step =>
    cases hs : s.stage with
    | running task n rest wake =>
      simp only [command?, hs] at command
      cases rest with
      | nil => cases command
      | cons first rest =>
        cases first with
        | command c =>
          simp only [carriedOut, passedOver, hs]
          rfl
        | _ => cases command
    | _ => simp [command?, hs] at command
  | batch limit step events => cases command
  | reaction limit step events callback commands =>
    cases commands with
    | nil => cases command
    | cons c rest => rfl

/-- What is written down when a start is rejected is neither logged nor told nor sent. -/
theorem mark_carriedOut (command : i.command? = some command) (kind : Kind) : ∃ mark,
    (i.carriedOut (i.session.rejecting kind)).session.history = i.session.history ++ mark ∧
      logsIn mark = [] ∧ toldIn mark = [] ∧ messagesIn mark = [] := by
  rcases carriedOut_cases command with same | ⟨task, n, rest, same⟩ | ⟨callback, focus, same⟩
  · rw [same]
    exact ⟨[], (List.append_nil _).symm, rfl, rfl, rfl⟩
  · rw [same]
    exact ⟨_, Session.history_record _ _, rfl, rfl, rfl⟩
  · rw [same]
    exact ⟨_, Session.history_record _ _, rfl, rfl, rfl⟩

/-- What is behind an instant stays when a command is passed over. -/
theorem passedOver_behind (i : Instant) : i.passedOver.session.starts = i.session.starts ∧
    i.passedOver.session.trail = i.session.trail ∧ i.passedOver.answers = i.answers := by
  obtain ⟨s, focus, script, answers⟩ := i
  cases focus with
  | work limit step =>
    simp only [passedOver]
    split <;> exact ⟨rfl, rfl, rfl⟩
  | _ => exact ⟨rfl, rfl, rfl⟩

/-- What is still to come at an instant without the command that is next, and without what is
behind it. One start less is left for it. -/
def remainder (S : Setup) (i : Instant) : Session × List (Reply × Nat) :=
  (i.passedOver.recalling 0 [] []).outcome (S.limited (S.startLimit - 1))

/-- What a start that is rejected changes in what comes after it. -/
def rejection (i : Instant) (kind : Kind) : Recount := { Recount.beyond i.session.starts with
  past := (i.carriedOut (i.session.rejecting kind)).session.trail
  answered := (i.carriedOut (i.session.rejecting kind)).answers }

section Rejects

variable (rejects : Rejects S steps i kind)
include rejects

theorem carries_rejects : ∃ command, i.command? = some command ∧
    i.next? S = some (i.carriedOut (i.session.rejecting kind)) := by
  obtain ⟨request, input, surface, panicsOn, reactions, command, rfl⟩ := rejects.starts
  have starting := Session.starting S i.session request input surface panicsOn reactions
  have done := starting.of_unsupported rejects.held rejects.room rejects.unsupported
  refine ⟨_, command, ?_⟩
  rw [next_of_command command, done]
  rfl

theorem passedOver_fixed {number : Nat → Nat} (same : ∀ n < i.session.starts, number n = n) :
    i.passedOver.recount ⟨number, 0, [], []⟩ = i.passedOver := by
  rw [← recount_passedOver, rejects.occurs.recount_eq rfl rfl rfl same]

theorem final_eq : (Session.start.runScript S steps, Session.start.answers S steps) =
    ((i.remainder S).1.recount (i.rejection kind), (i.rejection kind).answered ++
      (i.remainder S).2.map fun answer => (answer.1.recount (i.rejection kind), answer.2)) := by
  obtain ⟨c, command, next⟩ := carries_rejects rejects
  have fixed : i.passedOver.recount ⟨(Recount.beyond i.session.starts).number, 0, [], []⟩ =
      i.passedOver := passedOver_fixed rejects fun n hn => if_pos hn
  have counted : (i.passedOver.recalling 0 [] []).recount (i.rejection kind) =
      i.carriedOut (i.session.rejecting kind) :=
    (recount_recalling fixed 1 _ _).trans (carriedOut_rejecting command kind).symm
  rw [← Occurs.outcome (rejects.occurs.tail next), ← counted]
  refine outcome_recount (S := S.limited (S.startLimit - 1)) S.startLimit fun n low _ => ?_
  have low : i.session.starts ≤ n := by
    rw [← i.passedOver_behind.1]
    exact low
  have room := rejects.room
  -- No number below that of the start is given any more; all that are given are moved up by one.
  refine ⟨?_, fun _ => if_neg (Nat.not_lt_of_le low)⟩
  show S.startLimit ≤ n + 1 ↔ S.startLimit - 1 ≤ n
  omega

theorem other_eq {limit : Nat} (enough : Enough S steps limit) :
    i.passedOver.outcome (S.limited limit) =
      ({ (i.remainder S).1 with trail := (i.remainder S).1.trail ++ i.session.trail },
        i.answers ++ (i.remainder S).2) := by
  have fixed : i.passedOver.recount ⟨id, 0, [], []⟩ = i.passedOver :=
    passedOver_fixed rejects fun _ _ => rfl
  have counted := recount_recalling fixed 0 i.passedOver.session.trail i.passedOver.answers
  have final : (Session.start.runScript S steps).starts = (i.remainder S).1.starts + 1 :=
    congrArg (fun done => done.1.starts) (final_eq rejects)
  have outcome := outcome_recount (S := S.limited (S.startLimit - 1)) limit
    (i := i.passedOver.recalling 0 [] [])
    (r := ⟨id, 0, i.passedOver.session.trail, i.passedOver.answers⟩) fun n _ high => by
      -- The starts end below the limit, or the limit is the one that the remainder has.
      have high : n ≤ (i.remainder S).1.starts := high
      refine ⟨?_, fun _ => rfl⟩
      show limit ≤ n + 0 ↔ S.startLimit - 1 ≤ n
      unfold Enough at enough
      omega
  rw [counted] at outcome
  refine Eq.trans outcome ?_
  rw [i.passedOver_behind.2.1, i.passedOver_behind.2.2,
    Session.recount_same (fun _ => rfl) _ rfl]
  simp only [Reply.recount_same (r := ⟨id, 0, i.session.trail, i.answers⟩) fun _ => rfl]
  exact congrArg (fun answers => (_, i.answers ++ answers)) (List.map_id _)

/-- What happened before the start knows nothing of its number. -/
theorem history_fixed : i.session.history.map (Happening.recount (.beyond i.session.starts)) =
    i.session.history := by
  have fixed := rejects.occurs.recount_eq
    (r := ⟨(Recount.beyond i.session.starts).number, 0, [], []⟩) rfl rfl rfl fun n hn => if_pos hn
  have trail : i.session.trail.map (Happening.recount (.beyond i.session.starts)) ++ [] =
      i.session.trail := congrArg (fun i => i.session.trail) fixed
  rw [Session.history, List.map_reverse, ← List.append_nil (List.map _ _), trail]

theorem traceless_of_rejects {limit : Nat} (enough : Enough S steps limit) :
    Traceless i (i.carriedOut (i.session.rejecting kind))
      (Session.start.runScript S steps, Session.start.answers S steps)
      (i.passedOver.outcome (S.limited limit)) := by
  obtain ⟨c, command, -⟩ := carries_rejects rejects
  obtain ⟨mark, marked, logs, told, messages⟩ := mark_carriedOut command kind
  have fixed := history_fixed rejects
  have before : (i.passedOver.outcome (S.limited limit)).1.history =
      i.session.history ++ (i.remainder S).1.history := by
    rw [other_eq rejects enough]
    exact List.reverse_append
  have after : (Session.start.runScript S steps, Session.start.answers S steps).1.history =
      (i.carriedOut (i.session.rejecting kind)).session.history ++
        (i.remainder S).1.history.map (Happening.recount (.beyond i.session.starts)) := by
    rw [final_eq rejects, Session.history, Session.recount, List.reverse_append, ← List.map_reverse]
    rfl
  -- The mark of the start is neither logged nor sent nor told.
  have renumbered : ∀ {α : Type} (view : Happening → Option α), mark.filterMap view = [] →
      (Session.start.runScript S steps, Session.start.answers S steps).1.history.filterMap view =
        ((i.passedOver.outcome (S.limited limit)).1.history.map
          (Happening.recount (.beyond i.session.starts))).filterMap view := by
    intro α view unseen
    rw [after, before, marked, List.map_append, fixed, List.filterMap_append,
      List.filterMap_append, List.filterMap_append, unseen, List.append_nil]
  refine ⟨?_, ⟨_, before, after⟩, ⟨(i.remainder S).2, ?_, ?_⟩, ?_, ?_, ?_⟩
  · rw [final_eq rejects, other_eq rejects enough]
    rfl
  · rw [other_eq rejects enough]
  · rw [final_eq rejects]
    rfl
  · exact (renumbered _ logs).trans (logsIn_recount _ _)
  · exact (renumbered _ messages).trans (messagesIn_recount _ _)
  · exact (renumbered _ told).trans (toldIn_recount _ _)

end Rejects

/-- Until a start that is below the limit, a limit that is lower by one makes no difference. -/
theorem Occurs.limited (occurs : Occurs S steps j) (room : j.session.starts < S.startLimit)
    {limit : Nat} (spared : S.startLimit ≤ limit + 1) : Occurs (S.limited limit) steps j := by
  have same := occurs.recount_eq (r := ⟨id, 0, [], []⟩) rfl rfl rfl fun _ _ => rfl
  have leads := leads_recount (r := ⟨id, 0, [], []⟩) limit occurs
    fun k next before goes rest request input surface panicsOn reactions command => by
      have counted := starts_of_start goes command
      have ends := starts_leads rest
      refine ⟨?_, fun _ => rfl⟩
      show limit ≤ k.session.starts + 0 ↔ S.startLimit ≤ k.session.starts
      split at counted <;> omega
  rw [same] at leads
  exact leads

end Instant

namespace Session

/-- A start of a kind that is not registered panics, and that is all. -/
structure Unfelt (S : Setup) (steps : List CallerStep) (i : Instant) (kind : Kind) : Prop where
  /-- It panics whatever its callback would answer about a surface. -/
  panics : i.next? S = some (i.carriedOut (i.session.rejecting kind))
  message : (StartPanic.unrecognized ⟨kind⟩).message =
    "unrecognized operation request: " ++ kind.name
  /-- Its callback is never called. -/
  unheard : ∀ e, (i.session.starts, e) ∉ toldIn (start.runScript S steps).history
  /-- Its callback is never on its way to delivery. -/
  unattached : ∀ id callback, .attach id callback ∈ messagesIn (start.runScript S steps).history →
    callback.number ≠ i.session.starts
  traceless : ∀ limit, Enough S steps limit →
    Traceless i (i.carriedOut (i.session.rejecting kind))
      (start.runScript S steps, start.answers S steps) (i.passedOver.outcome (S.limited limit))
  /-- Without a start of the caller the session is that of the script without it. -/
  deleted : ∀ limit, Enough S steps limit → ∀ earlier command later,
    steps = earlier ++ .command command :: later →
    i = ⟨start.runScript S earlier, .caller, .command command :: later, start.answers S earlier⟩ →
    i.passedOver.outcome (S.limited limit) =
      (start.runScript (S.limited limit) (earlier ++ later),
        start.answers (S.limited limit) (earlier ++ later))

/-- Ids are given to the starts that succeed, and to no others, in the order of the starts. -/
structure InOrder (S : Setup) (steps : List CallerStep) : Prop where
  ids : (start.runScript S steps).handles.map Prod.fst =
    List.range' 1 (start.runScript S steps).handles.length
  /-- The next id is one that sixty-four bits can hold. -/
  fits : (start.runScript S steps).handles.length < UInt64.size - 1 →
    (start.runScript S steps).nextId < UInt64.size
  given : ∀ i j request input surface panicsOn reactions callback handle, Instant.Occurs S steps i →
    i.command? = some (.start request input surface panicsOn reactions) → i.next? S = some j →
    (i.session.perform S (.start request input surface panicsOn reactions)).2 =
      .started callback handle →
    handle = i.session.handles.length ∧ (∃ token, j.session.handles =
      i.session.handles ++ [(handle + 1, token)]) ∧
        j.session.handles <+: (start.runScript S steps).handles
  only : ∀ i j, Instant.Occurs S steps i → i.next? S = some j →
    j.session.handles = i.session.handles ∨
      ∃ request input surface panicsOn reactions callback handle,
        i.command? = some (.start request input surface panicsOn reactions) ∧
        (i.session.perform S (.start request input surface panicsOn reactions)).2 =
          .started callback handle

/-- Of the starts of a script those of kinds that are not registered leave no trace, and those that
succeed are given their ids in order. -/
structure StartsApart (S : Setup) (steps : List CallerStep) : Prop where
  unfelt : ∀ i kind, Rejects S steps i kind → Unfelt S steps i kind
  inOrder : Answering S steps → InOrder S steps

theorem Unfelt.of_rejects {S : Setup} {steps : List CallerStep} {i : Instant} {kind : Kind}
    (rejects : Rejects S steps i kind) : Unfelt S steps i kind := by
  obtain ⟨c, command, next⟩ := Instant.carries_rejects rejects
  have room := rejects.room
  have beyond : ∀ n, (Recount.beyond i.session.starts).number n ≠ i.session.starts := by
    intro n
    show (if n < i.session.starts then n else n + 1) ≠ i.session.starts
    split <;> omega
  have lower : Enough S steps (S.startLimit - 1) := .inl (by omega)
  have traceless := Instant.traceless_of_rejects rejects lower
  refine ⟨next, rfl, fun e told => ?_, fun id callback sent same => ?_,
    fun limit enough => Instant.traceless_of_rejects rejects enough, ?_⟩
  · rw [traceless.told] at told
    obtain ⟨call, -, same⟩ := List.mem_map.1 told
    exact beyond _ (congrArg Prod.fst same)
  · rw [traceless.messages] at sent
    obtain ⟨m, -, altered⟩ := List.mem_map.1 sent
    cases m with
    | attach =>
      cases altered
      exact beyond _ same
    | event => cases altered
  · rintro limit enough earlier command later rfl rfl
    have spared : S.startLimit ≤ limit + 1 := by
      rcases enough with fewer | ⟨more, -⟩ <;> omega
    have occurs := (Instant.occurs_between (S := S) earlier later).limited room spared
    exact Instant.Occurs.outcome occurs

theorem InOrder.of_answering {S : Setup} {steps : List CallerStep}
    (answering : Answering S steps) : InOrder S steps := by
  have enrolled : (start.runScript S steps).Enrolled :=
    (Instant.occurs_last S steps).enrolled answering
  refine ⟨enrolled.ids, fun few => ?_, ?_, ?_⟩
  · rw [enrolled.next]
    exact Nat.add_lt_of_lt_sub few
  · intro i j request input surface panicsOn reactions callback handle occurs command next started
    have handed := Instant.handles_leads (Instant.leads_outcome (S := S) j)
    rw [Instant.Occurs.outcome (occurs.tail next)] at handed
    rw [Instant.next_of_command command] at next
    cases next
    rcases (starting S i.session request input surface panicsOn reactions).handed with
      ⟨reply, handles⟩ | ⟨none, -⟩
    · rw [reply] at started
      cases started
      rw [(occurs.enrolled answering).next] at handles
      exact ⟨rfl, ⟨_, (Instant.handles_carriedOut command _).trans handles⟩, handed⟩
    · exact absurd started (none callback handle)
  · intro i j occurs next
    rcases i.startless_or with startless | ⟨request, input, surface, panicsOn, reactions, command⟩
    · exact .inl (congrArg (fun given => given.2.2) (Instant.given_next next startless))
    · rw [Instant.next_of_command command] at next
      cases next
      rcases (starting S i.session request input surface panicsOn reactions).handed with
        ⟨reply, -⟩ | ⟨-, same⟩
      · exact .inr ⟨_, _, _, _, _, _, _, command, reply⟩
      · exact .inl ((Instant.handles_carriedOut command _).trans same)

/-- Starts of kinds that are not registered leave no trace in a session, and all others are given
ids one after another. -/
theorem rejections_traceless (S : Setup) (steps : List CallerStep) : StartsApart S steps where
  unfelt _ _ := Unfelt.of_rejects
  inOrder := InOrder.of_answering

/-- A start of another kind is rejected, though its callback would panic if it were asked, and the
start after it is given the first id. -/
theorem rejections_traceless_of_two :
    (Rejects (.only .backup) [.begin .revoke .panics, .begin .backup .unneeded]
      (.first [.begin .revoke .panics, .begin .backup .unneeded]) .revoke ∧
    Unfelt (.only .backup) [.begin .revoke .panics, .begin .backup .unneeded]
      (.first [.begin .revoke .panics, .begin .backup .unneeded]) .revoke) ∧
    Answering (.only .backup) [.begin .revoke .panics, .begin .backup .unneeded] ∧
    InOrder (.only .backup) [.begin .revoke .panics, .begin .backup .unneeded] ∧
    (start.runScript (.only .backup) [.begin .revoke .panics, .begin .backup .unneeded]).handles =
      [(1, 0)] := by
  have rejects : Rejects (.only .backup) [.begin .revoke .panics, .begin .backup .unneeded]
      (.first [.begin .revoke .panics, .begin .backup .unneeded]) .revoke :=
    ⟨.refl, ⟨_, _, _, _, _, rfl, rfl⟩, rfl, by decide, rfl⟩
  have answering : Answering (.only .backup)
      [.begin .revoke .panics, .begin .backup .unneeded] := by
    intro i request input surface panicsOn reactions occurs command supported
    rcases Relation.ReflTransGen.cases_head occurs with rfl | ⟨j, next, rest⟩
    · cases command
      cases supported
    · cases next
      rcases Relation.ReflTransGen.cases_head rest with rfl | ⟨k, next, rest⟩
      · cases command
        nofun
      · cases next
        rcases Relation.ReflTransGen.cases_head rest with rfl | ⟨_, next, -⟩
        · cases command
        · cases next
  have apart := rejections_traceless (.only .backup)
    [.begin .revoke .panics, .begin .backup .unneeded]
  exact ⟨⟨rejects, apart.unfelt _ _ rejects⟩, answering, apart.inOrder answering, rfl⟩

end Session
end SerialDispatch
