import SerialDispatch.Proofs.Dispatcher.Survival

/-!
# What starts give out

A start is refused, or it panics, or it is given the next id with a fresh token: `Session.Starting`.
Nothing else counts starts or gives out ids and handles: `Instant.given_next`. So as long as every
callback answers when it is asked about a surface, ids are given out one after another, from one on
and without a gap. Main statement: `Instant.Occurs.enrolled`.
-/
namespace SerialDispatch
namespace Session

/-- How many starts were counted, the next id, and the handles that were given out. -/
def given (s : Session) : Nat × DispatchId × List (DispatchId × Token) :=
  (s.starts, s.nextId, s.handles)

variable {S : Setup} {s t : Session}

/-- All that a start can lead to. -/
inductive Starting (S : Setup) (s : Session) (request : Request) (surface : Surface) :
    Session × Reply → Prop
  | limited (full : S.startLimit ≤ s.starts) :
      Starting S s request surface (s, .refused .tooManyStarts)
  | gone (room : s.starts < S.startLimit) (free : s.owner ≠ .held) :
      Starting S s request surface ({ s with starts := s.starts + 1 }, .refused .gone)
  | unrecognized (room : s.starts < S.startLimit) (held : s.owner = .held)
      (unsupported : S.registry.supports request.kind = false) :
      Starting S s request surface ({ s with starts := s.starts + 1 },
        .startPanicked s.starts (.unrecognized ⟨request.kind⟩))
  | unanswered (room : s.starts < S.startLimit) (held : s.owner = .held)
      (supported : S.registry.supports request.kind = true) (panics : surface = .panics) :
      Starting S s request surface (({ s with starts := s.starts + 1 }).allot,
        .startPanicked s.starts .surface)
  | begun {t : Session} (room : s.starts < S.startLimit) (held : s.owner = .held)
      (supported : S.registry.supports request.kind = true) (answers : surface ≠ .panics)
      (given : t.given =
        (s.starts + 1, s.nextId + 1, s.handles ++ [(s.nextId, s.tokens.fresh)])) :
      Starting S s request surface (t, .started s.starts s.handles.length)

theorem given_send (s : Session) (m : Message Command) : (s.send m).given = s.given := by
  unfold send
  split <;> rfl

theorem given_submit (callback : Nat) (task : Task) : (s.submit callback task).given =
    (s.starts, s.nextId, s.handles ++ [(task.id, task.token)]) := by
  unfold submit
  cases s.inbox.submit task with
  | ok inbox => rfl
  | error e =>
    have refused : ∀ u : Session, (u.refuse task.id task.token).given = u.given := fun u =>
      given_send { u with tokens := u.tokens.cancel task.token } _
    have handed : ∀ {u v : Session}, u.given = v.given →
        { u with handles := u.handles ++ [(task.id, task.token)] }.given =
          (v.starts, v.nextId, v.handles ++ [(task.id, task.token)]) := fun same => by
      simp only [given, Prod.mk.injEq] at same ⊢
      exact ⟨same.1, same.2.1, by rw [same.2.2]⟩
    exact handed (refused (s.log _))

theorem starting (S : Setup) (s : Session) (request : Request) (input : CryptoInput)
    (surface : Surface) (panicsOn : Option Trigger) (reactions : List (Trigger × List Command)) :
    Starting S s request surface
      (s.perform S (.start request input surface panicsOn reactions)) := by
  simp only [perform]
  split
  · exact .limited ‹_›
  · rename_i below
    have room := Nat.lt_of_not_le below
    split
    · rename_i held
      unfold startRequest Registry.resolve
      cases slot : S.registry.slot request.kind with
      | none => exact .unrecognized room held (by rw [Registry.supports, slot]; rfl)
      | some factory =>
        have supported : S.registry.supports request.kind = true := by
          rw [Registry.supports, slot]
          rfl
        dsimp only
        split
        · exact .unanswered room held supported ‹_›
        · refine .begun room held supported ‹_› ?_
          have sent := given_send { s with starts := s.starts + 1 }.allot
            (.attach s.nextId ⟨s.starts, panicsOn, reactions⟩)
          simp only [given, Prod.mk.injEq] at sent
          rw [given_submit, sent.1, sent.2.1, sent.2.2]
          rfl
    · exact .gone room ‹_›

theorem Starting.of_unsupported {request : Request} {surface : Surface} {done : Session × Reply}
    (starting : Starting S s request surface done) (held : s.owner = .held)
    (room : s.starts < S.startLimit) (unsupported : S.registry.supports request.kind = false) :
    done = ({ s with starts := s.starts + 1 },
      .startPanicked s.starts (.unrecognized ⟨request.kind⟩)) := by
  cases starting with
  | limited full => exact absurd room (Nat.not_lt_of_le full)
  | gone _ free => exact absurd held free
  | unrecognized => rfl
  | unanswered _ _ supported | begun _ _ supported =>
    rw [unsupported] at supported
    cases supported

/-- Starts are counted up to the limit. -/
theorem Starting.counted {request : Request} {surface : Surface} {done : Session × Reply}
    (starting : Starting S s request surface done) :
    done.1.starts = if S.startLimit ≤ s.starts then s.starts else s.starts + 1 := by
  cases starting with
  | limited full => rw [if_pos full]
  | begun room _ _ _ given =>
    rw [if_neg (Nat.not_le_of_lt room)]
    exact congrArg Prod.fst given
  | gone room | unrecognized room => rw [if_neg (Nat.not_le_of_lt room)]
  | unanswered room =>
    rw [if_neg (Nat.not_le_of_lt room)]
    rfl

/-- A start is given a handle, which stands for the next id, or there is no handle for it. -/
theorem Starting.handed {request : Request} {surface : Surface} {done : Session × Reply}
    (starting : Starting S s request surface done) :
    (done.2 = .started s.starts s.handles.length ∧
      done.1.handles = s.handles ++ [(s.nextId, s.tokens.fresh)]) ∨
    ((∀ callback handle, done.2 ≠ .started callback handle) ∧ done.1.handles = s.handles) := by
  cases starting with
  | begun _ _ _ _ given => exact .inl ⟨rfl, congrArg (fun given => given.2.2) given⟩
  | _ => exact .inr ⟨nofun, rfl⟩

/-- The chores of the worker give nothing out. -/
theorem given_chores (chores : Chores s t) : t.given = s.given := by
  refine lift_parts (R := fun s t => t.given = s.given) chores (fun _ => rfl)
    (fun first second => second.trans first) fun chore => ?_
  cases chore with
  | own same => rw [same]; rfl
  | wrote => rfl
  | sent m => exact given_send _ m

theorem given_logShutdown (s : Session) : s.logShutdown.given = s.given :=
  logShutdown_induct (motive := fun u => u.given = s.given) rfl (fun _ same => same)
    fun _ same => same

/-- A command that is no start gives nothing out. -/
theorem given_perform {c : Command} (other : ∀ request input surface panicsOn reactions,
    c ≠ .start request input surface panicsOn reactions) :
    (s.perform S c).1.given = s.given := by
  cases c with
  | start => exact absurd rfl (other _ _ _ _ _)
  | cancel handle =>
    simp only [perform, cancel]
    cases s.handles[handle]? with
    | none => rfl
    | some pair =>
      dsimp only
      split <;> rfl
  | drop =>
    simp only [perform]
    split <;> rfl
  | unreadable word fault => rfl

theorem given_advance (works : s.advance? S = some t)
    (other : ∀ task n rest wake request input surface panicsOn reactions,
      s.stage ≠ .running task n (.command (.start request input surface panicsOn reactions) :: rest)
        wake) : t.given = s.given := by
  cases turn_of_advance works with
  | routine chores => exact given_chores chores
  | constructing task ready chores => exact (given_chores chores).trans rfl
  | commanded task n c rest wake running =>
    exact given_perform fun request input surface panicsOn reactions same =>
      other task n rest wake request input surface panicsOn reactions (by rw [running, same])
  | finishing => exact given_logShutdown { s with owner := .gone }

end Session

namespace Instant

variable {S : Setup} {steps : List CallerStep} {i j k : Instant}

/-- The instant is no start's. -/
def Startless (i : Instant) : Prop := ∀ request input surface panicsOn reactions,
  i.command? ≠ some (.start request input surface panicsOn reactions)

theorem startless_or (i : Instant) : i.Startless ∨ ∃ request input surface panicsOn reactions,
    i.command? = some (.start request input surface panicsOn reactions) := by
  unfold Startless
  by_cases starts : ∃ request input surface panicsOn reactions,
      i.command? = some (.start request input surface panicsOn reactions)
  · exact .inr starts
  · exact .inl fun _ _ _ _ _ command => starts ⟨_, _, _, _, _, command⟩

/-- Without a start nothing is given out. -/
theorem given_next (next : i.next? S = some j) (startless : i.Startless) :
    j.session.given = i.session.given := by
  cases move_of_next next with
  | @still s step script answers still =>
    cases step with
    | command c =>
      exact Session.given_perform fun _ _ _ _ _ same => startless _ _ _ _ _ (congrArg some same)
    | sleep duration => rw [Session.step_sleep (Session.rests_of_sleep still)]
    | shutdown => rw [Session.step_shutdown (Session.rests_of_shutdown still)]
    | lateProgress sink update => exact Session.given_chores (.through s sink _)
    | latePrevent sink => exact Session.given_chores (.through s sink _)
    | _ => rfl
  | @begun s u step script answers limit begins =>
    cases Session.begins_cases begins with
    | sleep | shutdown => rfl
  | @worked s t step script answers limit settled works =>
    rcases Session.work_cases works with rfl | ⟨ready, works⟩
    · rfl
    · exact Session.given_advance works fun task n rest wake request input surface panicsOn
        reactions running => startless request input surface panicsOn reactions
          (command_of_running running ready limit step script answers)
  | @ended s step script answers limit =>
    rcases Session.ends_cases limit s step with h | h <;> rw [h]
    · exact Session.given_logShutdown s
    · rfl
  | reacted =>
    exact Session.given_perform fun _ _ _ _ _ same => startless _ _ _ _ _ (congrArg some same)
  | _ => rfl

theorem given_carriedOut {c : Command} (command : i.command? = some c) (done : Session × Reply) :
    (i.carriedOut done).session.given = done.1.given := by
  rcases carriedOut_cases command with same | ⟨task, n, rest, same⟩ | ⟨callback, focus, same⟩ <;>
    rw [same] <;> rfl

theorem handles_carriedOut {c : Command} (command : i.command? = some c)
    (done : Session × Reply) : (i.carriedOut done).session.handles = done.1.handles :=
  congrArg (fun given => given.2.2) (given_carriedOut command done)

/-- What is given out next is given out by a start. -/
theorem starting_next (next : i.next? S = some j) : j.session.given = i.session.given ∨
    ∃ request input surface panicsOn reactions done,
      i.command? = some (.start request input surface panicsOn reactions) ∧
      Session.Starting S i.session request surface done ∧ j.session.given = done.1.given := by
  rcases i.startless_or with startless | ⟨request, input, surface, panicsOn, reactions, command⟩
  · exact .inl (given_next next startless)
  · rw [next_of_command command] at next
    cases next
    exact .inr ⟨request, input, surface, panicsOn, reactions, _, command,
      Session.starting S i.session request input surface panicsOn reactions,
      given_carriedOut command _⟩

theorem starts_of_start (next : i.next? S = some j) {request : Request} {input : CryptoInput}
    {surface : Surface} {panicsOn : Option Trigger} {reactions : List (Trigger × List Command)}
    (command : i.command? = some (.start request input surface panicsOn reactions)) :
    j.session.starts =
      if S.startLimit ≤ i.session.starts then i.session.starts else i.session.starts + 1 := by
  rw [next_of_command command] at next
  cases next
  rw [show Session.starts _ = _ from congrArg Prod.fst (given_carriedOut command _)]
  exact (Session.starting S i.session request input surface panicsOn reactions).counted

theorem starts_next (next : i.next? S = some j) : i.session.starts ≤ j.session.starts := by
  rcases i.startless_or with startless | ⟨request, input, surface, panicsOn, reactions, command⟩
  · exact Nat.le_of_eq (congrArg Prod.fst (given_next next startless)).symm
  · rw [starts_of_start next command]
    split
    · exact Nat.le_refl _
    · exact Nat.le_succ _

theorem starts_leads (leads : Leads S i j) : i.session.starts ≤ j.session.starts := by
  induction leads with
  | refl => exact Nat.le_refl _
  | tail _ next ih => exact Nat.le_trans ih (starts_next next)

end Instant

/-- Ids are given out in order, from one on and without a gap. -/
structure Session.Enrolled (s : Session) : Prop where
  ids : s.handles.map Prod.fst = List.range' 1 s.handles.length
  next : s.nextId = s.handles.length + 1

namespace Session.Enrolled

variable {S : Setup} {s t : Session}

theorem congr (enrolled : s.Enrolled) (same : t.given = s.given) : t.Enrolled := by
  simp only [given, Prod.mk.injEq] at same
  obtain ⟨-, next, handles⟩ := same
  exact ⟨by rw [handles]; exact enrolled.ids, by rw [next, handles]; exact enrolled.next⟩

theorem begun (enrolled : s.Enrolled) {n : Nat} {token : Token}
    (given : t.given = (n, s.nextId + 1, s.handles ++ [(s.nextId, token)])) : t.Enrolled := by
  simp only [Session.given, Prod.mk.injEq] at given
  obtain ⟨-, next, handles⟩ := given
  constructor
  · rw [handles, List.map_append, List.length_append, List.length_singleton, enrolled.ids,
      List.range'_concat, enrolled.next]
    simp [Nat.add_comm]
  · rw [next, handles, List.length_append, List.length_singleton, enrolled.next]

theorem starting (enrolled : s.Enrolled) {request : Request} {surface : Surface}
    {done : Session × Reply} (starting : Starting S s request surface done)
    (answers : S.registry.supports request.kind = true → surface ≠ .panics) : done.1.Enrolled := by
  cases starting with
  | unanswered _ _ supported panics => exact absurd panics (answers supported)
  | begun _ _ _ _ given => exact enrolled.begun given
  | _ => exact ⟨enrolled.ids, enrolled.next⟩

end Session.Enrolled

/-- Whatever request is started that can be resolved, its callback answers when it is asked about a
surface. -/
def Answering (S : Setup) (steps : List CallerStep) : Prop :=
  ∀ i request input surface panicsOn reactions, Instant.Occurs S steps i →
    i.command? = some (.start request input surface panicsOn reactions) →
    S.registry.supports request.kind = true → surface ≠ .panics

theorem Instant.Occurs.enrolled {S : Setup} {steps : List CallerStep} {k : Instant}
    (answering : Answering S steps) (occurs : Occurs S steps k) : k.session.Enrolled := by
  induction occurs with
  | refl => exact ⟨rfl, rfl⟩
  | @tail i j before next ih =>
    rcases starting_next next with
      same | ⟨request, input, surface, panicsOn, reactions, done, command, starting, given⟩
    · exact ih.congr same
    · exact (ih.starting starting
        (answering i request input surface panicsOn reactions before command)).congr given

end SerialDispatch
