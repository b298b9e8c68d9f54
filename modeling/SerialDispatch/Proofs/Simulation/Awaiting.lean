import SerialDispatch.Proofs.Simulation.Telling
import SerialDispatch.Simulation.Program

/-!
# Awaiting the requests of a simulation

A program that awaits a request goes on until its callback is gone. In a simulation a callback is
gone only when it has been told the end of its request, so the program finds the outcome and prints
the line. This is what `Awaited` says of the first requests, and `Awaited.next` takes it to the next
one. When all requests have been awaited, nothing is left to be done, and the program comes to its
end; main statement: `Options.reportAfter_eq`.
-/
namespace SerialDispatch

namespace Callbacks

/-- A callback that is registered has a number. -/
theorem eq_none_of_number {α : Type} {cs : Callbacks α}
    (unknown : ∀ id, cs.number? id = Option.none) : cs = Callbacks.none := by
  cases cs with
  | nil => rfl
  | cons c rest =>
    have found := unknown c.1
    simp [number?, find?] at found

end Callbacks

namespace Session

/-- A callback was told the end of its request. -/
def Ended (s : Session) (callback : Nat) : Prop :=
  ∃ id outcome, (callback, ⟨id, .finished outcome⟩) ∈ toldIn s.history

variable {s t : Session} {callback : Nat}

theorem Ended.later (ended : s.Ended callback) (past : s.history <+: t.history) :
    t.Ended callback := by
  obtain ⟨id, outcome, told⟩ := ended
  exact ⟨id, outcome, (past.filterMap _).subset told⟩

theorem told_of_outcome {h : Happening} {outcome : Outcome}
    (tells : h.outcome? callback = some outcome) :
    ∃ id, h.told? = some (callback, ⟨id, .finished outcome⟩) := by
  unfold Happening.outcome? at tells
  split at tells
  · split at tells
    · rename_i id _ same
      cases tells
      exact ⟨id, by rw [← same]; rfl⟩
    · cases tells
  · cases tells

/-- The outcome is one that the callback was told, and there is one when it was told any. -/
theorem Ended.outcome (ended : s.Ended callback) : ∃ id outcome,
    s.outcome? callback = some outcome ∧
      (callback, ⟨id, .finished outcome⟩) ∈ toldIn s.history := by
  obtain ⟨id, outcome, told⟩ := ended
  obtain ⟨h, there, tells⟩ := List.mem_filterMap.1 told
  have some : (s.outcome? callback).isSome := by
    refine List.findSome?_isSome_iff.2 ⟨h, there, ?_⟩
    cases h with
    | told n e =>
      cases tells
      simp [Happening.outcome?]
    | _ => cases tells
  obtain ⟨found, hfound⟩ := Option.isSome_iff_exists.1 some
  obtain ⟨h, there, tells⟩ := List.exists_of_findSome?_eq_some hfound
  obtain ⟨id, htold⟩ := told_of_outcome tells
  exact ⟨id, found, hfound, List.mem_filterMap.2 ⟨h, there, htold⟩⟩

theorem keeps_of_number {id : DispatchId} (known : s.callbacks.number? id = some callback) :
    s.keeps callback = true := by
  obtain ⟨c, found, rfl⟩ := Option.map_eq_some_iff.1 known
  obtain ⟨before, after, whole, -⟩ := List.lookup_eq_some_iff.1 found
  refine List.any_eq_true.2 ⟨(id, c), List.mem_append_right _ ?_, decide_eq_true rfl⟩
  rw [whole]
  exact List.mem_append_right _ List.mem_cons_self

theorem keeps_of_attach {id : DispatchId} {c : Callback Command}
    (waits : .attach id c ∈ s.mailbox) : s.keeps c.number = true :=
  List.any_eq_true.2 ⟨(id, c),
    List.mem_append_left _ (List.mem_filterMap.2 ⟨_, waits, rfl⟩), decide_eq_true rfl⟩

end Session

namespace Simulation

open Session

namespace Options

variable (o : Options)

theorem id_of_mem_calls {call : Nat × Event} (there : call ∈ o.calls) : call.2.id = call.1 + 1 := by
  obtain ⟨i, -, ofRequest⟩ := List.mem_flatMap.1 there
  obtain ⟨e, sent, rfl⟩ := List.mem_map.1 ofRequest
  obtain ⟨signal, -, rfl⟩ := List.mem_map.1 sent
  rfl

/-- The end that a callback is told of is that of its own request. -/
theorem outcome_of_mem_calls {i : Nat} {id : DispatchId} {outcome : Outcome}
    (there : (i, ⟨id, .finished outcome⟩) ∈ o.calls) : outcome = o.outcomeOf i := by
  obtain ⟨j, -, there⟩ := List.mem_flatMap.1 there
  rw [callsOf_eq, List.mem_append, List.mem_singleton] at there
  rcases there with news | last
  · obtain ⟨signal, early, same⟩ := List.mem_map.1 news
    cases same
    cases o.unfinished_newsOf _ _ early
  · cases last
    rfl

/-- Behind its end nothing is told of a dispatch. -/
theorem pairwise_calls : o.calls.Pairwise fun earlier later =>
    earlier.2.signal.isFinished = true → later.2.id ≠ earlier.2.id := by
  refine List.pairwise_flatMap.2 ⟨fun i _ => ?_, ?_⟩
  · have news : ∀ call ∈ (o.newsOf i).map fun signal => (i, (⟨i + 1, signal⟩ : Event)),
        call.2.signal.isFinished = false := by
      intro call there
      obtain ⟨signal, early, rfl⟩ := List.mem_map.1 there
      exact o.unfinished_newsOf i signal early
    rw [callsOf_eq]
    refine List.pairwise_append.2 ⟨?_, List.pairwise_singleton _ _, fun a ha b _ finished => ?_⟩
    · refine List.pairwise_of_forall_mem_list fun a ha b _ finished => ?_
      rw [news a ha] at finished
      cases finished
    · rw [news a ha] at finished
      cases finished
  · refine List.pairwise_lt_range.imp fun {i j} before a ha b hb _ same => ?_
    obtain ⟨e, he, rfl⟩ := List.mem_map.1 ha
    obtain ⟨e', he', rfl⟩ := List.mem_map.1 hb
    obtain ⟨signal, -, rfl⟩ := List.mem_map.1 he
    obtain ⟨signal', -, rfl⟩ := List.mem_map.1 he'
    exact Nat.ne_of_lt before (Nat.succ.inj same).symm

/-- The last message is the end of the last request. -/
theorem exists_mail_eq {n : Nat} (count : o.count = n + 1) :
    ∃ before, o.mail = before ++ [.event ⟨n + 1, .finished (o.outcomeOf n)⟩] := by
  have last : (o.eventsOf n).map (.event : Event → Message Command) =
      (o.newsOf n).map (fun signal => .event ⟨n + 1, signal⟩) ++
        [.event ⟨n + 1, .finished (o.outcomeOf n)⟩] := by
    rw [eventsOf, List.map_map, List.map_append]
    rfl
  refine ⟨(List.range (n + 1)).map attachOf ++ (((List.range n).flatMap fun i =>
    (o.eventsOf i).map .event) ++ (o.newsOf n).map fun signal => .event ⟨n + 1, signal⟩), ?_⟩
  rw [mail, count, List.range_succ (n := n), List.flatMap_append, List.flatMap_singleton, last]
  simp only [List.append_assoc]

variable {o} {s : Session} {taken : List (Message Command)}

namespace Underway

theorem told_sublist (underway : o.Underway s taken) : (toldIn s.history).Sublist o.calls := by
  obtain ⟨calls, whole⟩ := Relay.told_passAll (Relay.start.passAll taken)
    (s.mailbox ++ (s.errands o.setup).filterMap Errand.message?)
  rw [← Relay.passAll_append, ← underway.mail, o.told_mail] at whole
  rw [whole]
  exact underway.told.sublist.trans (List.sublist_append_left _ _)

/-- Whatever is coalesced, the end of a request is told as a relay tells it. -/
theorem mem_told (underway : o.Underway s taken) {i : Nat} {id : DispatchId} {outcome : Outcome} :
    (i, ⟨id, .finished outcome⟩) ∈ toldIn s.history ↔
      (i, ⟨id, .finished outcome⟩) ∈ (Relay.start.passAll taken).told := by
  have finished := underway.told.filter_eq (p := fun call => call.2.signal.isFinished)
    fun a b superseded => superseded.2.unfinished
  have same := congrArg (fun l => (i, (⟨id, .finished outcome⟩ : Event)) ∈ l) finished
  simpa [Signal.isFinished] using same

theorem outcome (underway : o.Underway s taken) {i : Nat} (ended : s.Ended i) :
    s.outcome? i = some (o.outcomeOf i) := by
  obtain ⟨id, outcome, found, told⟩ := ended.outcome
  rw [found, o.outcome_of_mem_calls (underway.told_sublist.subset told)]

/-- A callback that is gone was told the end of its request. -/
theorem ended (underway : o.Underway s taken) {i : Nat} (there : i < o.count)
    (gone : s.keeps i = false) : s.Ended i := by
  have attached : attachOf i ∈ o.mail :=
    List.mem_append_left _ (List.mem_map.2 ⟨i, List.mem_range.2 there, rfl⟩)
  have announced : Announced taken := by
    have whole := o.announced_mail
    rw [underway.mail] at whole
    exact (List.pairwise_append.1 whole).1
  rw [underway.mail, List.mem_append, List.mem_append] at attached
  rcases attached with taken | waits | sends
  · rcases Relay.minds_passAll Relay.start announced taken with known | ⟨outcome, told⟩
    · rw [underway.known] at known
      rw [keeps_of_number known] at gone
      cases gone
    · exact ⟨_, outcome, underway.mem_told.2 told⟩
  · rw [keeps_of_attach waits] at gone
    cases gone
  · obtain ⟨errand, -, sent⟩ := List.mem_filterMap.1 sends
    cases errand <;> cases sent

/-- When all requests have ended, nothing is left to be done. -/
theorem stops (underway : o.Underway s taken) (ended : ∀ i < o.count, s.Ended i) :
    s.next? o.setup none = none := by
  suffices nothing : s.mailbox ++ (s.errands o.setup).filterMap Errand.message? = [] by
    obtain ⟨mailbox, silent⟩ := List.append_eq_nil_iff.1 nothing
    exact underway.simple.stops mailbox silent
  cases count : o.count with
  | zero =>
    have empty : o.mail = [] := by
      rw [Options.mail, count]
      rfl
    rw [underway.mail] at empty
    exact (List.append_eq_nil_iff.1 empty).2
  | succ n =>
    obtain ⟨before, last⟩ := o.exists_mail_eq count
    obtain ⟨id, outcome, told⟩ := ended n (by omega)
    have passed := (Relay.mem_told_passAll (underway.mem_told.1 told)).resolve_left List.not_mem_nil
    have own : id = n + 1 := o.id_of_mem_calls (underway.told_sublist.subset told)
    have once : (o.calls.map Prod.snd).Pairwise fun earlier later : Event =>
        earlier.signal.isFinished = true → later.id ≠ earlier.id :=
      List.pairwise_map.2 o.pairwise_calls
    rw [← events_mail, underway.mail, List.filterMap_append] at once
    refine (List.eq_nil_or_concat _).resolve_right ?_
    rintro ⟨others, m, more⟩
    rw [underway.mail, more, List.concat_eq_append, ← List.append_assoc] at last
    have same := List.head_eq_of_cons_eq (List.append_inj_right' last rfl)
    have waits : (⟨n + 1, .finished (o.outcomeOf n)⟩ : Event) ∈
        (s.mailbox ++ (s.errands o.setup).filterMap Errand.message?).filterMap Message.event? := by
      rw [more, same, List.concat_eq_append]
      exact List.mem_filterMap.2 ⟨_, List.mem_append_right _ List.mem_cons_self, rfl⟩
    exact (List.pairwise_append.1 once).2.2 _ (List.mem_filterMap.2 ⟨_, passed, rfl⟩) _ waits rfl
      own.symm

/-- When nothing is left to be done, no callback is left. -/
theorem gone (underway : o.Underway s taken) (rest : s.next? o.setup none = none) (i : Nat) :
    s.keeps i = false := by
  obtain ⟨stage, waiting, mailbox⟩ := underway.simple.rest rest
  have silent : (s.errands o.setup).filterMap Errand.message? = [] := by
    rw [Session.errands, stage, waiting]
    rfl
  have all : o.mail = taken := by
    rw [underway.mail, mailbox, silent, List.append_nil, List.append_nil]
  have none : s.callbacks = .none := Callbacks.eq_none_of_number fun id => by
    rw [← underway.known, ← all, o.known_mail]
  rw [keeps, mailbox, none]
  rfl

end Underway

end Options

@[simp] theorem Logged.during_append (first second : List Happening) :
    Logged.during (first ++ second) = Logged.during first ++ Logged.during second :=
  List.filterMap_append

/-- A loop that has not broken off goes on with the next turn. -/
theorem foldlM_range_succ {α ε : Type} {f : α → Nat → Except ε α} {a b c : α} {n : Nat}
    (earlier : (List.range n).foldlM f a = .ok b) (next : f b n = .ok c) :
    (List.range (n + 1)).foldlM f a = .ok c := by
  rw [List.range_succ, List.foldlM_append, earlier]
  exact (bind_pure (f b n)).trans next

namespace Program

variable {o : Options} {p : Program} {s : Session}

theorem goTo_eq {more : List Happening} (past : s.history = p.session.history ++ more) :
    p.goTo s = ⟨s, p.printed ++ (Logged.during more).map .entry⟩ := by
  have length : p.session.trail.length = p.session.history.length := List.length_reverse.symm
  rw [goTo, past, length, List.drop_left]

/-- No start panics. -/
theorem make_eq {n : Nat} (room : n < o.count) (session : p.session = o.made n) :
    p.make o n = .ok (p.goTo (o.made (n + 1))) := by
  have made := made_script o (Nat.le_of_lt room)
  have length : ((List.range n).map o.cancels).length = n := by simp
  have reply := made.reply_start (o := o) (by rwa [length])
  rw [length] at reply
  have started : (p.session.perform o.setup (.start (requestOf n) .default .needed none [])).2 =
      .started n n := by
    rw [session]
    exact reply
  unfold make
  dsimp only
  rw [started, session, made_succ, Options.requestSteps]
  cases o.cancels n <;> rfl

/-- The requests are made one after the other, and what is logged is printed. -/
theorem foldlM_make {n : Nat} (room : n ≤ o.count) : (List.range n).foldlM (make o) start =
    .ok ⟨o.made n, (Logged.during (o.made n).history).map .entry⟩ := by
  induction n with
  | zero => rfl
  | succ n ih =>
    obtain ⟨more, past⟩ : (o.made n).history <+: (o.made (n + 1)).history := by
      rw [made_succ]
      exact past_script _ _ _
    have next := make_eq (p := ⟨o.made n, (Logged.during (o.made n).history).map .entry⟩)
      (Nat.lt_of_succ_le room) rfl
    rw [goTo_eq past.symm, ← List.map_append, ← Logged.during_append, past] at next
    exact foldlM_range_succ (ih (Nat.le_of_succ_le room)) next

/-- The callback of a request is gone in the end, and then the program knows the outcome, however
late it notices. -/
theorem await_eq (delay : Nat) {i : Nat} (there : i < o.count)
    (steps : Steps o.setup none (o.made o.count) p.session) :
    ∃ t more, Steps o.setup none (o.made o.count) t ∧ t.history = p.session.history ++ more ∧
      t.Ended i ∧ p.await o delay i = .ok ⟨t, p.printed ++ (Logged.during more).map .entry ++
        [.line (line i (o.outcomeOf i))]⟩ := by
  have waits := steps_runUntil o.setup (fun s => !s.keeps i) p.session
  have met := met_runUntil o.setup (fun s => !s.keeps i) p.session
  generalize hended : p.session.runUntil o.setup (fun s => !s.keeps i) = ended at waits met
  obtain ⟨taken, underway⟩ := Options.exists_underway (steps.trans waits)
  have gone : ended.keeps i = false := by
    rcases met with met | rest
    · simpa using met
    · exact underway.gone rest i
  have idles := steps_runFor o.setup ended delay
  obtain ⟨taken', later⟩ := Options.exists_underway ((steps.trans waits).trans idles)
  have told := (underway.ended there gone).later idles.follows.past
  obtain ⟨more, past⟩ := (waits.trans idles).follows.past
  refine ⟨_, more, (steps.trans waits).trans idles, past.symm, told, ?_⟩
  unfold await
  dsimp only
  rw [hended, gone, goTo_eq past.symm]
  dsimp only
  rw [later.outcome told]
  rfl

end Program

/-- The request whose callback has something logged, if it is one. -/
def Logged.request? : Logged → Option Nat
  | .progress request _ | .prevented request => some request
  | .service _ | .done _ => none

/-- What is logged for a request is what its callback was told. -/
theorem Logged.told_of_request {history : List Happening} {l : Logged}
    (there : l ∈ Logged.during history) {i : Nat} (about : l.request? = some i) :
    ∃ e, (i, e) ∈ toldIn history := by
  obtain ⟨h, happened, logs⟩ := List.mem_filterMap.1 there
  unfold ofHappening? at logs
  split at logs
  · cases logs
    cases about
  · cases logs
    cases about
    exact ⟨_, List.mem_filterMap.2 ⟨_, happened, rfl⟩⟩
  · cases logs
    cases about
    exact ⟨_, List.mem_filterMap.2 ⟨_, happened, rfl⟩⟩
  · cases logs

/-- What is printed while the program awaits a request: what is logged, and the line. -/
def Options.chapter (o : Options) : List Logged × Nat → List Printed
  | (log, i) => log.map .entry ++ [.line (line i (o.outcomeOf i))]

/-- The program has awaited the first requests, and printed a chapter for each of them. -/
structure Awaited (o : Options) (logs : List (List Logged)) (p : Program) : Prop where
  steps : Steps o.setup none (o.made o.count) p.session
  logged : Logged.during p.session.history =
    Logged.during (o.made o.count).history ++ logs.flatten
  printed : p.printed = (Logged.during (o.made o.count).history).map .entry ++
    logs.zipIdx.flatMap o.chapter
  ended : ∀ i < logs.length, p.session.Ended i
  /-- Nothing is logged for a request whose line is printed. -/
  ordered : ∀ n log, logs[n]? = some log → ∀ l ∈ log, ∀ i, Logged.request? l = some i → n ≤ i

namespace Awaited

variable {o : Options} {p : Program} {logs : List (List Logged)}

/-- Nothing is logged for a request that has ended. -/
theorem le_of_request (awaited : Awaited o logs p) {t : Session} {more : List Happening}
    (steps : Steps o.setup none (o.made o.count) t) (past : t.history = p.session.history ++ more)
    {l : Logged} (there : l ∈ Logged.during more) {i : Nat} (about : l.request? = some i) :
    logs.length ≤ i := by
  by_contra before
  obtain ⟨id, outcome, earlier⟩ := awaited.ended i (Nat.lt_of_not_le before)
  obtain ⟨e, later⟩ := Logged.told_of_request there about
  obtain ⟨taken, underway⟩ := Options.exists_underway steps
  have told := underway.told_sublist
  rw [past, toldIn_append] at told
  refine (List.pairwise_append.1 (o.pairwise_calls.sublist told)).2.2 _ earlier _ later rfl ?_
  rw [o.id_of_mem_calls (told.subset (List.mem_append_left _ earlier)),
    o.id_of_mem_calls (told.subset (List.mem_append_right _ later))]

theorem next (awaited : Awaited o logs p) (room : logs.length < o.count) (delay : Nat) :
    ∃ log q, p.await o delay logs.length = .ok q ∧ Awaited o (logs ++ [log]) q := by
  obtain ⟨t, more, steps, past, ended, next⟩ := Program.await_eq delay room awaited.steps
  refine ⟨Logged.during more, _, next, ⟨steps, ?_, ?_, fun i there => ?_, fun n log at_ => ?_⟩⟩
  · rw [past, Logged.during_append, awaited.logged, List.flatten_append, List.append_assoc]
    simp
  · rw [awaited.printed, List.zipIdx_append, List.flatMap_append]
    simp [Options.chapter]
  · rw [List.length_append, List.length_singleton] at there
    rcases Nat.lt_succ_iff_lt_or_eq.1 there with before | rfl
    · exact (awaited.ended i before).later ⟨more, past.symm⟩
    · exact ended
  · by_cases before : n < logs.length
    · rw [List.getElem?_append_left before] at at_
      exact awaited.ordered n log at_
    · rw [List.getElem?_append_right (Nat.le_of_not_lt before)] at at_
      obtain ⟨zero, rfl⟩ : n - logs.length = 0 ∧ log = Logged.during more := by
        rw [List.getElem?_singleton] at at_
        split at at_
        · exact ⟨by assumption, (Option.some.inj at_).symm⟩
        · cases at_
      intro l there i about
      have := awaited.le_of_request steps past there about
      omega

end Awaited

namespace Program

variable {o : Options} (delays : Nat → Nat)

/-- One request is awaited after the other. -/
theorem foldlM_await {n : Nat} (room : n ≤ o.count) : ∃ logs p, logs.length = n ∧
    (List.range n).foldlM (fun (p : Program) i => p.await o (delays i) i)
      ⟨o.made o.count, (Logged.during (o.made o.count).history).map .entry⟩ = .ok p ∧
    Awaited o logs p := by
  induction n with
  | zero =>
    refine ⟨[], _, rfl, rfl, .refl, ?_, ?_, fun i impossible => ?_, fun n log impossible => ?_⟩
    · simp
    · simp
    · cases impossible
    · cases impossible
  | succ n ih =>
    obtain ⟨logs, p, length, earlier, awaited⟩ := ih (Nat.le_of_succ_le room)
    obtain ⟨log, q, next, awaited⟩ := awaited.next (by omega) (delays n)
    refine ⟨logs ++ [log], q, by simp [length], ?_, awaited⟩
    rw [length] at next
    exact foldlM_range_succ earlier next

end Program

namespace Options

variable (o : Options)

/-- When all requests have been awaited, nothing is left to be done. -/
theorem session_of_awaited {logs : List (List Logged)} {p : Program} (awaited : Awaited o logs p)
    (all : logs.length = o.count) : p.session = o.settled := by
  obtain ⟨taken, underway⟩ := exists_underway awaited.steps
  have rest := underway.stops fun i there => awaited.ended i (by rwa [all])
  rw [settled_eq, awaited.steps.run_eq, run_of_rest rest]

/-- Shutting down logs nothing. -/
theorem finish_eq {p : Program} (settled : p.session = o.settled) : p.finish o =
    ⟨p.printed ++ [.entry (.done o.settled.store.size)], .exited 0⟩ := by
  have settles := o.settles
  generalize o.settled = s at settles settled
  have ran := run_signalStop (S := o.setup) none settles.stage settles.waiting settles.mailbox
  generalize stopped : ({ s.signalStop .gone with
    turn := .first, stage := .ended, inbox := s.inbox.stop.close } : Session) = t at ran
  have complete : t.isComplete := by
    simp [← stopped, isComplete, signalStop, record, Stage.isOver, noSinkHeld, settles.phase,
      settles.mailbox, settles.sinks]
  have quiet : t.logShutdown = t := by
    simp [← stopped, logShutdown, signalStop, record, settles.phase]
  have past : t.history = p.session.history ++ [.stopping] := by
    rw [← stopped, settled]
    exact history_record _ _
  have store : t.store = s.store := by
    rw [← stopped]
    rfl
  unfold Program.finish
  dsimp only
  rw [settled, ran, if_pos complete, quiet, Program.goTo_eq past]
  dsimp only
  rw [store, show Logged.during [.stopping] = [] from rfl, List.map_nil, List.append_nil]

/-- However late the program notices the ends of its requests, it prints what was logged while the
requests were made, a chapter for each request, and the last entry, and comes to its end. -/
theorem reportAfter_eq (delays : Nat → Nat) : ∃ logs : List (List Logged),
    logs.length = o.count ∧
    Logged.during o.settled.history = Logged.during (o.made o.count).history ++ logs.flatten ∧
    (∀ n log, logs[n]? = some log → ∀ l ∈ log, ∀ i, Logged.request? l = some i → n ≤ i) ∧
    o.reportAfter delays = ⟨(Logged.during (o.made o.count).history).map .entry ++
      logs.zipIdx.flatMap o.chapter ++ [.entry (.done o.settled.store.size)], .exited 0⟩ := by
  obtain ⟨logs, p, length, awaits, awaited⟩ := Program.foldlM_await delays (Nat.le_refl o.count)
  have settled := o.session_of_awaited awaited length
  refine ⟨logs, length, settled ▸ awaited.logged, awaited.ordered, ?_⟩
  have all : Program.awaitAll o delays = .ok p := by
    rw [Program.awaitAll, Program.foldlM_make (Nat.le_refl _)]
    exact awaits
  rw [reportAfter, all]
  exact (o.finish_eq settled).trans (by rw [awaited.printed])

end Options
end Simulation
end SerialDispatch
