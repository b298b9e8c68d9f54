import SerialDispatch.Proofs.Dispatcher.Errands
import SerialDispatch.Proofs.OrderedMap
import SerialDispatch.Proofs.Simulation.KeyIds
import SerialDispatch.Simulation.Run

/-!
# The requests of a simulation

A simulation makes all its requests before anything is done about them: that is `Made`, for so many
requests, and each step of the script makes one more or cancels the last one. Then the worker has
its errands, and a run does them all, which tells what has been sent, logged and stored in the end.
Main statements: `made_script`, `Options.settles`.
-/
namespace SerialDispatch.Simulation

open Session

/-- The dispatch of request `i`. -/
def taskOf (i : Nat) : Task := ⟨i + 1, requestOf i, .default, i, true⟩

/-- The callback of request `i` is attached for its dispatch. -/
def attachOf (i : Nat) : Message Command := .attach (i + 1) ⟨i, none, []⟩

/-- As many requests were made as there are flags, one for each, which says whether the request was
cancelled; nothing else was done. -/
structure Made (flags : List Bool) (s : Session) : Prop where
  alive : s.alive = true
  owner : s.owner = .held
  starts : s.starts = flags.length
  nextId : s.nextId = flags.length + 1
  tokens : s.tokens = ⟨flags⟩
  handles : s.handles = (List.range flags.length).map fun i => (i + 1, i)
  inbox : s.inbox = ⟨(List.range flags.length).map taskOf, false, false⟩
  stage : s.stage = .idle
  phase : s.phase = .alive
  mailbox : s.mailbox = (List.range flags.length).map attachOf
  callbacks : s.callbacks = []
  sinks : s.sinks = []
  store : s.store = .empty
  messages : messagesIn s.history = s.mailbox
  logs : loudIn s.history = []
  hearings : hearingsIn s.history = []

namespace Made

variable {o : Options} {s : Session} {flags : List Bool} {n : Nat}

theorem step_start (made : Made flags s) (room : flags.length < o.count) :
    (s.step o.setup (.command (.start (requestOf flags.length) .default .needed none []))).1 =
      { s with
        starts := flags.length + 1
        nextId := flags.length + 2
        tokens := ⟨flags ++ [false]⟩
        handles := s.handles ++ [(flags.length + 1, flags.length)]
        inbox := { s.inbox with waiting := s.inbox.waiting ++ [taskOf flags.length] }
        mailbox := s.mailbox ++ [attachOf flags.length]
        trail := .log ⟨s.clock, none, .dispatchQueued (flags.length + 1) (kindOf flags.length)⟩ ::
          .reached (taskOf flags.length) (.submitted flags.length) s.clock ::
          .sent (attachOf flags.length) :: s.trail } := by
  have limit : ¬ o.setup.startLimit ≤ flags.length := Nat.not_le.2 room
  have resolved : o.setup.registry.resolve (requestOf flags.length).kind = .ok o.factory := by
    simp [Registry.resolve, Options.setup]
  simp only [Session.step, perform, made.starts, if_neg limit, made.owner, if_true, startRequest,
    resolved, reduceCtorEq, if_false]
  simp only [send, allot, made.phase, if_true, made.nextId, made.tokens]
  rw [submit]
  simp only [Session.record, made.inbox, Inbox.submit, Bool.false_eq_true, if_false]
  rfl

/-- A start gives a handle. -/
theorem reply_start (made : Made flags s) (room : flags.length < o.count) :
    (s.step o.setup (.command (.start (requestOf flags.length) .default .needed none []))).2 =
      .started flags.length flags.length := by
  have limit : ¬ o.setup.startLimit ≤ flags.length := Nat.not_le.2 room
  have resolved : o.setup.registry.resolve (requestOf flags.length).kind = .ok o.factory := by
    simp [Registry.resolve, Options.setup]
  simp only [Session.step, perform, made.starts, if_neg limit, made.owner, if_true, startRequest,
    resolved, reduceCtorEq, if_false, made.handles, List.length_map, List.length_range]

theorem start (made : Made flags s) (room : flags.length < o.count) :
    Made (flags ++ [false]) (s.step o.setup
      (.command (.start (requestOf flags.length) .default .needed none []))).1 := by
  have longer : (flags ++ [false]).length = flags.length + 1 := List.length_append
  rw [made.step_start room]
  constructor
  · exact made.alive
  · exact made.owner
  · exact longer.symm
  · rw [longer]
  · rfl
  · rw [made.handles, longer, List.range_succ, List.map_append]
    rfl
  · rw [made.inbox, longer, List.range_succ, List.map_append]
    rfl
  · exact made.stage
  · exact made.phase
  · rw [made.mailbox, longer, List.range_succ, List.map_append]
    rfl
  · exact made.callbacks
  · exact made.sinks
  · exact made.store
  all_goals rw [history, List.reverse_cons, List.reverse_cons, List.reverse_cons, List.append_assoc,
    List.append_assoc]
  · rw [messagesIn_append, ← history, made.messages]
    rfl
  · rw [loudIn_append, ← history, made.logs]
    rfl
  · rw [hearingsIn_append, ← history, made.hearings]
    rfl

/-- The last request made is cancelled. -/
theorem cancel (made : Made (flags ++ [false]) s) :
    Made (flags ++ [true]) (s.step o.setup (.command (.cancel flags.length))).1 := by
  have known : s.handles[flags.length]? = some (flags.length + 1, flags.length) := by
    simp [made.handles]
  have live : s.tokens.isCancelled flags.length = false := by
    simp [made.tokens, TokenPool.isCancelled]
  have same : (flags ++ [true]).length = (flags ++ [false]).length := by simp
  simp only [Session.step, perform, Session.cancel, known, live, Bool.false_eq_true, if_false]
  have tokens : (⟨flags ++ [false]⟩ : TokenPool).cancel flags.length = ⟨flags ++ [true]⟩ := by
    simp [TokenPool.cancel]
  constructor
  · exact made.alive
  · exact made.owner
  · rw [same]
    exact made.starts
  · rw [same]
    exact made.nextId
  · rw [← tokens, ← made.tokens]
    rfl
  · rw [same]
    exact made.handles
  · rw [same]
    exact made.inbox
  · exact made.stage
  · exact made.phase
  · rw [same]
    exact made.mailbox
  · exact made.callbacks
  · exact made.sinks
  · exact made.store
  all_goals rw [Session.log, history_record, history_record, List.append_assoc]
  · rw [messagesIn_append]
    exact (List.append_nil _).trans made.messages
  · rw [loudIn_append]
    exact (List.append_nil _).trans made.logs
  · rw [hearingsIn_append]
    exact (List.append_nil _).trans made.hearings

theorem request (made : Made ((List.range n).map o.cancels) s) (room : n < o.count) :
    Made ((List.range (n + 1)).map o.cancels) (s.runScript o.setup (o.requestSteps n)) := by
  have length : ((List.range n).map o.cancels).length = n := by simp
  have started := made.start (o := o) (by rwa [length])
  rw [List.range_succ, List.map_append]
  cases cancelled : o.cancels n with
  | false =>
    rw [length] at started
    simpa [runScript, Options.requestSteps, cancelled] using started
  | true =>
    have both := started.cancel (o := o)
    rw [length] at both
    simpa [runScript, Options.requestSteps, cancelled] using both

end Made

/-- The session in which the first requests are made, and nothing is done about them. -/
def Options.made (o : Options) (n : Nat) : Session :=
  Session.start.runScript o.setup ((List.range n).flatMap o.requestSteps)

theorem made_succ (o : Options) (n : Nat) :
    o.made (n + 1) = (o.made n).runScript o.setup (o.requestSteps n) := by
  rw [Options.made, List.range_succ, List.flatMap_append, List.flatMap_singleton, runScript,
    List.foldl_append]
  rfl

/-- The caller makes requests before anything is done about them. -/
theorem made_script (o : Options) {n : Nat} (room : n ≤ o.count) :
    Made ((List.range n).map o.cancels) (o.made n) := by
  induction n with
  | zero => constructor <;> rfl
  | succ n ih =>
    rw [made_succ]
    exact (ih (by omega)).request room

namespace Options

variable (o : Options)

/-- How request `i` ends. -/
def outcomeOf (i : Nat) : Outcome :=
  if o.cancels i then .cancelledBeforeStart
  else .completed ⟨kindOf i, .ok, savedLog (UInt64.ofNat i)⟩

/-- The signals of request `i` before it ends. -/
def newsOf (i : Nat) : List Signal :=
  if o.cancels i then []
  else (List.range o.steps.toNat).map
      (fun n => .progress ⟨some label, UInt32.ofNat n, o.steps⟩) ++
    [.preventCancel, .progress ⟨some label, o.steps, o.steps⟩]

/-- All signals of request `i`. -/
def eventsOf (i : Nat) : List Event :=
  (o.newsOf i ++ [Signal.finished (o.outcomeOf i)]).map fun signal => ⟨i + 1, signal⟩

/-- The messages that are sent in a simulation. -/
def mail : List (Message Command) :=
  (List.range o.count).map attachOf ++ (List.range o.count).flatMap fun i =>
    (o.eventsOf i).map .event

/-- The requests whose operations are run. -/
def performed : List Nat := (List.range o.count).filter fun i => !o.cancels i

/-- All that comes of the steps of an operation is progress, once for each. -/
theorem bodyErrands_steps (task : Task) (is : List Nat) (rest : List BodyStep) :
    task.bodyErrands (is.flatMap o.stepBody ++ rest) =
      is.map (fun n => .send ⟨task.id, .progress ⟨some label, UInt32.ofNat n, o.steps⟩⟩) ++
        task.bodyErrands rest := by
  induction is with
  | nil => rfl
  | cons n is ih =>
    have first : task.bodyErrands ((n :: is).flatMap o.stepBody ++ rest) =
        .send ⟨task.id, .progress ⟨some label, UInt32.ofNat n, o.steps⟩⟩ ::
          task.bodyErrands (is.flatMap o.stepBody ++ rest) := rfl
    rw [first, ih]
    rfl

theorem keyId_requestOf (i : Nat) :
    (requestOf i).payload.data.keyId = UInt64.ofNat i := Bytes.keyId_ofWord _

/-- What the worker has to do for request `i`. -/
def errandsOf (i : Nat) : List Errand :=
  if o.cancels i then [.send ⟨i + 1, .finished .cancelledBeforeStart⟩]
  else (List.range o.steps.toNat).map
      (fun n => .send ⟨i + 1, .progress ⟨some label, UInt32.ofNat n, o.steps⟩⟩) ++
    [.send ⟨i + 1, .preventCancel⟩, .save (UInt64.ofNat i) ⟨.ofString (kindOf i).name⟩,
      .send ⟨i + 1, .progress ⟨some label, o.steps, o.steps⟩⟩, .log (.operationComplete .ok),
      .send ⟨i + 1, .finished (.completed ⟨kindOf i, .ok, savedLog (UInt64.ofNat i)⟩)⟩]

theorem errands_taskOf {i : Nat} (there : i < o.count) :
    (taskOf i).errands o.setup ⟨(List.range o.count).map o.cancels⟩ = o.errandsOf i := by
  have flag : (⟨(List.range o.count).map o.cancels⟩ : TokenPool).isCancelled i = o.cancels i := by
    simp [TokenPool.isCancelled, there]
  have body : o.setup.body (requestOf i) = o.body (requestOf i) := by
    simp [Setup.body, setup, factory]
  have key := keyId_requestOf i
  rw [Task.errands, taskOf, flag, body, Options.body, bodyErrands_steps, saveBody, key, errandsOf]
  rfl

theorem messages_errandsOf (i : Nat) :
    (o.errandsOf i).filterMap Errand.message? = (o.eventsOf i).map .event := by
  unfold errandsOf eventsOf newsOf outcomeOf
  cases o.cancels i with
  | true => rfl
  | false => simp [List.filterMap_map, Function.comp_def, List.filterMap_cons, Errand.message?]

/-- What goes with the operations that are run, request by request. -/
theorem flatMap_performed {α : Type} (of : Nat → α) :
    (List.range o.count).flatMap (fun i => if o.cancels i then [] else [of i]) =
      o.performed.map of := by
  unfold performed
  induction List.range o.count with
  | nil => rfl
  | cons i rest ih =>
    rw [List.flatMap_cons, ih]
    cases cancelled : o.cancels i <;> simp [cancelled]

theorem logged_errandsOf (i : Nat) : (o.errandsOf i).filterMap Errand.logged? =
    if o.cancels i then [] else [.operationComplete .ok] := by
  unfold errandsOf
  cases o.cancels i with
  | true => rfl
  | false => simp [List.filterMap_map, Function.comp_def, List.filterMap_cons, Errand.logged?]

theorem saved_errandsOf (i : Nat) : (o.errandsOf i).filterMap Errand.saved? =
    if o.cancels i then [] else [(UInt64.ofNat i, ⟨.ofString (kindOf i).name⟩)] := by
  unfold errandsOf
  cases o.cancels i with
  | true => rfl
  | false => simp [List.filterMap_map, Function.comp_def, List.filterMap_cons, Errand.saved?]

theorem isSimple_setup : o.setup.IsSimple := by
  constructor
  · intro n kind
    simp [Setup.breaks, setup, Registry.supports]
  · intro request step there
    have body : o.setup.body request = o.body request := by
      simp [Setup.body, setup, factory]
    rw [body, Options.body, List.mem_append, List.mem_flatMap] at there
    rcases there with ⟨i, -, there⟩ | there
    · simp only [stepBody, List.mem_cons, List.not_mem_nil, or_false] at there
      rcases there with rfl | rfl | rfl <;> rfl
    · simp only [saveBody, List.mem_cons, List.not_mem_nil, or_false] at there
      rcases there with rfl | rfl | rfl | rfl <;> rfl

end Options

namespace Made

variable {o : Options} {s : Session} {flags : List Bool}

theorem simple (made : Made flags s) : s.Simple := by
  constructor
  · rw [made.callbacks]
    intro id c found
    cases found
  · rw [made.mailbox]
    intro m there
    obtain ⟨i, -, rfl⟩ := List.mem_map.1 there
    exact ⟨rfl, rfl⟩
  · exact made.phase
  · rw [made.inbox]
  · rw [made.stage]
    trivial

theorem counted (made : Made flags s) : s.Counted := by
  rw [Counted, made.hearings, made.messages]
  exact Nat.zero_add _

theorem errands (made : Made ((List.range o.count).map o.cancels) s) :
    s.errands o.setup = (List.range o.count).flatMap o.errandsOf := by
  rw [Session.errands, made.stage, made.inbox, made.tokens, List.length_map, List.length_range,
    List.flatMap_map]
  refine List.flatMap_congr fun i there => ?_
  exact o.errands_taskOf (List.mem_range.1 there)

end Made

/-- The store after keyrings were saved one after the other. -/
def storeOf (saves : List (UInt64 × Keyring)) : KeyStore :=
  saves.foldl (fun store e => store.save e.1 e.2) .empty

theorem keyrings_storeOf (saves : List (UInt64 × Keyring)) :
    (storeOf saves).keyrings = .ofList saves := by
  have whole : ∀ store : KeyStore,
      (saves.foldl (fun store e => store.save e.1 e.2) store).keyrings =
        saves.foldl (fun m e => m.insert e.1 e.2) store.keyrings := by
    induction saves with
    | nil => exact fun store => rfl
    | cons e rest ih => exact fun store => ih (store.save e.1 e.2)
  exact whole .empty

section Distinct

variable {saves : List (UInt64 × Keyring)} (distinct : (saves.map Prod.fst).Nodup)
include distinct

/-- Keyrings saved under different ids are all in the store. -/
theorem size_storeOf : (storeOf saves).size = saves.length := by
  rw [KeyStore.size, OrderedMap.size, keyrings_storeOf]
  exact (OrderedMap.perm_ofList distinct).length_eq

/-- Each of them is found under its id. -/
theorem load_storeOf (id : UInt64) (keyring : Keyring) :
    (storeOf saves).load id = some keyring ↔ (id, keyring) ∈ saves := by
  have same := OrderedMap.perm_ofList distinct
  have keys : ((OrderedMap.ofList saves).entries.map Prod.fst).Nodup :=
    (same.map Prod.fst).nodup_iff.2 distinct
  rw [KeyStore.load, keyrings_storeOf, OrderedMap.get?, ← same.mem_iff]
  exact OrderedMap.lookup_eq_some_iff keys (id, keyring)

end Distinct

namespace Options

variable (o : Options)

/-- Different requests save under different key ids, as long as a word tells them apart. -/
theorem nodup_ids (room : o.count ≤ UInt64.size) : (o.performed.map UInt64.ofNat).Nodup := by
  have once : o.performed.Nodup := List.nodup_range.filter _
  refine once.map_on fun i hi j hj same => ?_
  have small : ∀ {i}, i ∈ o.performed → i < UInt64.size := fun there =>
    Nat.lt_of_lt_of_le (List.mem_range.1 (List.mem_filter.1 there).1) room
  rw [← UInt64.toNat_ofNat_of_lt' (small hi), same, UInt64.toNat_ofNat_of_lt' (small hj)]

/-- The keyrings that are saved, each under the number of its request. -/
def saves : List (UInt64 × Keyring) :=
  o.performed.map fun i => (UInt64.ofNat i, ⟨.ofString (kindOf i).name⟩)

theorem nodup_saves (room : o.count ≤ UInt64.size) : (o.saves.map Prod.fst).Nodup := by
  rw [saves, List.map_map]
  exact o.nodup_ids room

theorem settled_eq : o.settled = (o.made o.count).run o.setup none := rfl

theorem store_settled : o.settled.store = storeOf o.saves := by
  have made := made_script o (Nat.le_refl _)
  obtain ⟨goes, -⟩ := made.simple.run o.isSimple_setup
  rw [settled_eq, store_of_yield goes.yield, made.errands, List.filterMap_flatMap, made.store]
  simp only [saved_errandsOf, flatMap_performed]
  rfl

/-- All requests are made and finished. -/
structure Settles (s : Session) : Prop where
  phase : s.phase = .alive
  stage : s.stage = .idle
  waiting : s.inbox.waiting = []
  mailbox : s.mailbox = []
  sinks : s.sinks = []
  messages : messagesIn s.history = o.mail
  logs : loudIn s.history = o.performed.map fun _ => .operationComplete .ok
  stored : o.count ≤ UInt64.size → s.store.size = o.performed.length
  counted : o.config.coalescing = false → s.Counted

theorem settles : o.Settles o.settled := by
  have made := made_script o (Nat.le_refl _)
  obtain ⟨goes, stage, waiting, mailbox⟩ := made.simple.run o.isSimple_setup
  constructor
  · exact goes.simple.there
  · exact stage
  · exact waiting
  · exact mailbox
  · exact goes.sinks.trans made.sinks
  · rw [settled_eq, messages_of_yield goes.yield, made.errands, List.filterMap_flatMap, made.messages,
      made.mailbox, List.length_map, List.length_range]
    simp only [messages_errandsOf, mail]
  · rw [settled_eq, logs_of_yield goes.yield, made.errands, List.filterMap_flatMap, made.logs]
    simp only [logged_errandsOf, flatMap_performed, List.nil_append]
  · intro room
    rw [store_settled, size_storeOf (o.nodup_saves room), saves, List.length_map]
  · exact fun plain => goes.counted plain made.counted

end Options

end SerialDispatch.Simulation
