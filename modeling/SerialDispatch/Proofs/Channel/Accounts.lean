import SerialDispatch.Proofs.Channel.Poster
import SerialDispatch.Proofs.Delivery.Fates

/-!
# What has come of every signal

Whatever is done with a channel, every event that its steps have posted is accounted for: it waits,
a callback was told of it, it was superseded, it was logged as unclaimed, or a panic came before it.
The books are kept by the batches that delivery has taken: `Channel.Reckoned`; main statement:
`Channel.accounted`.
-/
namespace SerialDispatch

namespace Channel

variable {coalescing : Bool} {batches more : List (List (Message Empty))}
  {swept : List (Message Empty)} {c d : Channel}

/-- The messages ever sent are those of the batches that were taken, those that a panic has swept
away, those that wait, and those that were lost. -/
structure Reckoned (coalescing : Bool) (batches : List (List (Message Empty)))
    (swept : List (Message Empty)) (c : Channel) : Prop where
  mode : c.coalescing = coalescing
  books : c.clerk = Clerk.start.takeAll coalescing batches
  posted : c.posted = batches.flatten ++ swept ++ c.mailbox ++ c.lost
  emptied : c.Emptied
  /-- As long as nobody panics nothing is swept away or lost. -/
  alive : c.phase = .alive → swept = [] ∧ c.lost = []
  /-- Batches are taken as long as nobody has panicked. -/
  going : Everywhere (fun before _ _ => (Clerk.start.takeAll coalescing before).halted = false)
    batches

theorem reckoned_start (coalescing : Bool) : Reckoned coalescing [] [] (start coalescing) :=
  ⟨rfl, rfl, rfl, emptied_start coalescing, fun _ => ⟨rfl, rfl⟩, .nil⟩

/-- Only what was posted is taken. -/
theorem Reckoned.taken_subset (reckoned : Reckoned coalescing batches swept c) :
    batches.flatten ⊆ c.posted := by
  rw [reckoned.posted, List.append_assoc, List.append_assoc]
  exact List.subset_append_left _ _

theorem Reckoned.send (reckoned : Reckoned coalescing batches swept c) (m : Message Empty) :
    Reckoned coalescing batches swept (c.send m) := by
  refine ⟨(coalescing_send c m).trans reckoned.mode, (clerk_send c m).trans reckoned.books, ?_,
    reckoned.emptied.move (.posted m), fun alive => ?_, reckoned.going⟩
  · rw [posted_send, mailbox_send, lost_send, reckoned.posted]
    split
    · rename_i alive
      rw [(reckoned.alive alive).2, List.append_nil, List.append_nil, List.append_nil,
        List.append_assoc]
    · rw [List.append_assoc]
  · rw [phase_send] at alive
    rw [lost_send, if_pos alive, List.append_nil]
    exact reckoned.alive alive

/-- A batch is taken, and what a panic leaves of the mailbox is swept away. -/
theorem Reckoned.deliver (reckoned : Reckoned coalescing batches swept c)
    {batch rest : List (Message Empty)} (alive : c.phase = .alive)
    (waiting : c.mailbox = batch ++ rest) (delivered : (c.deliverBatch batch rest).Emptied) :
    ∃ gone, Reckoned coalescing (batches ++ [batch]) gone (c.deliverBatch batch rest) := by
  have quiet := quiet_deliverBatch c batch rest
  obtain ⟨posted, lost⟩ := past_deliverBatch c batch rest
  obtain ⟨rfl, nothing⟩ := reckoned.alive alive
  have books : (c.deliverBatch batch rest).clerk =
      Clerk.start.takeAll coalescing (batches ++ [batch]) := by
    rw [clerk_deliverBatch alive, reckoned.mode, reckoned.books, Clerk.takeAll_append]
    rfl
  have going : Everywhere
      (fun before _ _ => (Clerk.start.takeAll coalescing before).halted = false)
      (batches ++ [batch]) := by
    refine .append reckoned.going (.cons ?_ .nil)
    rw [List.append_nil, ← reckoned.books]
    exact c.going_iff.2 alive
  have mailbox : c.posted = batches.flatten ++ [] ++ (batch ++ rest) := by
    rw [reckoned.posted, waiting, nothing, List.append_nil]
  rcases phase_deliverBatch alive batch rest with ⟨phase, left⟩ | ⟨phase, left⟩
  · refine ⟨[], quiet.coalescing.trans reckoned.mode, books, ?_, delivered,
      fun _ => ⟨rfl, lost.trans nothing⟩, going⟩
    rw [posted, mailbox, left, lost, nothing]
    simp
  · refine ⟨rest, quiet.coalescing.trans reckoned.mode, books, ?_, delivered, ?_, going⟩
    · rw [posted, mailbox, left, lost, nothing]
      simp
    · intro still
      rw [phase] at still
      cases still

theorem Reckoned.move (reckoned : Reckoned coalescing batches swept c) (move : Move c more d) :
    ∃ gone, Reckoned coalescing (batches ++ more) gone d := by
  cases move with
  | own =>
    exact ⟨swept, reckoned.mode, by rw [List.append_nil]; exact reckoned.books,
      by rw [List.append_nil]; exact reckoned.posted, reckoned.emptied, reckoned.alive,
      by rw [List.append_nil]; exact reckoned.going⟩
  | posted m => exact ⟨swept, by rw [List.append_nil]; exact reckoned.send m⟩
  | @delivered batch rest alive waiting next =>
    refine reckoned.deliver alive ?_ (reckoned.emptied.move (.delivered alive waiting next))
    rw [Message.nextBatch] at next
    split at next
    · obtain ⟨rfl, rfl⟩ := Prod.mk.inj next
      exact (List.append_nil _).symm
    · obtain ⟨rfl, rfl⟩ := Prod.mk.inj next
      exact (List.take_append_drop 1 _).symm

theorem reckoned_moves (moves : Moves (start coalescing) batches c) :
    ∃ swept, Reckoned coalescing batches swept c :=
  moves.kept (P := fun batches c => ∃ swept, Reckoned coalescing batches swept c)
    ⟨[], reckoned_start coalescing⟩ fun _ _ _ _ ⟨_, before⟩ move => before.move move

/-- Messages that all fared the same. -/
def together (fate : EventFate) (messages : List (Message Empty)) : List (Event × EventFate) :=
  (messages.filterMap Message.event?).map fun e => (e, fate)

section Together

variable {fate : EventFate} {messages : List (Message Empty)}

theorem snd_together {a : Event × EventFate} (h : a ∈ together fate messages) : a.2 = fate := by
  obtain ⟨e, -, rfl⟩ := List.mem_map.1 h
  rfl

theorem map_together (fate : EventFate) (messages : List (Message Empty)) :
    (together fate messages).map Prod.fst = messages.filterMap Message.event? := by
  rw [together, List.map_map]
  exact List.map_id _

theorem filter_together (fate other : EventFate) (messages : List (Message Empty)) :
    (together fate messages).filter (·.2 = other) =
      if fate = other then together fate messages else [] := by
  split
  · rename_i same
    exact List.filter_eq_self.2 fun a ha => decide_eq_true ((snd_together ha).trans same)
  · rename_i different
    exact List.filter_eq_nil_iff.2 fun a ha =>
      Bool.not_eq_true _ ▸ decide_eq_false fun same => different ((snd_together ha).symm.trans same)

theorem callIn_together (fate : EventFate) (untold : ∀ n, fate ≠ .told n) :
    (together fate messages).filterMap callIn = [] := by
  refine List.filterMap_eq_nil_iff.2 fun a ha => ?_
  obtain ⟨e, -, rfl⟩ := List.mem_map.1 ha
  cases fate with
  | told n => exact absurd rfl (untold n)
  | _ => rfl

theorem entryIn_together (fate : EventFate) (claimed : fate ≠ .unclaimed) :
    (together fate messages).filterMap entryIn = [] := by
  refine List.filterMap_eq_nil_iff.2 fun a ha => ?_
  obtain ⟨e, -, rfl⟩ := List.mem_map.1 ha
  cases fate with
  | unclaimed => exact absurd rfl claimed
  | _ => rfl

end Together

/-- The account of a channel: the events of the batches, and then those that were swept away, that
wait, and that were lost. -/
def accountOf (coalescing : Bool) (batches : List (List (Message Empty)))
    (swept mailbox late : List (Message Empty)) : List (Event × EventFate) :=
  Clerk.start.accounts coalescing batches ++
    (together .swept swept ++ (together .waiting mailbox ++ together .lost late))

/-- An account in which every event that was sent stands once, in the order of sending, with what
came of it. The batches are those that delivery has taken; what was sent late came when delivery had
ended. -/
structure Accounted (coalescing : Bool) (sent late : List (Message Empty))
    (batches : List (List (Message Empty))) (account : List (Event × EventFate)) (c : Channel) :
    Prop where
  events : account.map Prod.fst = sent.filterMap Message.event?
  /-- What came of the events of the batches is what a clerk makes of them: an event is unclaimed if
  nobody is in charge of its dispatch when it is its turn. Behind them come those that a panic has
  swept away, those that wait, and those that came late. -/
  settled : ∃ swept, account = accountOf coalescing batches swept c.mailbox late
  /-- What waits is in the mailbox, and the other way round. -/
  waiting : (account.filter (·.2 = .waiting)).map Prod.fst = c.mailbox.filterMap Message.event?
  /-- The calls of the callbacks, in their order. -/
  told : account.filterMap callIn = c.told
  attached : ∀ e n, (e, .told n) ∈ account →
    ∃ callback, .attach e.id callback ∈ sent ∧ callback.number = n
  superseded : Everywhere (fun before a _ => a.2 = .superseded →
    coalescing = true ∧ Clerk.SupersededIn batches before a.1) account
  /-- What was logged, in its order. -/
  unclaimed : account.filterMap entryIn = c.logged
  lost : (account.filter (·.2 = .lost)).map Prod.fst = late.filterMap Message.event?
  /-- What came late is counted as lost, once. -/
  counted : c.lost = late
  /-- Only what comes after a panic is swept away or lost. -/
  panic : Everywhere (fun before a _ => a.2 = .swept ∨ a.2 = .lost → Clerk.PanicIn sent before)
    account
  alive : c.phase = .alive → ∀ a ∈ account, a.2 ≠ .swept ∧ a.2 ≠ .lost
  ended : c.phase ≠ .alive → ∀ a ∈ account, a.2 ≠ .waiting

section Account

variable {mailbox late : List (Message Empty)} {a : Event × EventFate}

/-- Where an event of an account stands that no batch holds. -/
theorem mem_accountOf (there : a ∈ accountOf coalescing batches swept mailbox late) :
    a ∈ Clerk.start.accounts coalescing batches ∨ a ∈ together .swept swept ∨
      a ∈ together .waiting mailbox ∨ a ∈ together .lost late := by
  simpa only [accountOf, List.mem_append] using there

theorem map_accountOf : (accountOf coalescing batches swept mailbox late).map Prod.fst =
    (batches.flatten ++ swept ++ mailbox ++ late).filterMap Message.event? := by
  simp only [accountOf, List.map_append, map_together, Clerk.map_accounts, List.filterMap_append,
    List.append_assoc]

theorem filter_waiting : ((accountOf coalescing batches swept mailbox late).filter
    (·.2 = .waiting)).map Prod.fst = mailbox.filterMap Message.event? := by
  have settled := Clerk.accounts_settled coalescing Clerk.start batches
  rw [accountOf, List.filter_append, List.filter_append, List.filter_append, filter_together,
    filter_together, filter_together, List.filter_eq_nil_iff.2 fun a ha => by
      simpa using (settled a ha).1]
  simp [map_together]

theorem filter_lost : ((accountOf coalescing batches swept mailbox late).filter
    (·.2 = .lost)).map Prod.fst = late.filterMap Message.event? := by
  have settled := Clerk.accounts_settled coalescing Clerk.start batches
  rw [accountOf, List.filter_append, List.filter_append, List.filter_append, filter_together,
    filter_together, filter_together, List.filter_eq_nil_iff.2 fun a ha => by
      simpa using (settled a ha).2]
  simp [map_together]

theorem callIn_accountOf : (accountOf coalescing batches swept mailbox late).filterMap callIn =
    (Clerk.start.takeAll coalescing batches).told := by
  simp only [accountOf, List.filterMap_append, callIn_together .swept nofun,
    callIn_together .waiting nofun, callIn_together .lost nofun, List.append_nil]
  exact (Clerk.told_accounts coalescing Clerk.start batches).1.symm

theorem entryIn_accountOf : (accountOf coalescing batches swept mailbox late).filterMap entryIn =
    (Clerk.start.takeAll coalescing batches).logged := by
  simp only [accountOf, List.filterMap_append, entryIn_together .swept nofun,
    entryIn_together .waiting nofun, entryIn_together .lost nofun, List.append_nil]
  exact (Clerk.told_accounts coalescing Clerk.start batches).2.symm

theorem superseded_accountOf : Everywhere (fun before a _ => a.2 = .superseded →
    coalescing = true ∧ Clerk.SupersededIn batches before a.1)
      (accountOf coalescing batches swept mailbox late) := by
  refine .append (Clerk.accounts_superseded coalescing Clerk.start batches)
    (.of_mem fun a there before after superseded => ?_)
  simp only [List.mem_append] at there
  rcases there with gone | waits | late
  · cases (snd_together gone).symm.trans superseded
  · cases (snd_together waits).symm.trans superseded
  · cases (snd_together late).symm.trans superseded

end Account

/-- While delivery goes on nothing is swept away or lost. -/
theorem Reckoned.calm (reckoned : Reckoned coalescing batches swept c) (alive : c.phase = .alive) :
    ∀ a ∈ accountOf coalescing batches swept c.mailbox c.lost, a.2 ≠ .swept ∧ a.2 ≠ .lost := by
  obtain ⟨rfl, nothing⟩ := reckoned.alive alive
  have going : (Clerk.start.takeAll coalescing batches).halted = false := by
    rw [← reckoned.books]
    exact c.going_iff.2 alive
  intro a there
  rw [nothing] at there
  rcases mem_accountOf there with taken | gone | waits | late
  · exact ⟨Clerk.accounts_unswept going a taken, (Clerk.accounts_settled _ _ _ a taken).2⟩
  · cases gone
  · rw [snd_together waits]
    exact ⟨nofun, nofun⟩
  · cases late

/-- Once delivery has ended nothing waits. -/
theorem Reckoned.over (reckoned : Reckoned coalescing batches swept c) (ended : c.phase ≠ .alive) :
    ∀ a ∈ accountOf coalescing batches swept c.mailbox c.lost, a.2 ≠ .waiting := by
  intro a there
  rw [reckoned.emptied ended] at there
  rcases mem_accountOf there with taken | gone | waits | late
  · exact (Clerk.accounts_settled _ _ _ a taken).1
  · rw [snd_together gone]
    nofun
  · cases waits
  · rw [snd_together late]
    nofun

/-- What is swept away or lost comes after a panic. -/
theorem Reckoned.panic (reckoned : Reckoned coalescing batches swept c) :
    Everywhere (fun before a _ => a.2 = .swept ∨ a.2 = .lost → Clerk.PanicIn c.posted before)
      (accountOf coalescing batches swept c.mailbox c.lost) := by
  have attested := Clerk.attested_start c.posted
  refine .append (fun before a after parts gone => ?_) (.of_mem fun a there before after gone => ?_)
  · have taken : a ∈ Clerk.start.accounts coalescing batches := by simp [parts]
    exact attested.swept reckoned.taken_subset reckoned.going before a after parts
      (gone.resolve_right (Clerk.accounts_settled _ _ _ a taken).2)
  · have ended : c.phase ≠ .alive := fun alive => by
      have calm := reckoned.calm alive a (List.mem_append_right _ there)
      exact gone.elim calm.1 calm.2
    have halted : (Clerk.start.takeAll coalescing batches).halted = true := by
      rw [← reckoned.books]
      exact c.halted_iff.2 ended
    exact (attested.halted rfl reckoned.taken_subset halted).mono (List.subset_append_left _ _)

theorem Reckoned.settles (reckoned : Reckoned coalescing batches swept c) :
    Accounted coalescing c.posted c.lost batches
      (accountOf coalescing batches swept c.mailbox c.lost) c := by
  have told : (Clerk.start.takeAll coalescing batches).told = c.told :=
    congrArg Clerk.told reckoned.books.symm
  have logged : (Clerk.start.takeAll coalescing batches).logged = c.logged :=
    congrArg Clerk.logged reckoned.books.symm
  have books : (Clerk.start.takeAll coalescing batches).Attested c.posted :=
    (Clerk.attested_start c.posted).takeAll reckoned.taken_subset
  refine {
    events := by rw [map_accountOf, reckoned.posted]
    settled := ⟨swept, rfl⟩
    waiting := filter_waiting
    told := callIn_accountOf.trans told
    attached := fun e n h => books.told (n, e) ?_
    superseded := superseded_accountOf
    unclaimed := entryIn_accountOf.trans logged
    lost := filter_lost
    counted := rfl
    panic := reckoned.panic
    alive := reckoned.calm
    ended := reckoned.over }
  rw [← callIn_accountOf]
  exact List.mem_filterMap.2 ⟨_, h, rfl⟩

/-- At every point of the use of a channel every event that its steps have posted is accounted for,
those that come late as lost. -/
theorem accounted (coalescing : Bool) (steps : List ChannelStep) : ∃ batches account,
    Moves (start coalescing) batches ((start coalescing).run steps) ∧
    Accounted coalescing (Poster.start.run steps).posted ((start coalescing).postedLate steps)
      batches account ((start coalescing).run steps) := by
  obtain ⟨batches, moves⟩ := moves_run (emptied_start coalescing) steps
  obtain ⟨swept, reckoned⟩ := reckoned_moves moves
  have settles := reckoned.settles
  rw [posted_run_start, lost_run] at settles
  exact ⟨batches, _, moves, settles⟩

end Channel
end SerialDispatch
