import SerialDispatch.Proofs.Dispatcher.LateCancels

/-!
# Requests to cancel

A request to cancel a dispatch is logged when the dispatch is cancelled through its handle and its
token is not raised yet. A token is raised by a cancellation or when the dispatch is discarded, so
one request is logged if the dispatch is cancelled at all before it is discarded, and none
otherwise; main statement: `Instant.Occurs.heard`.
-/
namespace SerialDispatch

/-- How many requests to cancel the dispatch are logged. -/
def requestsIn (history : List Happening) (id : DispatchId) : Nat :=
  history.countP (Happening.requests id)

/-- The dispatch was cancelled through its handle before it was discarded, if it ever was. -/
def AskedInTime (history : List Happening) (id : DispatchId) : Prop :=
  ∃ before after, history = before ++ .cancelled id :: after ∧
    .discarded ∉ milestonesIn before id

/-- One request is logged if the dispatch was cancelled in time, and none otherwise. -/
inductive Heard (history : List Happening) (id : DispatchId) : Prop
  | asked (inTime : AskedInTime history id) (once : requestsIn history id = 1)
  | unasked (never : ¬ AskedInTime history id) (none : requestsIn history id = 0)

section Histories

variable {history more : List Happening} {id : DispatchId}

theorem requestsIn_append : requestsIn (history ++ more) id =
    requestsIn history id + requestsIn more id := List.countP_append

theorem AskedInTime.append (asked : AskedInTime history id) : AskedInTime (history ++ more) id := by
  obtain ⟨before, after, rfl, undiscarded⟩ := asked
  exact ⟨before, after ++ more, by simp, undiscarded⟩

theorem AskedInTime.cancelled (asked : AskedInTime history id) : id ∈ cancelledIn history := by
  obtain ⟨before, after, rfl, -⟩ := asked
  simp [cancelledIn, Happening.cancelled?]

theorem mem_history_of_cancelledIn (cancelled : id ∈ cancelledIn history) :
    .cancelled id ∈ history := by
  obtain ⟨h, hmem, same⟩ := List.mem_filterMap.1 cancelled
  cases h with
  | cancelled other => cases same; exact hmem
  | _ => cases same

/-- As long as a dispatch is not discarded, every cancellation comes in time. -/
theorem askedInTime_of_undiscarded (cancelled : id ∈ cancelledIn history)
    (undiscarded : .discarded ∉ milestonesIn history id) : AskedInTime history id := by
  obtain ⟨before, after, rfl⟩ := List.append_of_mem (mem_history_of_cancelledIn cancelled)
  refine ⟨before, after, rfl, fun discarded => undiscarded ?_⟩
  rw [milestonesIn_append]
  exact List.mem_append_left _ discarded

/-- Who is cancelled in time has been so before, or is so now and is not discarded yet. -/
theorem asked_of_append (asked : AskedInTime (history ++ more) id) : AskedInTime history id ∨
    .cancelled id ∈ more ∧ .discarded ∉ milestonesIn history id := by
  obtain ⟨before, after, split, undiscarded⟩ := asked
  rcases List.append_eq_append_iff.1 split with ⟨between, rfl, rfl⟩ | ⟨between, rfl, rest⟩
  · refine .inr ⟨by simp, fun discarded => undiscarded ?_⟩
    rw [milestonesIn_append]
    exact List.mem_append_left _ discarded
  · cases between with
    | nil =>
      rw [List.nil_append] at rest
      exact .inr ⟨by simp [← rest], by rwa [List.append_nil]⟩
    | cons h between =>
      obtain ⟨rfl, -⟩ := List.cons_eq_cons.1 rest
      exact .inl ⟨before, between, rfl, undiscarded⟩

/-- Neither a cancellation of the dispatch nor the log entry of a request to cancel it. -/
def Happening.Unasking (id : DispatchId) (h : Happening) : Prop :=
  h ≠ .cancelled id ∧ h.requests id = false

theorem unasking_of_rarity {h : Happening} (uncancelled : h.rarity? ≠ some .cancellation)
    (unrequested : h.rarity? ≠ some .request) : h.Unasking id := by
  refine ⟨fun cancels => uncancelled (by rw [cancels]; rfl), ?_⟩
  by_contra requests
  obtain ⟨record, rfl, request⟩ :=
    Happening.log_of_requests (Bool.not_eq_false _ ▸ requests)
  exact unrequested (by simp [Happening.rarity?, request])

/-- The cancellation of one dispatch is no request to cancel another. -/
theorem unasking_other {other : DispatchId} (ne : other ≠ id) (time : Nat) :
    Happening.Unasking id (.cancelled other) ∧
      Happening.Unasking id (.log ⟨time, none, .cancellationRequested other⟩) :=
  ⟨⟨fun h => ne (Happening.cancelled.inj h), rfl⟩, nofun, by simp [Happening.requests, ne]⟩

namespace Heard

theorem extend (heard : Heard history id) (few : ∀ h ∈ more, h.Unasking id) :
    Heard (history ++ more) id := by
  have none : requestsIn more id = 0 :=
    List.countP_eq_zero.2 fun h hh => by rw [(few h hh).2]; exact Bool.false_ne_true
  have count : requestsIn (history ++ more) id = requestsIn history id := by
    rw [requestsIn_append, none, Nat.add_zero]
  cases heard with
  | asked inTime once => exact .asked inTime.append (count.trans once)
  | unasked never none =>
    refine .unasked (fun asked => ?_) (count.trans none)
    rcases asked_of_append asked with early | ⟨now, -⟩
    · exact never early
    · exact (few _ now).1 rfl

/-- A cancellation that finds the token raised is no news. -/
theorem again (heard : Heard history id)
    (raised : AskedInTime history id ∨ .discarded ∈ milestonesIn history id) :
    Heard (history ++ [.cancelled id]) id := by
  have count : requestsIn (history ++ [.cancelled id]) id = requestsIn history id :=
    requestsIn_append
  cases heard with
  | asked inTime once => exact .asked inTime.append (count.trans once)
  | unasked never none =>
    refine .unasked (fun asked => ?_) (count.trans none)
    rcases asked_of_append asked with early | ⟨-, undiscarded⟩
    · exact never early
    · exact undiscarded (raised.resolve_left never)

/-- A cancellation that finds it not raised is logged as a request. -/
theorem first (heard : Heard history id)
    (unraised : ¬ (AskedInTime history id ∨ .discarded ∈ milestonesIn history id)) (time : Nat) :
    Heard (history ++ [.cancelled id] ++ [.log ⟨time, none, .cancellationRequested id⟩]) id := by
  obtain ⟨unasked, undiscarded⟩ := not_or.1 unraised
  have none : requestsIn history id = 0 := by
    cases heard with
    | asked inTime once => exact absurd inTime unasked
    | unasked never none => exact none
  refine .asked ⟨history, [.log ⟨time, .none, .cancellationRequested id⟩], ?_, undiscarded⟩ ?_
  · rw [List.append_assoc]
    rfl
  · rw [requestsIn_append, requestsIn_append, none]
    simp [requestsIn, Happening.requests]

end Heard

end Histories

section Dropped

variable {S : Setup} {slip : Slip} {history : List Happening} {l : Ledger}

theorem Stand.mem_discarded_iff {st : Stand} :
    .discarded ∈ st.milestones slip ↔ st.isDropped = true := by
  have unlooked : ∀ looks : List Bool, Milestone.discarded ∉ looks.map .looked :=
    fun looks h => by simp at h
  cases st with
  | waiting => simp [Stand.milestones, Stand.isDropped, Stand.place?]
  | «at» p =>
    cases p <;>
      simp [Stand.milestones, Stand.isDropped, Stand.place?, Place.milestones, Place.isDropped,
        unlooked]
  | settled fate =>
    cases fate <;>
      simp [Stand.milestones, Stand.isDropped, Stand.place?, Fate.place, Place.milestones,
        Place.isDropped, unlooked]

/-- The dispatches that were discarded are those that have that milestone. -/
theorem Ledger.Run.mem_dropped_iff (run : Run S .empty history l) (hslip : slip ∈ l.accepted) :
    slip.id ∈ l.dropped ↔ .discarded ∈ milestonesIn history slip.id := by
  obtain ⟨⟨slip, st⟩, hroll, rfl⟩ := List.mem_map.1 hslip
  rw [run.milestones _ hroll, Stand.mem_discarded_iff]
  constructor
  · intro dropped
    obtain ⟨entry, hentry, same⟩ := List.mem_map.1 dropped
    obtain ⟨there, gone⟩ := List.mem_filter.1 hentry
    rwa [run.ordered.unique there hroll same] at gone
  · exact fun gone => List.mem_map.2 ⟨_, List.mem_filter.2 ⟨hroll, gone⟩, rfl⟩

end Dropped

namespace Session

variable {S : Setup} {s : Session} {id : DispatchId}

/-- What a start submits. -/
def slip (s : Session) (request : Request) (input : CryptoInput) (surface : Surface) : Slip :=
  ⟨⟨s.nextId, request, input, s.tokens.fresh, surface = .needed⟩, s.starts⟩

/-- A start accepts the dispatch with the next id, or none. -/
theorem acceptedIn_start (S : Setup) (s : Session) (request : Request) (input : CryptoInput)
    (surface : Surface) (panicsOn : Option Trigger) (reactions : List (Trigger × List Command)) :
    acceptedIn (s.perform S (.start request input surface panicsOn reactions)).1.history =
        acceptedIn s.history ∨
      acceptedIn (s.perform S (.start request input surface panicsOn reactions)).1.history =
        acceptedIn s.history ++ [s.slip request input surface] := by
  simp only [perform]
  split
  · exact .inl rfl
  · split
    · unfold startRequest
      split
      · exact .inl rfl
      · split
        · exact .inl rfl
        · have sent := acceptedIn_send { s with starts := s.starts + 1 }.allot
            (.attach s.nextId ⟨s.starts, panicsOn, reactions⟩)
          cases takes : (({ s with starts := s.starts + 1 }.allot).send
              (.attach s.nextId ⟨s.starts, panicsOn, reactions⟩)).inbox.submit
                (s.slip request input surface).task with
          | ok inbox => exact .inr ((acceptedIn_submit takes).trans (by rw [sent]; rfl))
          | error e => exact .inl ((acceptedIn_submit_error takes).trans sent)
    · exact .inl rfl

/-- The token of a dispatch is raised when it was cancelled in time, or discarded. -/
theorem Fits.raised_iff {l : Ledger} (fits : Fits S s.workerSide l)
    (run : Ledger.Run S .empty s.history l) {slip : Slip} (hslip : slip ∈ acceptedIn s.history) :
    s.tokens.isCancelled slip.task.token = true ↔
      AskedInTime s.history slip.id ∨ .discarded ∈ milestonesIn s.history slip.id := by
  have hmem : slip ∈ l.accepted := by rwa [run.accepted_of_empty]
  have flags : s.tokens.isCancelled slip.task.token = _ := fits.known.flags slip hmem
  have cancelled : l.cancelled = cancelledIn s.history := run.cancelled
  rw [flags, Bool.or_eq_true, decide_eq_true_eq, decide_eq_true_eq, cancelled,
    run.mem_dropped_iff hmem]
  constructor
  · rintro (early | dropped)
    · by_cases dropped : .discarded ∈ milestonesIn s.history slip.id
      · exact .inr dropped
      · exact .inl (askedInTime_of_undiscarded early dropped)
    · exact .inr dropped
  · rintro (asked | dropped)
    · exact .inl asked.cancelled
    · exact .inr dropped

/-- The cancellation of another dispatch is no news. -/
theorem heard_cancel_other {handle : Nat} (other : ∀ token, s.handles[handle]? ≠ some (id, token))
    (heard : Heard s.history id) : Heard (s.cancel handle).1.history id := by
  unfold Session.cancel
  cases found : s.handles[handle]? with
  | none => exact heard
  | some pair =>
    obtain ⟨cancelled, token⟩ := pair
    have ne : cancelled ≠ id := fun same => other token (by rw [found, same])
    obtain ⟨asks, requests⟩ := unasking_other ne s.clock
    have marked : Heard (s.history ++ [.cancelled cancelled]) id :=
      heard.extend fun h hh => by rw [List.mem_singleton.1 hh]; exact asks
    dsimp only
    split
    · rw [history_record]
      exact marked
    · rw [history_log, history_record]
      exact marked.extend fun h hh => by rw [List.mem_singleton.1 hh]; exact requests

/-- Whether a cancellation is logged as a request is decided by whether the token is raised. -/
theorem Booked.heard_cancel (booked : Booked S s) (handle : Nat) {slip : Slip}
    (hslip : slip ∈ acceptedIn s.history) (heard : Heard s.history slip.id) :
    Heard (s.cancel handle).1.history slip.id := by
  by_cases own : ∃ token, s.handles[handle]? = some (slip.id, token)
  · obtain ⟨token, found⟩ := own
    obtain ⟨⟨l, run, fits⟩, -⟩ := booked
    have raised := Fits.raised_iff fits run hslip
    have known : Known s.handles s.nextId s.tokens l := fits.known
    have hmem : slip ∈ l.accepted := by rwa [run.accepted_of_empty]
    obtain rfl : token = slip.task.token :=
      (known.token_eq (List.mem_of_getElem? found) (known.mem_handles hmem)).2 rfl
    unfold Session.cancel
    rw [found]
    dsimp only
    split
    · rename_i flag
      rw [history_record]
      exact heard.again (raised.1 flag)
    · rename_i flag
      rw [history_log, history_record]
      exact heard.first (fun was => flag (raised.2 was)) s.clock
  · exact heard_cancel_other (fun token found => own ⟨token, found⟩) heard

end Session

namespace Instant

variable {S : Setup} {steps : List CallerStep} {i j k : Instant} {id : DispatchId}

/-- Besides what a command does, only what is common is written down. -/
theorem history_carriedOut {c : Command} (command : i.command? = some c) (done : Session × Reply) :
    ∃ rest, (i.carriedOut done).session.history = done.1.history ++ rest ∧
      ∀ h ∈ rest, h.rarity? = none := by
  rcases carriedOut_cases command with same | ⟨task, n, rest, same⟩ | ⟨callback, focus, same⟩
  · rw [same]
    exact ⟨[], (List.append_nil _).symm, fun _ hh => absurd hh List.not_mem_nil⟩
  · rw [same]
    refine ⟨_, Session.history_record _ _, fun h hh => ?_⟩
    rw [List.mem_singleton.1 hh]
    rfl
  · rw [same]
    refine ⟨_, Session.history_record _ _, fun h hh => ?_⟩
    rw [List.mem_singleton.1 hh]
    rfl

theorem acceptedIn_of_common {history : List Happening}
    (common : ∀ h ∈ history, h.rarity? ≠ some .acceptance) : acceptedIn history = [] := by
  refine List.filterMap_eq_nil_iff.2 fun h hh => ?_
  cases h with
  | reached task milestone time =>
    cases milestone with
    | submitted callback => exact absurd rfl (common _ hh)
    | _ => rfl
  | _ => rfl

/-- A dispatch that is accepted next is submitted by a start. -/
theorem accepted_next (next : i.next? S = some j) {slip : Slip}
    (accepted : slip ∈ acceptedIn j.session.history) : slip ∈ acceptedIn i.session.history ∨
      ∃ request input surface panicsOn reactions,
        i.command? = some (.start request input surface panicsOn reactions) ∧
          slip = i.session.slip request input surface := by
  obtain ⟨more, hmore, few⟩ := (move_of_next next).occasions.few
  by_cases starts : ∃ request input surface panicsOn reactions,
      i.command? = some (.start request input surface panicsOn reactions)
  · obtain ⟨request, input, surface, panicsOn, reactions, command⟩ := starts
    rw [next_of_command command] at next
    cases next
    obtain ⟨rest, hrest, common⟩ := history_carriedOut command
      (i.session.perform S (.start request input surface panicsOn reactions))
    have none : acceptedIn rest = [] :=
      acceptedIn_of_common fun h hh rare => by rw [common h hh] at rare; cases rare
    rw [hrest, acceptedIn_append, none, List.append_nil] at accepted
    rcases Session.acceptedIn_start S i.session request input surface panicsOn reactions with
      none | one
    · rw [none] at accepted
      exact .inl accepted
    · rw [one] at accepted
      rcases List.mem_append.1 accepted with old | new
      · exact .inl old
      · exact .inr ⟨_, _, _, _, _, command, List.mem_singleton.1 new⟩
  · -- Without a start nothing is accepted.
    have none : acceptedIn more = [] := by
      refine acceptedIn_of_common fun h hh rare => ?_
      cases few h hh _ rare with
      | @commanded c _ command brings =>
        cases c with
        | start => exact starts ⟨_, _, _, _, _, command⟩
        | cancel => rcases brings with h | h <;> cases h
        | drop => cases brings
        | unreadable => cases brings
    rw [hmore, acceptedIn_append, none, List.append_nil] at accepted
    exact .inl accepted

/-- A dispatch is what a start has submitted. -/
theorem Occurs.accepted (occurs : Occurs S steps k) {slip : Slip}
    (accepted : slip ∈ acceptedIn k.session.history) :
    ∃ i request input surface panicsOn reactions, Occurs S steps i ∧
      i.command? = some (.start request input surface panicsOn reactions) ∧
        slip = i.session.slip request input surface := by
  induction occurs with
  | refl => cases accepted
  | @tail i j before next ih =>
    rcases accepted_next next accepted with
      old | ⟨request, input, surface, panicsOn, reactions, new⟩
    · exact ih old
    · exact ⟨i, request, input, surface, panicsOn, reactions, before, new⟩

/-- Without a cancellation nothing is asked. -/
theorem unasking_next (next : i.next? S = some j) (quiet : ∀ n, i.command? ≠ some (.cancel n)) :
    ∃ more, j.session.history = i.session.history ++ more ∧ ∀ id, ∀ h ∈ more, h.Unasking id := by
  obtain ⟨more, hmore, few⟩ := (move_of_next next).occasions.few
  have never : ∀ r, r = .cancellation ∨ r = .request → ¬ i.Occasion r := by
    intro r rare occasion
    cases occasion with
    | @commanded c _ command brings =>
      cases c with
      | start => rcases brings with rfl | ⟨rfl, -⟩ <;> rcases rare with h | h <;> cases h
      | cancel handle => exact quiet handle command
      | drop => cases brings
      | unreadable => cases brings
    | _ => rcases rare with h | h <;> cases h
  exact ⟨more, hmore, fun id h hh => unasking_of_rarity
    (fun rare => never _ (.inl rfl) (few h hh _ rare))
    fun rare => never _ (.inr rfl) (few h hh _ rare)⟩

/-- What a cancellation through a handle adds, and what else happens meanwhile. -/
theorem heard_next (next : i.next? S = some j) (heard : Heard i.session.history id)
    (cancels : ∀ handle, i.command? = some (.cancel handle) →
      Heard (i.session.cancel handle).1.history id) : Heard j.session.history id := by
  by_cases command : ∃ handle, i.command? = some (.cancel handle)
  · obtain ⟨handle, command⟩ := command
    rw [next_of_command command] at next
    cases next
    obtain ⟨rest, hrest, common⟩ :=
      history_carriedOut command (i.session.perform S (.cancel handle))
    rw [hrest]
    refine (cancels handle command).extend fun h hh => unasking_of_rarity ?_ ?_
    · rw [common h hh]
      exact nofun
    · rw [common h hh]
      exact nofun
  · obtain ⟨more, hmore, few⟩ := unasking_next next fun n h => command ⟨n, h⟩
    rw [hmore]
    exact heard.extend (few id)

/-- No request is logged for a dispatch that is not cancelled. -/
theorem Occurs.unheard (occurs : Occurs S steps k)
    (uncancelled : id ∉ cancelledIn k.session.history) : Heard k.session.history id := by
  induction occurs with
  | refl => exact .unasked (fun asked => absurd asked.cancelled List.not_mem_nil) rfl
  | @tail i j before next ih =>
    obtain ⟨more, hmore⟩ := (move_of_next next).past
    rw [← hmore, cancelledIn_append, List.mem_append, not_or] at uncancelled
    refine heard_next next (ih uncancelled.1) fun handle command => ?_
    refine Session.heard_cancel_other (fun token found => uncancelled.2 ?_) (ih uncancelled.1)
    have all := cancelledIn_carriedOut command (i.session.perform S (.cancel handle))
    rw [next_of_command command] at next
    cases next
    rw [← hmore, cancelledIn_append, Session.perform, Session.cancelledIn_cancel, found,
      List.append_cancel_left_eq] at all
    rw [all]
    exact List.mem_singleton_self _

/-- A dispatch that is accepted next is not cancelled yet. -/
theorem uncancelled_of_start (booked : Session.Booked S i.session) (next : i.next? S = some j)
    {request : Request} {input : CryptoInput} {surface : Surface} {panicsOn : Option Trigger}
    {reactions : List (Trigger × List Command)}
    (command : i.command? = some (.start request input surface panicsOn reactions)) :
    i.session.nextId ∉ cancelledIn j.session.history := by
  obtain ⟨⟨l, run, fits⟩, -⟩ := booked
  have known : Known i.session.handles i.session.nextId i.session.tokens l := fits.known
  obtain ⟨more, hmore, few⟩ := unasking_next next fun n h => by rw [command] at h; cases h
  have cancelled : l.cancelled = cancelledIn i.session.history := run.cancelled
  rw [hmore, cancelledIn_append, List.mem_append, ← cancelled]
  rintro (early | now)
  · exact Nat.lt_irrefl _ (known.marked _ early)
  · exact (few _ _ (mem_history_of_cancelledIn now)).1 rfl

/-- Of the requests to cancel a dispatch one is logged at most. -/
theorem Occurs.heard (occurs : Occurs S steps k) {slip : Slip}
    (accepted : slip ∈ acceptedIn k.session.history) : Heard k.session.history slip.id := by
  induction occurs with
  | refl => cases accepted
  | @tail i j before next ih =>
    have booked := Occurs.booked before
    rcases accepted_next next accepted with
      old | ⟨request, input, surface, panicsOn, reactions, command, rfl⟩
    · exact heard_next next (ih old) fun handle _ => booked.heard_cancel handle old (ih old)
    · exact Occurs.unheard (before.tail next) (uncancelled_of_start booked next command)

end Instant
end SerialDispatch
