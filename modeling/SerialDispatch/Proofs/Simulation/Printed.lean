import SerialDispatch.Proofs.Simulation.Awaiting
import SerialDispatch.Simulation.Output

/-!
# What a simulation prints

What a run prints can be told from its options: the log, and between its entries a line for every
request, which says how it ended, and at last how many keyrings are stored. How often the callbacks
are called does not come into the lines, so coalescing makes no difference to them; but it makes one
to the log, which has an entry for each call before the end. Main statement: `prints_all_requests`.
-/
namespace SerialDispatch

open Session

namespace LogFilter

/-- The default filter shows all that the service and the program itself find worth telling. -/
theorem default_shows (c : Callsite) (span : Option Span) : default.shows c span =
    (("keyops_service".toList.isPrefixOf c.target.toList ||
      "keyops_demo".toList.isPrefixOf c.target.toList) &&
      decide (Severity.info.rank ≤ c.severity.rank)) := by
  have unscoped : default.forSpans = [] := rfl
  have plain : default.plain = default.directives := rfl
  have within : span.any (default.showsWithin · c) = false := by
    simp [showsWithin, unscoped]
  rw [shows, within, Bool.or_false, showsAlone, plain, default, List.filter_cons, List.filter_cons,
    List.filter_nil]
  unfold Directive.coversTarget Directive.coversField
  cases "keyops_service".toList.isPrefixOf c.target.toList <;>
    cases "keyops_demo".toList.isPrefixOf c.target.toList <;> rfl

theorem isPrefixOf_target (event : LogEvent) :
    "keyops_service".toList.isPrefixOf event.target.toList = true := by
  cases event <;> simp only [LogEvent.target] <;> decide

theorem default_shows_program (fields : List String) :
    default.shows ⟨"keyops_demo", .info, fields⟩ none = true := by
  have target : "keyops_demo".toList.isPrefixOf "keyops_demo".toList = true := by decide
  rw [default_shows, Bool.and_eq_true, Bool.or_eq_true]
  exact ⟨.inr target, rfl⟩

end LogFilter

namespace Layout

theorem apply_right (width : Nat) (text : String) :
    (Layout.mk width none .right ' ').apply text =
      String.ofList (text.toList.leftpad width ' ') := by
  simp [apply, chars, before, List.leftpad]

theorem apply_left (width : Nat) (text : String) :
    (Layout.mk width none .left ' ').apply text =
      String.ofList (text.toList.rightpad width ' ') := by
  simp [apply, chars, before, List.rightpad]

end Layout

namespace Simulation

/-- The default filter shows what is loud, and all calls before the end. -/
theorem length_shown_singleton {h : Happening} (claimed : h.isUnclaimed = false) :
    ((Logged.during [h]).filterMap (Logged.under? .default)).length =
      (loudIn [h]).length + ((toldIn [h]).filter fun call => !call.2.signal.isFinished).length := by
  cases h with
  | log record =>
    have shown : LogFilter.default.shows (Logged.service record).callsite
        (Logged.service record).span? = record.event.isLoud := by
      rw [LogFilter.default_shows]
      have target := LogFilter.isPrefixOf_target record.event
      simp only [Logged.callsite, LogEvent.callsite, target, Bool.true_or, Bool.true_and]
      rfl
    -- Delivery logs nothing but what is unclaimed.
    have party : record.event.party ≠ .delivery := by
      obtain ⟨time, span, event⟩ := record
      cases event with
      | unclaimed id trigger => cases claimed
      | _ => simp [LogEvent.party]
    cases loud : record.event.isLoud <;>
      simp [Logged.during, Logged.ofHappening?, Logged.under?, shown, loud, loudIn, Happening.loud?,
        party, Happening.told?]
  | told n e =>
    obtain ⟨id, signal⟩ := e
    cases signal with
    | progress update =>
      have shown : LogFilter.default.shows (Logged.progress n update).callsite none = true :=
        LogFilter.default_shows_program _
      simp [Logged.during, Logged.ofHappening?, Logged.under?, shown, loudIn, Happening.loud?,
        Happening.told?, Signal.isFinished, Logged.span?]
    | preventCancel =>
      have shown : LogFilter.default.shows (Logged.prevented n).callsite none = true :=
        LogFilter.default_shows_program _
      simp [Logged.during, Logged.ofHappening?, Logged.under?, shown, loudIn, Happening.loud?,
        Happening.told?, Signal.isFinished, Logged.span?]
    | finished outcome => rfl
  | _ => rfl

/-- As many entries are shown as operations came to their end and as callbacks were called before
the end. -/
theorem length_shown {history : List Happening}
    (claimed : history.filter Happening.isUnclaimed = []) :
    ((Logged.during history).filterMap (Logged.under? .default)).length =
      (loudIn history).length +
        ((toldIn history).filter fun call => !call.2.signal.isFinished).length := by
  induction history with
  | nil => rfl
  | cons h rest ih =>
    rw [List.filter_cons] at claimed
    split at claimed
    · cases claimed
    · rename_i single
      have first := length_shown_singleton (h := h) (by simpa using single)
      rw [← List.singleton_append, Logged.during_append, List.filterMap_append, loudIn_append,
        toldIn_append, List.filter_append, List.length_append, List.length_append,
        List.length_append, first, ih claimed]
      omega

theorem filterMap_line_entries (log : List Logged) :
    (log.map Printed.entry).filterMap Printed.line? = [] := by
  rw [List.filterMap_map]
  exact List.filterMap_eq_nil_iff.2 fun l _ => rfl

/-- The texts of log entries, as far as a filter shows them. -/
def Logged.texts (f : LogFilter) (asJson : Bool) (log : List Logged) : List String :=
  (log.filterMap (Logged.under? f)).map (Logged.printed asJson)

theorem filterMap_text_entries (f : LogFilter) (asJson : Bool) (log : List Logged) :
    (log.map Printed.entry).filterMap (Printed.text? f asJson) = Logged.texts f asJson log := by
  rw [Logged.texts, List.filterMap_map, List.map_filterMap]
  rfl

namespace Options

variable (o : Options)

/-- Without coalescing, everything that is sent is told. -/
theorem claimed_settled (plain : o.config.coalescing = false) :
    o.settled.history.filter Happening.isUnclaimed = [] := by
  have settles := o.settles
  refine (settles.counted plain).claimed settles.mailbox ?_
  rw [settles.messages, events_mail, o.told_plain plain, List.length_map]

/-- Before a request ends, its callback is called for every step and twice more. -/
theorem length_news :
    (o.calls.filter fun call => !call.2.signal.isFinished).length =
      o.performed.length * (o.steps.toNat + 2) := by
  have each : ∀ i, ((o.callsOf i).filter fun call => !call.2.signal.isFinished).length =
      (o.newsOf i).length := by
    intro i
    have unfinished := o.unfinished_newsOf i
    have news : (o.newsOf i).filter (fun signal => !signal.isFinished) = o.newsOf i :=
      List.filter_eq_self.2 fun signal there => by rw [unfinished signal there]; rfl
    rw [callsOf_eq, List.filter_append, List.filter_map, List.length_append, List.length_map]
    exact congrArg List.length news
  unfold calls performed
  induction List.range o.count with
  | nil => exact (Nat.zero_mul _).symm
  | cons i rest ih =>
    rw [List.flatMap_cons, List.filter_append, List.length_append, each, ih, newsOf]
    cases cancelled : o.cancels i with
    | true => simp [cancelled]
    | false =>
      simp only [cancelled, Bool.not_false, List.filter_cons_of_pos, Bool.false_eq_true, if_false,
        List.length_append, List.length_map, List.length_range, List.length_cons, List.length_nil]
      ring

/-- The line of request `i`: its number, its kind, and what has become of it. -/
def resultLine (i : Nat) : String :=
  String.ofList ((toString i).toList.leftpad 3 ' ') ++ " " ++
    String.ofList ((kindOf i).name.toList.rightpad 15 ' ') ++ " " ++
    if 0 < o.cancelEvery ∧ o.cancelEvery ∣ i then "cancelled before start"
    else (Result.toJson ⟨kindOf i, .ok,
      [⟨.info, "saved 0x" ++ String.ofList (Nat.toDigits 16 i)⟩]⟩).compact

/-- The requests that are not cancelled. -/
def uncancelled : List Nat :=
  (List.range o.count).filter fun i => ¬ (0 < o.cancelEvery ∧ o.cancelEvery ∣ i)

theorem cancels_iff (i : Nat) : o.cancels i = true ↔ 0 < o.cancelEvery ∧ o.cancelEvery ∣ i := by
  simp [cancels, Nat.pos_iff_ne_zero, Nat.dvd_iff_mod_eq_zero]

theorem performed_eq : o.performed = o.uncancelled := by
  refine List.filter_congr fun i _ => ?_
  rw [Bool.eq_iff_iff]
  simp [← cancels_iff]

theorem line_eq {i : Nat} (small : i < UInt64.size) : line i (o.outcomeOf i) = o.resultLine i := by
  rw [line, resultLine, Layout.apply_right, Kind.shown, Layout.apply_left, outcomeOf]
  by_cases cancelled : o.cancels i = true
  · rw [if_pos cancelled, if_pos ((o.cancels_iff i).1 cancelled)]
    rfl
  · rw [if_neg cancelled, if_neg (mt (o.cancels_iff i).2 cancelled), outcomeText, savedLog, hex,
      UInt64.toNat_ofNat_of_lt' small]
    rfl

theorem ending_reportAfter (delays : Nat → Nat) : (o.reportAfter delays).ending = .exited 0 := by
  obtain ⟨logs, -, -, -, report⟩ := o.reportAfter_eq delays
  rw [report]

/-- The lines of the chapters are those of the requests, in order. -/
theorem lines_chapters (room : o.count ≤ UInt64.size) {logs : List (List Logged)}
    (length : logs.length = o.count) :
    (logs.zipIdx.flatMap o.chapter).filterMap Printed.line? =
      (List.range o.count).map o.resultLine := by
  have each : ∀ c ∈ logs.zipIdx, (o.chapter c).filterMap Printed.line? = [o.resultLine c.2] := by
    rintro ⟨log, i⟩ there
    have small : i < UInt64.size :=
      Nat.lt_of_lt_of_le (length ▸ List.snd_lt_of_mem_zipIdx there) room
    rw [chapter, List.filterMap_append, filterMap_line_entries, o.line_eq small]
    rfl
  have numbers : logs.zipIdx.map Prod.snd = List.range o.count := by
    rw [List.zipIdx_map_snd, length, List.range_eq_range']
  rw [List.filterMap_flatMap, List.flatMap_congr each, ← numbers, List.map_map,
    List.map_eq_flatMap]
  rfl

theorem texts_chapters (room : o.count ≤ UInt64.size) {logs : List (List Logged)}
    (length : logs.length = o.count) (f : LogFilter) (asJson : Bool) :
    (logs.zipIdx.flatMap o.chapter).filterMap (Printed.text? f asJson) =
      logs.zipIdx.flatMap fun (log, i) => Logged.texts f asJson log ++ [o.resultLine i] := by
  rw [List.filterMap_flatMap]
  refine List.flatMap_congr ?_
  rintro ⟨log, i⟩ there
  have small : i < UInt64.size :=
    Nat.lt_of_lt_of_le (length ▸ List.snd_lt_of_mem_zipIdx there) room
  rw [chapter, List.filterMap_append, filterMap_text_entries, o.line_eq small]
  rfl

end Options

/-- With valid options, under the default filter and as long as there is room for the requests, the
program ends well, however late it notices that a request has ended. It prints the line of each
request, in order, and before it what was logged meanwhile, where nothing more is logged for a
request behind its line; all that was logged is printed in order, and a last entry at the end. As
many keyrings are stored as requests were not cancelled, and without coalescing the log has an entry
for each step of each of these, three more for each of them, and the last one. -/
theorem prints_all_requests {e : Environment} {arguments : List String} {o : Options}
    (valid : Invocation.ofArguments e arguments = .run o)
    (unfiltered : LogFilter.ofEnvironment? e.logFilter = some .default)
    (room : o.count ≤ maxCount) (delays : Nat → Nat) :
    Course.ofArguments e arguments = .run o .default ∧
      (Course.ofArguments e arguments).exitStatus = 0 ∧
      (o.reportAfter delays).ending = .exited 0 ∧
      (o.reportAfter delays).lines = (List.range o.count).map o.resultLine ∧
      (Logged.done o.uncancelled.length).toJson = .object [("level", .string "INFO"),
        ("fields", .object [("message", .string "done"), ("stored", .nat o.uncancelled.length)]),
        ("target", .string "keyops_demo")] ∧
      ∃ (first : List Logged) (logs : List (List Logged)),
        logs.length = o.count ∧
        first ++ logs.flatten = Logged.during o.settled.history ∧
        (∀ n log, logs[n]? = some log →
          ∀ l ∈ log, ∀ i, Logged.request? l = some i → n ≤ i) ∧
        (o.reportAfter delays).output .default o.jsonLogs =
          Logged.texts .default o.jsonLogs first ++
            (logs.zipIdx.flatMap fun (log, i) =>
              Logged.texts .default o.jsonLogs log ++ [o.resultLine i]) ++
            [(Logged.done o.uncancelled.length).printed o.jsonLogs] ∧
        (o.config.coalescing = false →
          (Logged.texts .default o.jsonLogs (first ++ logs.flatten) ++
            [(Logged.done o.uncancelled.length).printed o.jsonLogs]).length =
              o.uncancelled.length * (o.steps.toNat + 3) + 1) := by
  have word : o.count ≤ UInt64.size := Nat.le_trans room (by decide)
  have course : Course.ofArguments e arguments = .run o .default := by
    rw [Course.ofArguments, valid]
    dsimp only
    rw [unfiltered]
    dsimp only
    rw [if_pos room]
  have status : (Course.ofArguments e arguments).exitStatus = 0 := by
    rw [course, Course.exitStatus, Options.report, o.ending_reportAfter]
    rfl
  obtain ⟨logs, length, logged, ordered, report⟩ := o.reportAfter_eq delays
  have stored : o.settled.store.size = o.uncancelled.length := by
    rw [o.settles.stored word, o.performed_eq]
  rw [stored] at report
  rw [report]
  refine ⟨course, status, rfl, ?_, rfl, _, logs, length, logged.symm, ordered,
    ?_, fun plain => ?_⟩
  · rw [Report.lines, List.filterMap_append, List.filterMap_append, filterMap_line_entries,
      o.lines_chapters word length]
    exact List.append_nil _
  · have last : (Logged.done o.uncancelled.length).under? .default =
        some (.done o.uncancelled.length) := if_pos (LogFilter.default_shows_program _)
    have text : Printed.text? .default o.jsonLogs (.entry (.done o.uncancelled.length)) =
        some ((Logged.done o.uncancelled.length).printed o.jsonLogs) := by
      rw [Printed.text?, last, Option.map_some]
    rw [Report.output, List.filterMap_append, List.filterMap_append, filterMap_text_entries,
      o.texts_chapters word length, List.filterMap_cons_some text, List.filterMap_nil]
  · rw [← logged, Logged.texts, List.length_append, List.length_map,
      length_shown (o.claimed_settled plain), o.settles.logs, o.told_plain plain, o.length_news,
      List.length_map, o.performed_eq, List.length_singleton]
    ring

theorem prints_all_requests_of_three : ∃ o : Options,
    Invocation.ofArguments {} ["--count", "3", "--steps=2", "--cancel-every", "2"] = .run o ∧
      o.report.ending = .exited 0 ∧
      o.report.lines =
        ["  0 sign_encrypt    cancelled before start",
          "  1 decrypt_verify  \x7b\"kind\":\"DecryptVerify\",\"status\":\"Ok\"," ++
            "\"log\":[\x7b\"level\":\"Info\",\"message\":\"saved 0x1\"\x7d]\x7d",
          "  2 save_keyring    cancelled before start"] ∧
      (Logged.texts .default o.jsonLogs (Logged.during o.settled.history)).length = 5 := by
  have valid : Invocation.ofArguments {} ["--count", "3", "--steps=2", "--cancel-every", "2"] =
      .run { count := 3, steps := 2, cancelEvery := 2 } := by decide +kernel
  obtain ⟨-, -, ending, printed, -, first, logs, -, whole, -, -, counted⟩ :=
    prints_all_requests valid rfl (by decide +kernel) fun _ => 0
  have lines : (List.range 3).map
      (Options.resultLine { count := 3, steps := 2, cancelEvery := 2 }) =
      ["  0 sign_encrypt    cancelled before start",
        "  1 decrypt_verify  \x7b\"kind\":\"DecryptVerify\",\"status\":\"Ok\"," ++
          "\"log\":[\x7b\"level\":\"Info\",\"message\":\"saved 0x1\"\x7d]\x7d",
        "  2 save_keyring    cancelled before start"] := by decide +kernel
  have entries := counted rfl
  rw [List.length_append, List.length_singleton, whole] at entries
  exact ⟨_, valid, ending, printed.trans lines, Nat.succ.inj entries⟩

/-- There is no room for one request more than the most, and the program breaks off. -/
theorem brokenOff_of_most_and_one : ∃ o : Options,
    Invocation.ofArguments {} ["--count", "384307168202282326", "--steps", "0",
      "--quiescence-ms", "1", "--cancel-every", "1"] = .run o ∧
    0 < o.config.quiescence ∧
    LogFilter.ofEnvironment? none = some .default ∧
    (Course.ofArguments {} ["--count", "384307168202282326", "--steps", "0",
      "--quiescence-ms", "1", "--cancel-every", "1"]).exitStatus = 101 := by
  refine ⟨{
    count := 384307168202282326
    steps := 0
    config := { quiescence := 1 }
    cancelEvery := 1 }, ?_, ?_, rfl, ?_⟩
  · decide +kernel
  · decide
  · decide +kernel

end Simulation
end SerialDispatch
