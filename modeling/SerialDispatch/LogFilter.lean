import SerialDispatch.LogFilter.Directive

/-!
# Which log entries are shown

A filter is a list of directives. An entry is shown if its own origin lets it through: of the plain
directives that cover it, the one that tells most about it decides, and of two that tell the same
the later one. What no directive covers is not shown. An entry that lies within a span is also shown
if a scoped directive that is about this span lets it through; of two for the same spans the later
one counts.

A span that no scoped directive is about is itself shown only if its own origin lets it through.
-/
namespace SerialDispatch

structure LogFilter where
  directives : List Directive
  deriving DecidableEq, Repr

namespace LogFilter

/-- The parts between commas. -/
def parts : List Char → List (List Char)
  | [] => [[]]
  | ',' :: rest => [] :: parts rest
  | c :: rest =>
    match parts rest with
    | [] => [[c]]
    | part :: more => (c :: part) :: more

/-- What is shown where nothing is said. -/
def errorsOnly : LogFilter := ⟨[{ threshold := .least .error }]⟩

/-- A filter by its text, empty parts aside. The first part that is no directive spoils it all. -/
def ofText (text : String) : Except FilterFault LogFilter := do
  let directives ← ((parts text.toList).filter (!·.isEmpty)).mapM Directive.ofText
  return if directives.isEmpty then errorsOnly else ⟨directives⟩

/-- What both the service and the program itself find worth telling. -/
def default : LogFilter where
  directives := [{ target := "keyops_service".toList, threshold := .least .info },
    { target := "keyops_demo".toList, threshold := .least .info }]

/-- The filter that the environment asks for, or the default if there is none or it is malformed.
There is no filter if reading it breaks off. -/
def ofEnvironment? : Option String → Option LogFilter
  | none => some default
  | some text =>
    match ofText text with
    | .ok f => some f
    | .error .malformed => some default
    | .error .splitCharacter => none

/-- The directives about entries by themselves, those with a field behind the others. -/
def plain (f : LogFilter) : List Directive :=
  (f.directives.filter (!·.isScoped) ++ f.directives.filter (·.isScoped)).filter (·.isPlain)

/-- Of directives about the same things, the last ones. -/
def lastOnes : List Directive → List Directive
  | [] => []
  | d :: rest => if rest.any d.isAbout then lastOnes rest else d :: lastOnes rest

/-- The directives about what lies within spans. -/
def forSpans (f : LogFilter) : List Directive := lastOnes (f.directives.filter (·.isScoped))

/-- Of directives, the one that tells most; of two that tell the same, the later. -/
def decisive (directives : List Directive) : Option Directive :=
  directives.foldl
    (fun best d =>
      match best with
      | none => some d
      | some b => if b.yieldsTo d then some d else best)
    none

/-- Whether one of the directives that decides lets a severity through. -/
def decides (directives : List Directive) (severity : Severity) : Bool :=
  (decisive directives).any (·.threshold.admits severity)

/-- Whether an entry is shown wherever it lies. -/
def showsAlone (f : LogFilter) (c : Callsite) : Bool :=
  decides (f.plain.filter fun d => d.coversTarget c && d.coversField c) c.severity

/-- Whether spans are shown with the entries within them. Their fields do not matter. -/
def showsSpans (f : LogFilter) : Bool :=
  f.forSpans.any (·.coversSpans) ||
    decides (f.plain.filter (·.coversTarget Span.callsite)) Span.callsite.severity

/-- Whether an entry is shown that lies within this span. -/
def showsWithin (f : LogFilter) (s : Span) (c : Callsite) : Bool :=
  f.forSpans.any fun d => d.coversSpan s && d.threshold.admits c.severity

/-- Whether an entry is shown, and within which span. -/
def shows (f : LogFilter) (c : Callsite) (span : Option Span) : Bool :=
  f.showsAlone c || span.any (f.showsWithin · c)

/-- The span that is shown with an entry. -/
def shownSpan (f : LogFilter) (span : Option Span) : Option Span :=
  if f.showsSpans then span else none

end LogFilter
end SerialDispatch
