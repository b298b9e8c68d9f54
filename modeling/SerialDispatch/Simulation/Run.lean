import SerialDispatch.Dispatcher.Run
import SerialDispatch.Simulation.KeyId
import SerialDispatch.Simulation.Options

/-!
# The requests of a simulation

A simulation makes requests, of every kind in turn, and cancels some of them at once. Every
operation steps along, tells its progress, stops when it is cancelled, and saves a keyring in the
end under the key id that its payload spells.
-/
namespace SerialDispatch.Simulation

/-- The kinds in turn, again and again. -/
def kindOf (i : Nat) : Kind := Kind.all.get ⟨i % Kind.all.length, Nat.mod_lt _ (by decide)⟩

/-- The payload of request `i` spells its number. -/
def requestOf (i : Nat) : Request := ⟨kindOf i, ⟨.ofWord (UInt64.ofNat i)⟩⟩

/-- The label of all progress. -/
def label : String := "progress.working"

/-- A word in hexadecimal digits behind `0x`. -/
def hex (n : UInt64) : String := "0x" ++ String.ofList (Nat.toDigits 16 n.toNat)

/-- The result log of an operation that came to its end. -/
def savedLog (id : UInt64) : List LogEntry := [⟨.info, "saved " ++ hex id⟩]

namespace Options

/-- One step of an operation, which is cancelled only between steps. -/
def stepBody (o : Options) (i : Nat) : List BodyStep :=
  [.stopIfCancelled i, .progress ⟨some label, UInt32.ofNat i, o.steps⟩, .work o.stepTime]

/-- What an operation does when it has taken all its steps. -/
def saveBody (o : Options) (request : Request) : List BodyStep :=
  let id := request.payload.data.keyId
  [.prevent, .store (.save id ⟨.ofString request.kind.name⟩),
    .progress ⟨some label, o.steps, o.steps⟩, .finish none .ok (savedLog id)]

def body (o : Options) (request : Request) : List BodyStep :=
  (List.range o.steps.toNat).flatMap o.stepBody ++ o.saveBody request

theorem totalCost_flatMap_stepBody (o : Options) (is : List Nat) :
    BodyStep.totalCost (is.flatMap o.stepBody) = is.length * 4 := by
  induction is with
  | nil => rfl
  | cons i rest ih =>
    simp only [BodyStep.totalCost] at ih
    simp only [BodyStep.totalCost, List.flatMap_cons, List.map_append, total_append, ih,
      List.length_cons]
    simp only [stepBody, List.map_cons, List.map_nil, BodyStep.cost, total]
    omega

theorem totalCost_body (o : Options) (request : Request) :
    BodyStep.totalCost (o.body request) = o.steps.toNat * 4 + 4 := by
  have h := o.totalCost_flatMap_stepBody (List.range o.steps.toNat)
  simp only [BodyStep.totalCost, List.length_range] at h
  simp only [BodyStep.totalCost, body, List.map_append, total_append, h]
  rfl

def factory (o : Options) : Factory where
  body := o.body
  bound := o.steps.toNat * 4 + 4
  cost_le request := Nat.le_of_eq (o.totalCost_body request)

/-- Whether request `i` is cancelled at once. -/
def cancels (o : Options) (i : Nat) : Bool := o.cancelEvery ≠ 0 && i % o.cancelEvery = 0

def setup (o : Options) : Setup := ⟨o.config, .ofAll o.factory, [], o.count⟩

/-- Makes request `i`. -/
def requestSteps (o : Options) (i : Nat) : List CallerStep :=
  .command (.start (requestOf i) .default .needed none []) ::
    (if o.cancels i then [.command (.cancel i)] else [])

def script (o : Options) : List CallerStep := (List.range o.count).flatMap o.requestSteps

/-- All requests made and finished. -/
def settled (o : Options) : Session := (Session.start.runScript o.setup o.script).run o.setup none

end Options
end SerialDispatch.Simulation
