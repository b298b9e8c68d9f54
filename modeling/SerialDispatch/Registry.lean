import SerialDispatch.Request
import SerialDispatch.Result

/-!
# The registry of operations

One slot a kind, holding what makes an operation of that kind, if anything was registered for it.
Resolving a kind with an empty slot is refused by name.

Slots are read by `Registry.slot` and filled by `Registry.register`, each of which finds the slot of
a kind for itself; `Registry.slot_register` says that they find the same one.
-/
namespace SerialDispatch

/-- A registry of factories of type `φ`. -/
structure Registry (φ : Type) where
  signEncrypt : Option φ
  decryptVerify : Option φ
  saveKeyring : Option φ
  changeUnlock : Option φ
  revoke : Option φ
  certify : Option φ
  delete : Option φ
  promote : Option φ
  importKey : Option φ
  backup : Option φ
  upload : Option φ
  inputData : Option φ
  benchmark : Option φ
  keySync : Option φ

/-- The refusal of a kind for which nothing is registered. -/
structure Unrecognized where
  kind : Kind
  deriving DecidableEq, Repr

def Unrecognized.message (u : Unrecognized) : String :=
  "unrecognized operation request: " ++ u.kind.name

namespace Registry

variable {φ : Type}

/-- The registry that holds for every kind what is given for it. -/
def ofSlots (content : Kind → Option φ) : Registry φ where
  signEncrypt := content .signEncrypt
  decryptVerify := content .decryptVerify
  saveKeyring := content .saveKeyring
  changeUnlock := content .changeUnlock
  revoke := content .revoke
  certify := content .certify
  delete := content .delete
  promote := content .promote
  importKey := content .importKey
  backup := content .backup
  upload := content .upload
  inputData := content .inputData
  benchmark := content .benchmark
  keySync := content .keySync

def empty : Registry φ := ofSlots fun _ => none

/-- The content of the slot of a kind. -/
def slot (r : Registry φ) : Kind → Option φ
  | .signEncrypt => r.signEncrypt
  | .decryptVerify => r.decryptVerify
  | .saveKeyring => r.saveKeyring
  | .changeUnlock => r.changeUnlock
  | .revoke => r.revoke
  | .certify => r.certify
  | .delete => r.delete
  | .promote => r.promote
  | .importKey => r.importKey
  | .backup => r.backup
  | .upload => r.upload
  | .inputData => r.inputData
  | .benchmark => r.benchmark
  | .keySync => r.keySync

/-- Puts a factory into the slot of a kind, in the place of an earlier one if there is one. -/
def register (r : Registry φ) (k : Kind) (factory : φ) : Registry φ :=
  match k with
  | .signEncrypt => { r with signEncrypt := some factory }
  | .decryptVerify => { r with decryptVerify := some factory }
  | .saveKeyring => { r with saveKeyring := some factory }
  | .changeUnlock => { r with changeUnlock := some factory }
  | .revoke => { r with revoke := some factory }
  | .certify => { r with certify := some factory }
  | .delete => { r with delete := some factory }
  | .promote => { r with promote := some factory }
  | .importKey => { r with importKey := some factory }
  | .backup => { r with backup := some factory }
  | .upload => { r with upload := some factory }
  | .inputData => { r with inputData := some factory }
  | .benchmark => { r with benchmark := some factory }
  | .keySync => { r with keySync := some factory }

/-- The registry in which every kind has this factory. -/
def ofAll (factory : φ) : Registry φ := Kind.all.foldl (fun r k => r.register k factory) empty

def supports (r : Registry φ) (k : Kind) : Bool := (r.slot k).isSome

def resolve (r : Registry φ) (k : Kind) : Except Unrecognized φ :=
  match r.slot k with
  | some factory => .ok factory
  | none => .error ⟨k⟩

/-- The kinds that can be resolved, in their own order. -/
def supported (r : Registry φ) : List Kind := Kind.all.filter r.supports

def describe (r : Registry φ) : String :=
  "OperationRegistry \x7b registered: [" ++ ", ".intercalate (r.supported.map Kind.tag) ++ "] \x7d"

@[simp] theorem slot_ofSlots (content : Kind → Option φ) (k : Kind) :
    (ofSlots content).slot k = content k := by
  cases k <;> rfl

/-- A registration shows in the slot of its own kind, and in none of the thirteen others. -/
theorem slot_register (r : Registry φ) (j k : Kind) (factory : φ) :
    (r.register j factory).slot k = if j = k then some factory else r.slot k := by
  cases j <;> cases k <;> rfl

@[simp] theorem slot_empty (k : Kind) : (empty : Registry φ).slot k = none := slot_ofSlots _ k

/-- The kinds that are gone through have the factory, and the others what they had. -/
theorem slot_foldl_register (r : Registry φ) (kinds : List Kind) (factory : φ) (k : Kind) :
    (kinds.foldl (fun r k => r.register k factory) r).slot k =
      if k ∈ kinds then some factory else r.slot k := by
  induction kinds generalizing r with
  | nil => simp
  | cons j rest ih =>
    rw [List.foldl_cons, ih, slot_register]
    by_cases later : k ∈ rest
    · simp [later]
    · by_cases now : j = k
      · simp [now]
      · simp [later, now, Ne.symm now]

@[simp] theorem slot_ofAll (factory : φ) (k : Kind) : (ofAll factory).slot k = some factory := by
  rw [ofAll, slot_foldl_register, if_pos (Kind.mem_all k)]

end Registry

/-- What an operation finds around it: no token, or one with this flag. -/
structure Surroundings where
  cancelled : Option Bool
  deriving DecidableEq, Repr

/-- What is asked of a registry and of the operations it makes, in an environment of type `ε`. -/
inductive RegistryStep (φ : Type) (ε : Type := Surroundings) where
  | new
  | ofAll (factory : φ)
  | register (kind : Kind) (factory : φ)
  | supports (kind : Kind)
  | resolve (request : Request) (around : ε)

inductive RegistryReply where
  | done
  | supported (answer : Bool)
  | ran (result : Result)
  | unrecognized (refusal : Unrecognized)
  deriving DecidableEq, Repr

/-- The registry after a step and the answer, where `run` makes and runs an operation. -/
def Registry.step {φ ε : Type} (run : φ → ε → Request → Result) (r : Registry φ) :
    RegistryStep φ ε → Registry φ × RegistryReply
  | .new => (.empty, .done)
  | .ofAll factory => (.ofAll factory, .done)
  | .register k factory => (r.register k factory, .done)
  | .supports k => (r, .supported (r.supports k))
  | .resolve request around =>
    match r.resolve request.kind with
    | .ok factory => (r, .ran (run factory around request))
    | .error refusal => (r, .unrecognized refusal)

/-- An operation that reports what it was given, under a kind of its own. -/
structure Probe where
  tag : Kind
  deriving DecidableEq, Repr

def Probe.run (p : Probe) (around : Surroundings) (request : Request) : Result :=
  ⟨p.tag, if around.cancelled = some true then .cancelled else .ok,
    [⟨.info, request.kind.name ++ " [" ++ request.payload.data.listed ++ "]"⟩]⟩

end SerialDispatch
