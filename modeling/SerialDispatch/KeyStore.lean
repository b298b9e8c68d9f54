import SerialDispatch.OrderedMap
import SerialDispatch.Request

/-!
# The key store

Keyrings by key id. The store is a finite map: saving replaces, deleting tells whether there was
anything to delete, and listing is ascending.
-/
namespace SerialDispatch

structure Keyring where
  data : Bytes
  deriving DecidableEq, Repr

structure KeyStore where
  keyrings : OrderedMap UInt64 Keyring
  deriving DecidableEq

namespace KeyStore

def empty : KeyStore := ⟨.empty⟩

def save (s : KeyStore) (id : UInt64) (keyring : Keyring) : KeyStore :=
  ⟨s.keyrings.insert id keyring⟩

def load (s : KeyStore) (id : UInt64) : Option Keyring := s.keyrings.get? id

def contains (s : KeyStore) (id : UInt64) : Bool := (s.load id).isSome

def delete (s : KeyStore) (id : UInt64) : KeyStore := ⟨s.keyrings.erase id⟩

def ids (s : KeyStore) : List UInt64 := s.keyrings.keys

def size (s : KeyStore) : Nat := s.keyrings.size

def isEmpty (s : KeyStore) : Bool := s.keyrings.entries.isEmpty

end KeyStore

/-- What can be asked of a store. -/
inductive StoreStep where
  | save (id : UInt64) (keyring : Keyring)
  | load (id : UInt64)
  | delete (id : UInt64)
  | ids
  deriving DecidableEq, Repr

/-- The word that a step is known by. -/
def StoreStep.word : StoreStep → String
  | .save .. => "save"
  | .load _ => "load"
  | .delete _ => "delete"
  | .ids => "ids"

/-- What a store answers. -/
inductive StoreReply where
  | saved
  | loaded (keyring : Option Keyring)
  | deleted (found : Bool)
  | ids (list : List UInt64)
  deriving DecidableEq, Repr

/-- The store after a step, and its answer. -/
def KeyStore.step (s : KeyStore) : StoreStep → KeyStore × StoreReply
  | .save id keyring => (s.save id keyring, .saved)
  | .load id => (s, .loaded (s.load id))
  | .delete id => (s.delete id, .deleted (s.contains id))
  | .ids => (s, .ids s.ids)

end SerialDispatch
