import SerialDispatch.Layout

/-!
# Kinds of operations

There are fourteen kinds. A kind has a name (`sign_encrypt`), which is shown to people and tags
requests, and a tag (`SignEncrypt`), which stands for it in results. Only some kinds hand a
cancellation token to their operation.
-/
namespace SerialDispatch

inductive Kind where
  | signEncrypt
  | decryptVerify
  | saveKeyring
  | changeUnlock
  | revoke
  | certify
  | delete
  | promote
  | importKey
  | backup
  | upload
  | inputData
  | benchmark
  | keySync
  deriving DecidableEq, Repr

namespace Kind

def all : List Kind :=
  [signEncrypt, decryptVerify, saveKeyring, changeUnlock, revoke, certify, delete, promote,
    importKey, backup, upload, inputData, benchmark, keySync]

def index : Kind → Nat
  | signEncrypt => 0
  | decryptVerify => 1
  | saveKeyring => 2
  | changeUnlock => 3
  | revoke => 4
  | certify => 5
  | delete => 6
  | promote => 7
  | importKey => 8
  | backup => 9
  | upload => 10
  | inputData => 11
  | benchmark => 12
  | keySync => 13

def name : Kind → String
  | signEncrypt => "sign_encrypt"
  | decryptVerify => "decrypt_verify"
  | saveKeyring => "save_keyring"
  | changeUnlock => "change_unlock"
  | revoke => "revoke"
  | certify => "certify"
  | delete => "delete"
  | promote => "promote"
  | importKey => "import"
  | backup => "backup"
  | upload => "upload"
  | inputData => "input_data"
  | benchmark => "benchmark"
  | keySync => "key_sync"

def tag : Kind → String
  | signEncrypt => "SignEncrypt"
  | decryptVerify => "DecryptVerify"
  | saveKeyring => "SaveKeyring"
  | changeUnlock => "ChangeUnlock"
  | revoke => "Revoke"
  | certify => "Certify"
  | delete => "Delete"
  | promote => "Promote"
  | importKey => "Import"
  | backup => "Backup"
  | upload => "Upload"
  | inputData => "InputData"
  | benchmark => "Benchmark"
  | keySync => "KeySync"

/-- Whether an operation of this kind is given a cancellation token. -/
def isCancellable : Kind → Bool
  | signEncrypt | saveKeyring | certify | promote | importKey | backup | upload | keySync => true
  | decryptVerify | changeUnlock | revoke | delete | inputData | benchmark => false

theorem mem_all (k : Kind) : k ∈ all := by cases k <;> decide

/-- The kinds that occur in a list, in their own order and without repeats. -/
def sorted (kinds : List Kind) : List Kind := all.filter fun k => kinds.contains k

/-- The name laid out in a column. -/
def shown (k : Kind) (layout : Layout) : String := layout.apply k.name

end Kind
end SerialDispatch
