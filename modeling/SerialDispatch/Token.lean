/-!
# Cancellation tokens

A token names a flag. Copies of a token name the same flag, so raising it through one of them is
seen through all; only the call that raises it is told so. Flags are never lowered.

`TokenTable` holds tokens in numbered variables, and `TokenTable.step` answers questions about them.
-/
namespace SerialDispatch

/-- A token is the number of its flag. -/
abbrev Token : Type := Nat

structure TokenPool where
  flags : List Bool
  deriving DecidableEq, Repr

namespace TokenPool

def empty : TokenPool := ⟨[]⟩

/-- The token that the next call of `grow` brings in. -/
def fresh (p : TokenPool) : Token := p.flags.length

def grow (p : TokenPool) : TokenPool := ⟨p.flags ++ [false]⟩

def isCancelled (p : TokenPool) (t : Token) : Bool := p.flags[t]?.getD false

def cancel (p : TokenPool) (t : Token) : TokenPool := ⟨p.flags.set t true⟩

end TokenPool

/-- Tokens in numbered variables. -/
structure TokenTable where
  pool : TokenPool
  /-- The token in each variable. -/
  held : List Token
  deriving DecidableEq, Repr

inductive TokenStep where
  | new
  | clone (v : Nat)
  | cancel (v : Nat)
  | check (v : Nat)
  /-- Asks in the place of an operation, which may have been given no token. -/
  | checkWithin (v : Option Nat)
  deriving DecidableEq, Repr

inductive TokenReply where
  | held (v : Nat)
  | flag (value : Bool)
  | unknownVariable
  deriving DecidableEq, Repr

namespace TokenTable

def empty : TokenTable := ⟨.empty, []⟩

def isCancelled (t : TokenTable) (v : Nat) : Bool :=
  match t.held[v]? with
  | some token => t.pool.isCancelled token
  | none => false

/-- What every variable shows. -/
def state (t : TokenTable) : List Bool := t.held.map t.pool.isCancelled

def step (t : TokenTable) : TokenStep → TokenTable × TokenReply
  | .new => (⟨t.pool.grow, t.held ++ [t.pool.fresh]⟩, .held t.held.length)
  | .clone v =>
    match t.held[v]? with
    | some token => ({ t with held := t.held ++ [token] }, .held t.held.length)
    | none => (t, .unknownVariable)
  | .cancel v =>
    match t.held[v]? with
    | some token => ({ t with pool := t.pool.cancel token }, .flag !(t.pool.isCancelled token))
    | none => (t, .unknownVariable)
  | .check v =>
    match t.held[v]? with
    | some token => (t, .flag (t.pool.isCancelled token))
    | none => (t, .unknownVariable)
  | .checkWithin none => (t, .flag false)
  | .checkWithin (some v) =>
    match t.held[v]? with
    | some token => (t, .flag (t.pool.isCancelled token))
    | none => (t, .unknownVariable)

end TokenTable
end SerialDispatch
