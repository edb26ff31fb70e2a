/-!
# Cancellation tokens

Tokens form a forest: a token may be the child of another. Cancelling a token cancels everything
below it, and a child of a cancelled token is cancelled from the start.

Source: `child_token`, `cancel` and `is_cancelled` of tokio-util's `CancellationToken`.
-/

namespace TraceSearch

/-- The state of a token: the position of its parent and whether it is cancelled. -/
structure Token where
  parent : Option Nat
  cancelled : Bool
deriving DecidableEq

/-- Tokens by position, in the order of their creation, so that a parent stands before its
children. -/
structure TokenForest where
  tokens : List Token
deriving DecidableEq

namespace TokenForest

def empty : TokenForest := ⟨[]⟩

def isCancelled (f : TokenForest) (position : Nat) : Bool :=
  (f.tokens[position]?).any Token.cancelled

/-- Adds a token; its position is the number of tokens before. -/
def add (f : TokenForest) (parent : Option Nat) : TokenForest :=
  ⟨f.tokens ++ [⟨parent, parent.any f.isCancelled⟩]⟩

/-- Cancels every token whose position or parent is in `struck`, in the order of creation from
`position` on. -/
def cancelBelow (struck : List Nat) (position : Nat) : List Token → List Token
  | [] => []
  | t :: rest =>
    if struck.contains position || t.parent.any struck.contains then
      { t with cancelled := true } :: cancelBelow (position :: struck) (position + 1) rest
    else t :: cancelBelow struck (position + 1) rest

def cancel (f : TokenForest) (position : Nat) : TokenForest :=
  ⟨cancelBelow [position] 0 f.tokens⟩

end TokenForest

end TraceSearch
