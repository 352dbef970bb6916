import BlizzardMock.Data.Dict
import BlizzardMock.Python.Json

namespace BlizzardMock

structure Lever where
  kind : String
  chunkId : Option String := none
  remaining : Option Int := none
  payload : List (String × Json) := []

namespace Lever

def scopeKey (lever : Lever) : String :=
  -- an empty chunk id is falsy, so it keys like an absent one
  let scope := match lever.chunkId with
    | none => "*"
    | some c => if c = "" then "*" else c
  lever.kind ++ "#" ++ scope

def Matches (lever : Lever) (chunkId : Option String) : Prop :=
  lever.chunkId = none ∨ lever.chunkId = chunkId

instance (lever : Lever) (chunkId : Option String) : Decidable (lever.Matches chunkId) :=
  inferInstanceAs (Decidable (_ ∨ _))

end Lever

abbrev InMemoryLeverStore := Dict String Lever

namespace InMemoryLeverStore

def arm (levers : InMemoryLeverStore) (lever : Lever) : InMemoryLeverStore :=
  levers.set lever.scopeKey lever

def clear (levers : InMemoryLeverStore) (kind : String) (chunkId : Option String) :
    InMemoryLeverStore :=
  levers.erase (Lever.scopeKey { kind := kind, chunkId := chunkId })

def find (levers : InMemoryLeverStore) (kind : String) (chunkId : Option String) : Option Lever :=
  levers.values.find? fun lever => lever.kind = kind ∧ lever.Matches chunkId

/-- Decrement a self-expiring lever's `remaining`, clearing it at zero. -/
def consume (levers : InMemoryLeverStore) (lever : Lever) : InMemoryLeverStore :=
  match lever.remaining with
  | none => levers
  | some n =>
    if n - 1 ≤ 0 then levers.erase lever.scopeKey
    else levers.set lever.scopeKey { lever with remaining := some (n - 1) }

end InMemoryLeverStore

end BlizzardMock
