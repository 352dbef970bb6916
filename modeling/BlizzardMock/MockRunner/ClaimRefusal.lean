import BlizzardMock.Python.Json

namespace BlizzardMock.MockRunner

inductive ClaimRefusal | terminal | dependency | incompatible | conflict | paused | unexpected
  deriving DecidableEq

namespace ClaimRefusal

structure Model where
  required : List String
  optional : List String

/-- `_MODELS` -/
def model : ClaimRefusal → Option Model
  | .terminal => some ⟨["chunk_id", "status"], ["detail"]⟩
  | .dependency => some ⟨["chunk_id", "prerequisite_chunk_id"], ["detail"]⟩
  | .incompatible => some ⟨["chunk_id", "incompatible_runner_id"], ["detail", "reason"]⟩
  | .conflict => some ⟨["chunk_id", "held_by_runner_id"], ["detail"]⟩
  | .paused => some ⟨["chunk_id", "runner_id"], ["detail"]⟩
  | .unexpected => none

def isText : Json → Bool
  | .str _ => true
  | _ => false

/-- `model_validate`; a text field takes texts only. -/
def Model.validates (model : Model) (body : List (String × Json)) : Bool :=
  model.required.all (fun field => (Json.lookup field body).any isText) &&
    model.optional.all fun field => (Json.lookup field body).all isText

/-- `_TYPES` -/
def ofType : Nat → String → ClaimRefusal
  | 409, "urn:blizzard:problem:claim-terminal" => .terminal
  | 409, "urn:blizzard:problem:claim-not-ready" => .terminal
  | 409, "urn:blizzard:problem:claim-dependency" => .dependency
  | 409, "urn:blizzard:problem:claim-incompatible" => .incompatible
  | 409, "urn:blizzard:problem:claim-conflict" => .conflict
  | 403, "urn:blizzard:problem:claim-paused" => .paused
  | 403, "urn:blizzard:problem:claim-runner-retired" => .paused
  | 403, "urn:blizzard:problem:claim-runner-unregistered" => .paused
  | 403, "urn:blizzard:problem:claim-runner-version-refused" => .paused
  | _, _ => .unexpected

def has (field : String) (body : List (String × Json)) : Bool := (Json.lookup field body).isSome

def ofFields (status : Nat) (body : List (String × Json)) : ClaimRefusal :=
  if status = 403 then .paused
  else if has "status" body then .terminal
  else if has "prerequisite_chunk_id" body then .dependency
  else if has "incompatible_runner_id" body then .incompatible
  else .conflict

end ClaimRefusal

open ClaimRefusal

def classifyClaimRefusal (status : Nat) (body : List (String × Json)) : ClaimRefusal :=
  if status ≠ 403 ∧ status ≠ 409 then .unexpected
  else
    let refusal := match Json.lookup "type" body with
      | some (.str kind) => ofType status kind
      | some _ => .unexpected
      | none => ofFields status body
    match refusal.model with
    | some model => if model.validates body then refusal else .unexpected
    | none => .unexpected

end BlizzardMock.MockRunner
