import BlizzardMock.MockHub.Api

namespace BlizzardMock.MockHub.Api

/-- The arguments of `_claim_refusal`. -/
structure ClaimProblem where
  status : Nat
  kind : String
  title : String
  content : List (String × Json)

section

variable [Unicode]

def runnerProblem (kind title chunkId runnerId detail : String) : ClaimProblem :=
  ⟨403, kind, title, [("chunk_id", .str chunkId), ("runner_id", .str runnerId),
    ("detail", .str detail)]⟩

def statusProblem (kind title chunkId : String) (status : ChunkStatus) (detail : String) :
    ClaimProblem :=
  ⟨409, kind, title, [("chunk_id", .str chunkId), ("status", .str status.value),
    ("detail", .str detail)]⟩

/-- The handlers of `claim_route`; what none of them takes is an error of the server, without a
body. -/
def claimProblem (chunkId : String) (error : HubError) : Option ClaimProblem :=
  match error with
  | .claimDeniedUnregistered r =>
    some (runnerProblem "claim-runner-unregistered" "Claim denied: unregistered runner"
      chunkId r error.text)
  | .claimDeniedPaused r =>
    some (runnerProblem "claim-paused" "Claim denied: paused runner" chunkId r
      "runner is paused at the hub")
  | .claimDeniedTerminal _ status =>
    some (statusProblem "claim-terminal" "Claim denied: terminal chunk" chunkId status
      "chunk is terminal")
  | .claimConflict heldBy =>
    some ⟨409, "claim-conflict", "Claim conflict",
      [("chunk_id", .str chunkId), ("held_by_runner_id", .str heldBy),
        ("detail", .str "chunk already claimed")]⟩
  | .claimDeniedNotReady _ status =>
    some (statusProblem "claim-not-ready" "Claim denied: chunk not ready" chunkId status error.text)
  | .dependencyUnmet prerequisite =>
    some ⟨409, "claim-dependency", "Claim denied: unmet prerequisite",
      [("chunk_id", .str chunkId), ("prerequisite_chunk_id", .str prerequisite),
        ("detail", .str "chunk depends on an unmet prerequisite")]⟩
  | .claimIncompatible r reason detail =>
    some ⟨409, "claim-incompatible", "Claim denied: incompatible runner",
      [("chunk_id", .str chunkId), ("incompatible_runner_id", .str r), ("detail", .str detail),
        ("reason", .str reason)]⟩
  | .chunkNotFound _ =>
    some ⟨404, "chunk-not-found", "Chunk not found", [("detail", .str error.text)]⟩
  | .claimRunnerLeverRefusal kind r _ =>
    if kind = HubLever.claimRunnerRetired.value then
      some (runnerProblem "claim-runner-retired" "Claim denied: retired runner"
        chunkId r error.text)
    else some (runnerProblem
      "claim-runner-version-refused" "Claim denied: runner version refused" chunkId r
      error.text)
  | .runnerRetired r _ =>
    some (runnerProblem "claim-runner-retired" "Claim denied: retired runner" chunkId r error.text)
  | _ => none

def claimInstance : String := "/api/fleet/routes"

/-- `_claim_refusal`: the content alone where the lever of the older shape is armed.  No field of a
content is one of the three before it. -/
def ClaimProblem.body (problem : ClaimProblem) (legacy : Bool) : List (String × Json) :=
  if legacy then problem.content
  else [("type", .str ("urn:blizzard:problem:" ++ problem.kind)), ("title", .str problem.title),
      ("instance", .str claimInstance)] ++ problem.content ++
    if problem.status = 403 ∨ problem.status = 404 then [("status", .int problem.status)] else []

def claimReply (legacy : Bool) (chunkId : String) : HubError → Option (Nat × List (String × Json))
  | .pinnedGraphMissing =>
    some (500, [("type", .str "urn:blizzard:problem:pinned-graph-missing"),
      ("title", .str "Pinned graph missing"),
      ("detail", .str "chunk's pinned graph is missing"), ("instance", .str claimInstance),
        ("status", .int 500)])
  | error => (claimProblem chunkId error).map fun problem => (problem.status, problem.body legacy)

theorem claimReply_status {legacy : Bool} {c : String} {error : HubError}
    {reply : Nat × List (String × Json)}
    (h : claimReply legacy c error = some reply) : reply.1 = (claimRefusal error).1 := by
  cases error
  case claimRunnerLeverRefusal kind r detail =>
    simp only [claimReply, claimProblem] at h
    split at h <;> cases h <;> rfl
  all_goals cases h
  all_goals rfl

end

end BlizzardMock.MockHub.Api
