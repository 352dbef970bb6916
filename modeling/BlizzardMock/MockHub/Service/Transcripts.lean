import BlizzardMock.MockHub.Service.Intake

namespace BlizzardMock.MockHub

open Method

def transcriptRecordMaxBytes : Int := 10 * 1024 * 1024
def transcriptChunkBudgetMaxBytes : Int := 64 * 1024 * 1024

namespace TranscriptRecord

variable (record : TranscriptRecord)

def key (tenantId : String) : TranscriptKey := (tenantId, record.segmentId, record.turnRangeStart)

def leaseKey (tenantId : String) : LeaseKey :=
  (tenantId, record.chunkId, record.nodeId, record.epoch)

def size : Int := (Json.arr (record.turns.map .obj)).dumps.length

def withoutTurns : TranscriptRecord := { record with turns := [] }

end TranscriptRecord

structure TranscriptLane where
  mark : Int
  applied : List Int := []
  alreadyApplied : List Int := []
  capped : List Int := []
  refused : List Int := []
  deriving DecidableEq

namespace Books

variable (books : Books)

def cap (tenantId : String) (record : TranscriptRecord) : Books :=
  { books with
    transcriptKeyState := books.transcriptKeyState.set (record.key tenantId) .rejected
    transcriptRejected := books.transcriptRejected.set (record.key tenantId) record.withoutTurns }

/-- The writes of an accepted record, `stored` bytes being held for its chunk before it. -/
def retain (tenantId : String) (record : TranscriptRecord) (stored : Int) : Books :=
  let lease := record.leaseKey tenantId
  { books with
    transcriptKeyState := books.transcriptKeyState.set (record.key tenantId) .accepted
    transcriptRejected := books.transcriptRejected.erase (record.key tenantId)
    transcriptChunkBytes :=
      books.transcriptChunkBytes.set (tenantId, record.chunkId) (stored + record.size)
    transcriptSegments := books.transcriptSegments.set lease
      ((books.transcriptSegments.getD lease ∅).set (record.key tenantId) record) }

def own (tenantId runnerId : String) (record : TranscriptRecord) : Books :=
  { books with transcriptOwners :=
      books.transcriptOwners.set (record.key tenantId) (record.leaseKey tenantId, runnerId) }

def storedBytes (tenantId chunkId : String) : Int :=
  books.transcriptChunkBytes.getD (tenantId, chunkId) 0

def OverCap (tenantId : String) (record : TranscriptRecord) : Prop :=
  transcriptRecordMaxBytes < record.size ∨
    transcriptChunkBudgetMaxBytes < books.storedBytes tenantId record.chunkId + record.size

instance (tenantId : String) (record : TranscriptRecord) :
    Decidable (books.OverCap tenantId record) := inferInstanceAs (Decidable (_ ∨ _))

def epochOwner (tenantId : String) (record : TranscriptRecord) : Option String :=
  books.epochOwners.get? (tenantId, record.chunkId, record.epoch)

def takeRecord (tenantId runnerId : String) (record : TranscriptRecord) (lane : TranscriptLane) :
    Books × TranscriptLane :=
  let seq := record.seq
  let keyState := books.transcriptKeyState.get? (record.key tenantId)
  if ¬ shipsFromLeaseHolder (books.epochOwner tenantId record) runnerId then
    (books, { lane with refused := lane.refused ++ [seq], mark := max lane.mark seq })
  else if seq ≤ lane.mark then
    -- a replay of a decided seq reports its own outcome
    if keyState = some .rejected then (books, { lane with capped := lane.capped ++ [seq] })
    else (books, { lane with alreadyApplied := lane.alreadyApplied ++ [seq] })
  else if keyState = some .accepted then
    (books, { lane with applied := lane.applied ++ [seq], mark := max lane.mark seq })
  else
    let owned := books.own tenantId runnerId record
    if books.OverCap tenantId record then
      (owned.cap tenantId record,
        { lane with capped := lane.capped ++ [seq], mark := max lane.mark seq })
    else
      (owned.retain tenantId record (books.storedBytes tenantId record.chunkId),
        { lane with applied := lane.applied ++ [seq], mark := max lane.mark seq })

def takeRecords (tenantId runnerId : String) :
    List TranscriptRecord → Books × TranscriptLane → Books × TranscriptLane
  | [], push => push
  | record :: rest, (books, lane) =>
    takeRecords tenantId runnerId rest (books.takeRecord tenantId runnerId record lane)

def leaseOwners (lease : LeaseKey) : List String :=
  ((books.transcriptOwners.values.filter (·.1 = lease)).map Prod.snd).eraseDups

end Books

namespace MockHubService

def sortedRecords (records : List TranscriptRecord) : List TranscriptRecord :=
  records.insertionSort fun a b => a.seq ≤ b.seq

def ingestTranscripts (runnerId : String) (records : List TranscriptRecord) :
    HubM TranscriptSegmentAck := do
  let row ← added runnerId
  let books ← readBooks id
  let mark := books.transcriptHighWater.getD runnerId 0
  let push := Books.takeRecords row.tenantId runnerId (sortedRecords records)
    (books, { mark := mark })
  let lane := push.2
  setBooks fun _ => { push.1 with
    transcriptHighWater := push.1.transcriptHighWater.set runnerId lane.mark }
  return ⟨runnerId, lane.mark, lane.applied, lane.alreadyApplied, lane.capped, lane.refused⟩

def leaseTranscriptOwner (chunkId runnerId nodeId : String) (epoch : Int) :
    HubM (Option String) := do
  let row ← added runnerId
  let owners ← readBooks (·.leaseOwners (row.tenantId, chunkId, nodeId, epoch))
  refuseIf (1 < owners.length) (.segmentsFromMultipleRunners (owners.insertionSort (· ≤ ·)))
  return owners.head?

/-- `_order_key`, compared as a tuple. -/
def recordBefore (a b : TranscriptRecord) : Bool :=
  a.spawnGeneration < b.spawnGeneration ∨ (a.spawnGeneration = b.spawnGeneration ∧
    (a.segmentId < b.segmentId ∨ (a.segmentId = b.segmentId ∧ a.turnRangeStart ≤ b.turnRangeStart)))

def renumbered (turn : List (String × Json)) (i : Nat) : List (String × Json) :=
  Dict.assign "index" (.int i) turn

def leaseTranscript (chunkId runnerId nodeId : String) (epoch : Int) :
    HubM LeaseTranscriptView := do
  let row ← added runnerId
  let books ← readBooks id
  let lease : LeaseKey := (row.tenantId, chunkId, nodeId, epoch)
  let records := (books.transcriptSegments.getD lease ∅).values
  let rejected := (books.transcriptRejected.entries.filter fun e =>
    (books.transcriptOwners.get? e.1).map Prod.fst = some lease).map Prod.snd
  let superseded := (records ++ rejected).filterMap (·.supersedes)
  let visible := records.filter fun r => r.segmentId ∉ superseded
  let truncated := rejected.any (fun r => r.segmentId ∉ superseded) || visible.any
    (·.recordTruncated)
  let turns := (visible.insertionSort fun a b => recordBefore a b).flatMap (·.turns)
  return ⟨chunkId, nodeId, epoch, truncated, turns.mapIdx fun i turn => renumbered turn i⟩

end MockHubService

end BlizzardMock.MockHub
