import BlizzardMock.Data.Ledger
import BlizzardMock.MockHub.FrameLaws

namespace BlizzardMock.MockHub

open Method

def leaseEpoch (lease : LeaseKey) : String × String × Int := (lease.1, lease.2.1, lease.2.2.2)

namespace Books

def ledger (books : Books) : Ledger TranscriptKey String leaseEpoch where
  entries := books.transcriptOwners
  owners := books.epochOwners

section Take

variable (books : Books) (t r : String) (record : TranscriptRecord) (lane : TranscriptLane)

/-- Whether a push stores a record: its runner may ship it, its number is past the mark, and no
record was accepted under its key. -/
def Stores : Prop :=
  shipsFromLeaseHolder (books.epochOwner t record) r = true ∧ lane.mark < record.seq ∧
    books.transcriptKeyState.get? (record.key t) ≠ some .accepted

instance : Decidable (books.Stores t r record lane) := inferInstanceAs (Decidable (_ ∧ _))

def store : Books :=
  if books.OverCap t record then (books.own t r record).cap t record
  else (books.own t r record).retain t record (books.storedBytes t record.chunkId)

/-- No other runner's record stands in the lease a record goes to. -/
def Clear : Prop :=
  ∀ key other, books.transcriptOwners.get? key = some (record.leaseKey t, other) →
    key ≠ record.key t → other = r

variable {books t r record lane}

theorem takeRecord_books : (books.takeRecord t r record lane).1 =
    if books.Stores t r record lane then books.store t r record else books := by
  simp only [takeRecord]
  split
  case isTrue refused =>
    have idle : ¬ books.Stores t r record lane := fun stores => refused stores.1
    rw [if_neg idle]
  case isFalse ships =>
    split
    case isTrue seen =>
      have idle : ¬ books.Stores t r record lane := fun stores =>
        absurd stores.2.1 (not_lt.mpr seen)
      rw [if_neg idle]
      split <;> rfl
    case isFalse new =>
      split
      case isTrue accepted =>
        have idle : ¬ books.Stores t r record lane := fun stores => stores.2.2 accepted
        rw [if_neg idle]
      case isFalse fresh =>
        have stores : books.Stores t r record lane := ⟨not_not.mp ships, not_le.mp new, fresh⟩
        rw [if_pos stores, store]
        split <;> rfl

theorem takeRecord_ledger : (books.takeRecord t r record lane).1.ledger =
    if books.Stores t r record lane then books.ledger.file (record.key t) (record.leaseKey t) r
    else books.ledger := by
  rw [takeRecord_books]
  split
  case isTrue =>
    simp only [store]
    split <;> rfl
  case isFalse => rfl

theorem takeRecord_coherent (coherent : books.ledger.Coherent)
    (clear : books.Stores t r record lane → books.Clear t r record) :
    (books.takeRecord t r record lane).1.ledger.Coherent := by
  rw [takeRecord_ledger]
  split
  case isTrue stores =>
    refine coherent.file (fun key other held apart => clear stores key other held apart) ?_
    intro other owned
    have ships := stores.1
    simp only [shipsFromLeaseHolder] at ships
    change books.epochOwner t record = some other at owned
    rw [owned] at ships
    exact (of_decide_eq_true ships).symm
  case isFalse => exact coherent

variable (t r) in
def stored : List TranscriptRecord → Books × TranscriptLane → List (TranscriptRecord × Books)
  | [], _ => []
  | record :: rest, (books, lane) =>
    if books.Stores t r record lane then
      (record, books) :: stored rest (books.takeRecord t r record lane)
    else stored rest (books.takeRecord t r record lane)

theorem takeRecords_coherent {records : List TranscriptRecord} (push : Books × TranscriptLane)
    (coherent : push.1.ledger.Coherent)
    (clear : ∀ record books, (record, books) ∈ stored t r records push → books.Clear t r record) :
    (takeRecords t r records push).1.ledger.Coherent := by
  induction records generalizing push with
  | nil => exact coherent
  | cons record rest ih =>
    simp only [stored] at clear
    split at clear
    case isTrue stores =>
      refine ih _ (takeRecord_coherent coherent fun _ => clear record _ List.mem_cons_self) ?_
      exact fun other books mem => clear other books (List.mem_cons_of_mem _ mem)
    case isFalse idle =>
      exact ih _ (takeRecord_coherent coherent fun stores => absurd stores idle) clear

end Take

end Books

def Fact.MintsClear [Platform] (fact : Fact) (r : String) (hub : MockHubService) : Prop :=
  ∀ row chunk epoch, hub.store.runners.get? r = some row →
    hub.chunks.get? (chunkIdOf fact.payload) = some chunk → epochOf fact.payload = .ok epoch →
    hub.epochOwners.get? (row.tenantId, chunk.chunkId, epoch) = none →
    ∀ key lease other, hub.transcriptOwners.get? key = some (lease, other) →
      leaseEpoch lease = (row.tenantId, chunk.chunkId, epoch) → other = r

namespace MockHubService

section Ledger

abbrev ledger (hub : MockHubService) : Ledger TranscriptKey String leaseEpoch := hub.toBooks.ledger

variable {α : Type}

instance (m : HubM α) [h : Keeps besideChunks m] : Keeps ledger m :=
  h.comp m fun w => w.2.ledger

instance (m : HubM α) [h : Keeps besideQuestions m] : Keeps ledger m :=
  h.comp m fun w => w.2.ledger

instance (m : HubM α) [h : Keeps (fun hub : MockHubService => hub.work.besideHostMarks) m] :
    Keeps ledger m :=
  h.comp m fun w => w.books.ledger

variable [Platform]

theorem applyLeaseMinted_coherent {r : String} {fact : Fact} {hub : MockHubService}
    (coherent : hub.ledger.Coherent) (clear : fact.MintsClear r hub) :
    (Method.after (applyLeaseMinted r fact.payload) hub).ledger.Coherent := by
  simp only [applyLeaseMinted]
  rw [after_bind_of_ok _ rfl, after_bind_pure]
  change (Method.after (whenSome _ (hub.chunks.get? (chunkIdOf fact.payload))) hub).ledger.Coherent
  cases found : hub.chunks.get? (chunkIdOf fact.payload) with
  | none => exact coherent
  | some chunk =>
    cases coerced : epochOf fact.payload with
    | error e => exact coherent
    | ok epoch =>
      change (Method.after (advanceFence chunk epoch r) hub).ledger.Coherent
      cases known : hub.store.runners.get? r with
      | none =>
        rw [after_advanceFence_none known]
        exact coherent
      | some row =>
        rw [after_advanceFence_some known]
        refine coherent.claim fun unowned key lease other held here => ?_
        exact clear row chunk epoch known found coerced unowned key lease other held here

theorem applyFact_coherent {r : String} {fact : Fact} {hub : MockHubService}
    (coherent : hub.ledger.Coherent) (clear : fact.kind = leaseMinted → fact.MintsClear r hub) :
    (Method.after (applyFact r fact.kind fact.payload) hub).ledger.Coherent := by
  have kept (m : HubM Bool) [Keeps ledger m] : (Method.after m hub).ledger.Coherent := by
    rw [Keeps.keeps (f := ledger) (m := m) hub]
    exact coherent
  apply applyFact_cases (P := fun m => (Method.after m hub).ledger.Coherent)
  · intro kind
    exact applyLeaseMinted_coherent coherent (clear kind)
  · intro _
    exact kept _
  · intro _
    exact kept _
  · intro _
    exact kept _
  · intro m _
    exact kept m

theorem ingestFacts_coherent {r : String} {facts : List Fact} {hub : MockHubService}
    (coherent : hub.ledger.Coherent)
    (clear : ∀ fact t, (fact, t) ∈ (factLane r).pushReached facts (hub.factHighWater.getD r 0) hub →
      fact.kind = leaseMinted → fact.MintsClear r t) :
    (Method.after (ingestFacts r facts) hub).ledger.Coherent := by
  simp only [ingestFacts]
  rw [after_bind_of_ok _ rfl]
  have swept := (factLane r).loop_related_of_reached
    (R := fun s t : MockHubService => s.ledger.Coherent → t.ledger.Coherent) (fun _ => id)
    (fun h h' => h' ∘ h) ((factLane r).sorted facts) { mark := hub.factHighWater.getD r 0 } hub
    fun fact t mem coherent => applyFact_coherent coherent (clear fact t mem)
  rw [after_bind]
  split
  · exact swept coherent
  · exact swept coherent

omit [Platform] in
theorem ingestTranscripts_coherent {r : String} {records : List TranscriptRecord}
    {hub : MockHubService}
    (coherent : hub.ledger.Coherent)
    (clear : ∀ row, hub.store.runners.get? r = some row → ∀ record books,
      (record, books) ∈ Books.stored row.tenantId r (sortedRecords records)
        (hub.toBooks, { mark := hub.transcriptHighWater.getD r 0 }) →
      books.Clear row.tenantId r record) :
    (Method.after (ingestTranscripts r records) hub).ledger.Coherent := by
  cases known : hub.store.runners.get? r with
  | none =>
    rw [after_ingestTranscripts_none known]
    exact coherent
  | some row =>
    simp only [Method.after, run_ingestTranscripts known]
    exact Books.takeRecords_coherent (hub.toBooks, _) coherent (clear row known)

end Ledger

/-- The condition on the two lanes: no record is stored in a lease, and no unowned lease is minted,
where another runner's record stands. -/
def KeepsLeases [Platform] (op : Op) (hub : MockHubService) : Prop :=
  match op with
  | .ingestFacts r facts => ∀ fact t,
      (fact, t) ∈ (factLane r).pushReached facts (hub.factHighWater.getD r 0) hub →
      fact.kind = leaseMinted → fact.MintsClear r t
  | .ingestTranscripts r records => ∀ row, hub.store.runners.get? r = some row →
      ∀ record books, (record, books) ∈ Books.stored row.tenantId r (sortedRecords records)
        (hub.toBooks, { mark := hub.transcriptHighWater.getD r 0 }) →
      books.Clear row.tenantId r record
  | _ => True

/-- Every lease answers its one owner: the runner of all its records, and the epoch's where it has
both. -/
def LeasesOwned (hub : MockHubService) : Prop :=
  ∀ chunkId r nodeId epoch row, hub.store.runners.get? r = some row →
    ∃ owner, answer (leaseTranscriptOwner chunkId r nodeId epoch) hub = .ok owner ∧
      (∀ key other, hub.transcriptOwners.get? key =
        some ((row.tenantId, chunkId, nodeId, epoch), other) → owner = some other) ∧
      ∀ holder, hub.epochOwners.get? (row.tenantId, chunkId, epoch) = some holder →
        owner = none ∨ owner = some holder

theorem answer_leaseTranscriptOwner {hub : MockHubService} {r : String} {row : RunnerRow}
    (known : hub.store.runners.get? r = some row) (chunkId nodeId : String) (epoch : Int)
    (few : (hub.leaseOwners (row.tenantId, chunkId, nodeId, epoch)).length ≤ 1) :
    answer (leaseTranscriptOwner chunkId r nodeId epoch) hub =
      .ok (hub.leaseOwners (row.tenantId, chunkId, nodeId, epoch)).head? := by
  simp only [leaseTranscriptOwner]
  rw [answer_bind, answer_added_some known, after_added]
  change answer (refuseIf
    (1 < (hub.leaseOwners (row.tenantId, chunkId, nodeId, epoch)).length) _ >>= _) hub = _
  rw [answer_bind, refuseIf_ok.mpr (not_lt.mpr few)]
  rfl

theorem leasesOwned_of_coherent {hub : MockHubService} (coherent : hub.ledger.Coherent) :
    hub.LeasesOwned := by
  intro chunkId r nodeId epoch row known
  have few := coherent.holders_length_le (row.tenantId, chunkId, nodeId, epoch)
  refine ⟨_, answer_leaseTranscriptOwner known chunkId nodeId epoch few, ?_, ?_⟩
  · intro key other held
    exact coherent.head?_holders held
  · intro holder owned
    cases h : (hub.ledger.holders (row.tenantId, chunkId, nodeId, epoch)).head? with
    | none => exact .inl h
    | some other =>
      obtain ⟨_, held⟩ := Ledger.entry_of_head? h
      rw [← coherent.owned held owned]
      exact .inr h

variable [Platform]

theorem ledger_next {op : Op} (hub : MockHubService) (h : LeavesLanes op) :
    (hub.next op).ledger = hub.ledger :=
  have := keeps_besideChunks op h
  Keeps.keeps (f := ledger) (m := op.run) hub

theorem next_coherent {op : Op} {hub : MockHubService} (coherent : hub.ledger.Coherent)
    (keeps : KeepsLeases op hub) : (hub.next op).ledger.Coherent := by
  have kept (h : (hub.next op).ledger = hub.ledger) : (hub.next op).ledger.Coherent := by
    rw [h]
    exact coherent
  cases op with
  | ingestFacts r facts => exact ingestFacts_coherent coherent keeps
  | ingestTranscripts r records => exact ingestTranscripts_coherent coherent keeps
  | ingestHostFacts h facts =>
    exact kept (Keeps.keeps (f := ledger) (m := ingestHostFacts h facts) hub)
  | answerQuestion q given actor =>
    exact kept (Keeps.keeps (f := ledger) (m := answerQuestion q given actor) hub)
  | reset => exact Ledger.coherent_empty
  | _ => exact kept (ledger_next hub trivial)

/-- In a run of calls from a fresh hub that meet the condition, every lease has one owner. -/
theorem leases_single_owner (sources : Sources) (ops : List Op)
    (run : Meets KeepsLeases ops (fresh sources)) : (after ops (fresh sources)).LeasesOwned := by
  apply leasesOwned_of_coherent
  exact Machine.invariant (I := fun hub => hub.ledger.Coherent)
    (fun op hub coherent keeps => next_coherent coherent keeps) run Ledger.coherent_empty

end MockHubService

section

attribute [local instance] Platform.plain

open MockHubService

def shipped (segmentId : String) : TranscriptRecord where
  seq := 1
  segmentId := segmentId
  chunkId := "c"
  nodeId := "build"
  epoch := 1
  spawnGeneration := 0
  turnRangeStart := 0
  turns := []

def addRunner (r : String) : Op :=
  .registry (.addRunner r firstTenantId (some r) (some r) none none)

def twoShippers : MockHubService :=
  after [addRunner "r1", addRunner "r2", .ingestTranscripts "r1" [shipped "s1"],
    .ingestTranscripts "r2" [shipped "s2"]] (fresh .still)

theorem lease_of_two_runners :
    twoShippers.Reachable ∧
      answer (leaseTranscriptOwner "c" "r1" "build" 1) twoShippers =
        .error (.segmentsFromMultipleRunners ["r1", "r2"]) :=
  ⟨reachable_run _ _, rfl⟩

def mintedLate : List Op :=
  [addRunner "r1", .seedChunk
    { chunkId := some "c", entry := "build", nodes := .ofList [("build", {})] },
    .ingestTranscripts "r1" [shipped "s1"],
    .ingestFacts "r1" [⟨1, leaseMinted, [("chunk_id", .str "c"), ("epoch", .int 1)]⟩]]

theorem leases_single_owner_minted_late : (after mintedLate (fresh .still)).LeasesOwned := by
  apply leases_single_owner
  refine ⟨trivial, trivial, ?_, ?_, trivial⟩
  · intro row known record books mem key other held
    cases List.mem_singleton.mp mem
    cases held
  · intro fact t mem _ row chunk epoch known found coerced unowned key lease other held here
    cases List.mem_singleton.mp mem
    change ((∅ : Dict TranscriptKey (LeaseKey × String)).set ((shipped "s1").key firstTenantId)
      ((shipped "s1").leaseKey firstTenantId, "r1")).get? key = some (lease, other) at held
    rw [Dict.get?_set] at held
    split at held
    · cases held
      rfl
    · cases held

end

end BlizzardMock.MockHub
