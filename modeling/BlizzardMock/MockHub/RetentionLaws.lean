import BlizzardMock.MockHub.LeaseLaws

/-! The transcript store: what its five maps say of a key, and the bytes credited to a chunk. -/

namespace BlizzardMock.MockHub

open Method

namespace Books

variable (books : Books)

def retained (lease : LeaseKey) (key : TranscriptKey) : Option TranscriptRecord :=
  (books.transcriptSegments.getD lease ∅).get? key

def retainedBytes (tenantId chunkId : String) : Int :=
  books.transcriptSegments.total fun lease records =>
    if lease.1 = tenantId ∧ lease.2.1 = chunkId then records.total fun _ record =>
      record.size else 0

def shelves (books : Books) : Books where
  transcriptOwners := books.transcriptOwners
  transcriptChunkBytes := books.transcriptChunkBytes
  transcriptKeyState := books.transcriptKeyState
  transcriptRejected := books.transcriptRejected
  transcriptSegments := books.transcriptSegments

def Filed (key : TranscriptKey) : Prop :=
  match books.transcriptKeyState.get? key with
  | none => books.transcriptRejected.get? key = none ∧ ∀ lease, books.retained lease key = none
  | some .rejected =>
    (books.transcriptRejected.get? key).isSome ∧ ∀ lease, books.retained lease key = none
  | some .accepted => books.transcriptRejected.get? key = none ∧
    ∃ lease runnerId, books.transcriptOwners.get? key = some (lease, runnerId) ∧
      ∀ other, (books.retained other key).isSome ↔ other = lease

structure Kept : Prop where
  filed (key : TranscriptKey) : books.Filed key
  credited (t c : String) : books.storedBytes t c = books.retainedBytes t c
  within (t c : String) : books.storedBytes t c ≤ transcriptChunkBudgetMaxBytes
  capped {lease : LeaseKey} {key : TranscriptKey} {record : TranscriptRecord} :
    books.retained lease key = some record → record.size ≤ transcriptRecordMaxBytes
  placed {lease : LeaseKey} {key : TranscriptKey} {record : TranscriptRecord} :
    books.retained lease key = some record →
      record.key lease.1 = key ∧ record.leaseKey lease.1 = lease
  named {key : TranscriptKey} {record : TranscriptRecord} :
    books.transcriptRejected.get? key = some record → record.key key.1 = key

theorem kept_empty : Kept {} where
  filed _ := ⟨rfl, fun _ => rfl⟩
  credited _ _ := rfl
  within _ _ := show (0 : Int) ≤ transcriptChunkBudgetMaxBytes by decide
  capped h := by cases h
  placed h := by cases h
  named h := by cases h

section Take

variable {books} {t r : String} {record : TranscriptRecord} {lane : TranscriptLane}

theorem Kept.unretained (kept : books.Kept) {key : TranscriptKey}
    (fresh : books.transcriptKeyState.get? key ≠ some .accepted) (lease : LeaseKey) :
    books.retained lease key = none := by
  have filed := kept.filed key
  simp only [Filed] at filed
  cases state : books.transcriptKeyState.get? key with
  | none =>
    rw [state] at filed
    exact filed.2 lease
  | some decided =>
    cases decided with
    | accepted => exact absurd state fresh
    | rejected =>
      rw [state] at filed
      exact filed.2 lease

theorem kept_cap (kept : books.Kept) (stores : books.Stores t r record lane) :
    ((books.own t r record).cap t record).Kept where
  filed key := by
    by_cases here : key = record.key t
    · simp only [Filed, cap, own, here, Dict.get?_set_self]
      exact ⟨rfl, kept.unretained stores.2.2⟩
    · have filed := kept.filed key
      simp only [Filed, cap, own, Dict.get?_set_of_ne here]
      exact filed
  credited := kept.credited
  within := kept.within
  capped := kept.capped
  placed := kept.placed
  named {key other} held := by
    simp only [cap, own, Dict.get?_set] at held
    split at held
    case isTrue here =>
      cases held
      rw [here]
      rfl
    case isFalse => exact kept.named held

theorem retained_retain (stored : Int) (lease : LeaseKey) (key : TranscriptKey) :
    ((books.own t r record).retain t record stored).retained lease key =
      if lease = record.leaseKey t ∧ key = record.key t then some record
      else books.retained lease key := by
  simp only [retained, retain, own]
  by_cases at' : lease = record.leaseKey t
  · rw [at', Dict.getD_set_self, Dict.get?_set]
    simp
  · rw [Dict.getD_set_of_ne at']
    simp [at']

theorem retainedBytes_retain (fresh : ∀ lease, books.retained lease (record.key t) = none)
    (stored : Int) (t' c : String) :
    ((books.own t r record).retain t record stored).retainedBytes t' c =
      books.retainedBytes t' c + if t = t' ∧ record.chunkId = c then record.size else 0 := by
  have moved := Dict.total_set books.transcriptSegments (fun lease records =>
    if lease.1 = t' ∧ lease.2.1 = c then records.total fun _ record => record.size else 0)
    (record.leaseKey t)
      ((books.transcriptSegments.getD (record.leaseKey t) ∅).set (record.key t) record)
  have grown := Dict.total_set (books.transcriptSegments.getD (record.leaseKey t) ∅)
    (fun _ record => record.size) (record.key t) record
  have absent : (books.transcriptSegments.getD (record.leaseKey t) ∅).get? (record.key t) = none :=
    fresh (record.leaseKey t)
  simp only [absent, Option.elim_none] at grown
  simp only [retainedBytes, retain, own]
  by_cases here : t = t' ∧ record.chunkId = c
  · have here' : (record.leaseKey t).1 = t' ∧ (record.leaseKey t).2.1 = c := here
    simp only [if_pos here'] at moved
    rw [if_pos here]
    cases held : books.transcriptSegments.get? (record.leaseKey t) with
    | none =>
      simp only [held, Dict.getD, Option.getD_none, Option.elim_none, Dict.total_empty]
        at moved grown ⊢
      omega
    | some records =>
      simp only [held, Dict.getD, Option.getD_some, Option.elim_some] at moved grown ⊢
      omega
  · have here' : ¬ ((record.leaseKey t).1 = t' ∧ (record.leaseKey t).2.1 = c) := here
    simp only [if_neg here'] at moved
    rw [if_neg here]
    cases held : books.transcriptSegments.get? (record.leaseKey t) with
    | none =>
      simp only [held, Option.elim_none] at moved ⊢
      omega
    | some records =>
      simp only [held, Option.elim_some] at moved ⊢
      omega

theorem storedBytes_retain (stored : Int) (t' c : String) :
    ((books.own t r record).retain t record stored).storedBytes t' c =
      if t = t' ∧ record.chunkId = c then stored + record.size else books.storedBytes t' c := by
  simp only [storedBytes, retain, own, Dict.getD, Dict.get?_set]
  by_cases here : t = t' ∧ record.chunkId = c
  · simp [here.1, here.2]
  · have apart : ¬ ((t', c) = (t, record.chunkId)) := by
      intro same
      cases same
      exact here ⟨rfl, rfl⟩
    simp only [if_neg apart, if_neg here]

theorem kept_retain (kept : books.Kept) (stores : books.Stores t r record lane)
    (under : ¬ books.OverCap t record) :
    ((books.own t r record).retain t record (books.storedBytes t record.chunkId)).Kept := by
  have fresh := kept.unretained stores.2.2
  have fits := not_or.mp under
  constructor
  case filed =>
    intro key
    by_cases here : key = record.key t
    · simp only [Filed, retained_retain]
      simp only [retain, own, here, Dict.get?_set_self, Dict.get?_erase, if_true, and_true]
      refine ⟨trivial, _, _, rfl, fun other => ?_⟩
      split
      case isTrue same => simp [same]
      case isFalse apart => simp [fresh, apart]
    · have filed := kept.filed key
      simp only [Filed, retained_retain, here, and_false, if_false]
      simp only [retain, own, Dict.get?_set_of_ne here, Dict.get?_erase, if_neg here]
      exact filed
  case credited =>
    intro t' c
    rw [storedBytes_retain, retainedBytes_retain fresh, ← kept.credited t' c]
    by_cases here : t = t' ∧ record.chunkId = c
    · simp [here.1, here.2]
    · simp [here]
  case within =>
    intro t' c
    rw [storedBytes_retain]
    split
    case isTrue => exact not_lt.mp fits.2
    case isFalse => exact kept.within t' c
  case capped =>
    intro lease key other held
    rw [retained_retain] at held
    split at held
    case isTrue =>
      cases held
      exact not_lt.mp fits.1
    case isFalse => exact kept.capped held
  case placed =>
    intro lease key other held
    rw [retained_retain] at held
    split at held
    case isTrue here =>
      cases held
      rw [here.1, here.2]
      exact ⟨rfl, rfl⟩
    case isFalse => exact kept.placed held
  case named =>
    intro key other held
    simp only [retain, own, Dict.get?_erase] at held
    split at held
    case isTrue => cases held
    case isFalse => exact kept.named held

theorem takeRecord_kept (kept : books.Kept) : (books.takeRecord t r record lane).1.Kept := by
  rw [takeRecord_books]
  split
  case isTrue stores =>
    simp only [store]
    split
    case isTrue => exact kept_cap kept stores
    case isFalse under => exact kept_retain kept stores under
  case isFalse => exact kept

theorem takeRecords_kept (records : List TranscriptRecord) (push : Books × TranscriptLane)
    (kept : push.1.Kept) : (takeRecords t r records push).1.Kept := by
  induction records generalizing push with
  | nil => exact kept
  | cons record rest ih => exact ih _ (takeRecord_kept kept)

end Take

theorem kept_shelves {books : Books} : books.shelves.Kept ↔ books.Kept :=
  ⟨fun kept => ⟨kept.filed, kept.credited, kept.within, kept.capped, kept.placed, kept.named⟩,
    fun kept => ⟨kept.filed, kept.credited, kept.within, kept.capped, kept.placed, kept.named⟩⟩

theorem kept_of_shelves {books other : Books} (same : books.shelves = other.shelves)
    (kept : other.Kept) : books.Kept := by
  rw [← kept_shelves, same]
  exact kept_shelves.mpr kept

end Books

namespace MockHubService

section Shelves

variable {α : Type}

abbrev shelves (hub : MockHubService) : Books := hub.toBooks.shelves

instance (m : HubM α) [h : Keeps besideChunks m] : Keeps shelves m := h.comp m fun w => w.2.shelves

instance (m : HubM α) [h : Keeps besideQuestions m] : Keeps shelves m :=
  h.comp m fun w => w.2.shelves

instance (m : HubM α) [h : Keeps (fun hub : MockHubService => hub.work.besideHostMarks) m] :
    Keeps shelves m :=
  h.comp m fun w => w.books.shelves

instance (chunk : ChunkState) (epoch : Int) (r : String) :
    Keeps shelves (advanceFence chunk epoch r) := by
  apply Keeps.andThen inferInstance
  intro _
  apply Keeps.andThen inferInstance
  intro row
  exact ⟨fun _ => rfl⟩

variable [Platform]

instance (r : String) (payload : List (String × Json)) :
    Keeps shelves (applyLeaseMinted r payload) := by
  simp only [applyLeaseMinted]
  infer_instance

instance (r kind : String) (payload : List (String × Json)) :
    Keeps shelves (applyFact r kind payload) := by
  apply applyFact_cases (P := fun m => Keeps shelves m)
  case beside => exact fun m _ => inferInstance
  all_goals exact fun _ => inferInstance

instance (r : String) (facts : List Fact) : Keeps shelves (ingestFacts r facts) := by
  have judged (fact : Fact) : Keeps shelves ((factLane r).judge fact) :=
    inferInstanceAs (Keeps shelves (applyFact r fact.kind fact.payload))
  apply Keeps.andThen inferInstance
  intro mark
  apply Keeps.andThen inferInstance
  intro lane
  apply Keeps.andThen ⟨fun _ => rfl⟩
  intro _
  infer_instance

omit [Platform] in
theorem ingestTranscripts_kept {hub : MockHubService} (kept : hub.toBooks.Kept) (r : String)
    (records : List TranscriptRecord) :
    (Method.after (ingestTranscripts r records) hub).toBooks.Kept := by
  cases known : hub.store.runners.get? r with
  | none =>
    rw [after_ingestTranscripts_none known]
    exact kept
  | some row =>
    simp only [Method.after, run_ingestTranscripts known]
    have taken : (hub.transcriptPush row.tenantId r records).1.Kept :=
      Books.takeRecords_kept _ (hub.toBooks, _) kept
    exact Books.kept_of_shelves (by rfl) taken

theorem shelves_next {op : Op} (hub : MockHubService) (h : LeavesLanes op) :
    (hub.next op).shelves = hub.shelves :=
  have := keeps_besideChunks op h
  Keeps.keeps (f := shelves) (m := op.run) hub

theorem next_kept (op : Op) {hub : MockHubService} (kept : hub.toBooks.Kept) :
    (hub.next op).toBooks.Kept := by
  have still (h : (hub.next op).shelves = hub.shelves) : (hub.next op).toBooks.Kept :=
    Books.kept_of_shelves h kept
  cases op with
  | ingestTranscripts r records => exact ingestTranscripts_kept kept r records
  | ingestFacts r facts => exact still (Keeps.keeps (f := shelves) (m := ingestFacts r facts) hub)
  | ingestHostFacts h facts =>
    exact still (Keeps.keeps (f := shelves) (m := ingestHostFacts h facts) hub)
  | answerQuestion q given actor =>
    exact still (Keeps.keeps (f := shelves) (m := answerQuestion q given actor) hub)
  | reset => exact Books.kept_empty
  | _ => exact still (shelves_next hub trivial)

end Shelves

/-- The transcript store says one thing in all its maps: an accepted key is retained under its
owner's lease and no other, a rejected one is kept among the rejected alone, and a chunk is credited
with the bytes its leases retain, inside the caps. -/
structure TranscriptsKept (hub : MockHubService) : Prop where
  accepted (key : TranscriptKey) : hub.transcriptKeyState.get? key = some .accepted ↔
    ∃ lease runnerId, hub.transcriptOwners.get? key = some (lease, runnerId) ∧
      ∀ other, (hub.retained other key).isSome ↔ other = lease
  rejected (key : TranscriptKey) : hub.transcriptKeyState.get? key = some .rejected ↔
    (hub.transcriptRejected.get? key).isSome ∧ ∀ lease, hub.retained lease key = none
  credited (tenantId chunkId : String) :
    hub.storedBytes tenantId chunkId = hub.retainedBytes tenantId chunkId
  within (tenantId chunkId : String) :
    hub.storedBytes tenantId chunkId ≤ transcriptChunkBudgetMaxBytes
  capped {lease : LeaseKey} {key : TranscriptKey} {record : TranscriptRecord} :
    hub.retained lease key = some record → record.size ≤ transcriptRecordMaxBytes
  placed {lease : LeaseKey} {key : TranscriptKey} {record : TranscriptRecord} :
    hub.retained lease key = some record →
      record.key lease.1 = key ∧ record.leaseKey lease.1 = lease
  named {key : TranscriptKey} {record : TranscriptRecord} :
    hub.transcriptRejected.get? key = some record → record.key key.1 = key

theorem transcriptsKept_of_kept {hub : MockHubService} (kept : hub.toBooks.Kept) :
    hub.TranscriptsKept where
  accepted key := by
    constructor
    · intro state
      have filed := kept.filed key
      simp only [Books.Filed, state] at filed
      exact filed.2
    · rintro ⟨lease, _, _, only⟩
      by_contra fresh
      have held := (only lease).mpr rfl
      rw [kept.unretained fresh lease] at held
      cases held
  rejected key := by
    have filed := kept.filed key
    simp only [Books.Filed] at filed
    cases state : hub.transcriptKeyState.get? key with
    | none =>
      simp only [state] at filed
      simp [filed.1]
    | some decided =>
      cases decided with
      | rejected =>
        simp only [state] at filed
        simp [filed]
      | accepted =>
        simp only [state] at filed
        simp [filed.1]
  credited := kept.credited
  within := kept.within
  capped := kept.capped
  placed := kept.placed
  named := kept.named

theorem kept_after [Platform] (sources : Sources) (ops : List Op) :
    (after ops (fresh sources)).toBooks.Kept :=
  Machine.invariant_always (I := fun hub : MockHubService => hub.toBooks.Kept)
    (fun op _ kept => next_kept op kept) ops Books.kept_empty

/-- Every run of calls on a fresh hub keeps the transcript store. -/
theorem transcripts_kept [Platform] (sources : Sources) (ops : List Op) :
    (after ops (fresh sources)).TranscriptsKept :=
  transcriptsKept_of_kept (kept_after sources ops)

end MockHubService

end BlizzardMock.MockHub
