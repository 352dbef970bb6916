import BlizzardMock.MockHub.RetentionLaws
import Mathlib.Data.Prod.Lex
import Mathlib.Data.String.Basic

namespace BlizzardMock.MockHub

open Method

namespace TranscriptRecord

def orderKey (record : TranscriptRecord) : Int ×ₗ String ×ₗ Int :=
  toLex (record.spawnGeneration, toLex (record.segmentId, record.turnRangeStart))

def unnumbered (record : TranscriptRecord) : TranscriptRecord := { record with seq := 0 }

theorem before_iff {a b : TranscriptRecord} :
    MockHubService.recordBefore a b = true ↔ a.orderKey ≤ b.orderKey := by
  simp [MockHubService.recordBefore, orderKey, Prod.Lex.toLex_le_toLex]

end TranscriptRecord

namespace Books

variable (books : Books) (lease : LeaseKey)

def RetainedUnder (record : TranscriptRecord) : Prop :=
  ∃ key, (books.retained lease key).map TranscriptRecord.unnumbered = some record

/-- A record a cap kept out, its turns aside. -/
def CappedUnder (record : TranscriptRecord) : Prop :=
  ∃ key runnerId, (books.transcriptRejected.get? key).map TranscriptRecord.unnumbered =
    some record ∧
    books.transcriptOwners.get? key = some (lease, runnerId)

def Superseded (segmentId : String) : Prop :=
  ∃ record, (books.RetainedUnder lease record ∨ books.CappedUnder lease record) ∧
    record.supersedes = some segmentId

def Visible (record : TranscriptRecord) : Prop :=
  books.RetainedUnder lease record ∧ ¬ books.Superseded lease record.segmentId

def recordsOf : List TranscriptRecord := (books.transcriptSegments.getD lease ∅).values

def rejectedOf : List TranscriptRecord :=
  (books.transcriptRejected.entries.filter fun e =>
    (books.transcriptOwners.get? e.1).map Prod.fst = some lease).map Prod.snd

def supersededOf : List String :=
  (books.recordsOf lease ++ books.rejectedOf lease).filterMap (·.supersedes)

def visibleOf : List TranscriptRecord :=
  (books.recordsOf lease).filter fun r => r.segmentId ∉ books.supersededOf lease

def orderedOf : List TranscriptRecord :=
  (books.visibleOf lease).insertionSort fun a b => MockHubService.recordBefore a b

def truncatedOf : Bool :=
  (books.rejectedOf lease).any (fun r => r.segmentId ∉ books.supersededOf lease) ||
    (books.visibleOf lease).any (·.recordTruncated)

variable {books lease} {record : TranscriptRecord}

theorem mem_recordsOf :
    record ∈ (books.recordsOf lease).map TranscriptRecord.unnumbered ↔
      books.RetainedUnder lease record := by
  simp only [recordsOf, RetainedUnder, retained, List.mem_map, Dict.mem_values,
    Option.map_eq_some_iff]
  constructor
  · rintro ⟨held, ⟨key, found⟩, same⟩
    exact ⟨key, held, found, same⟩
  · rintro ⟨key, held, found, same⟩
    exact ⟨held, ⟨key, found⟩, same⟩

theorem mem_rejectedOf :
    record ∈ (books.rejectedOf lease).map TranscriptRecord.unnumbered ↔
      books.CappedUnder lease record := by
  simp only [rejectedOf, CappedUnder, List.mem_map, List.mem_filter, decide_eq_true_eq,
    Option.map_eq_some_iff]
  constructor
  · rintro ⟨_, ⟨⟨key, held⟩, ⟨mem, ⟨⟨_, runnerId⟩, owned, rfl⟩⟩, rfl⟩, same⟩
    exact ⟨key, runnerId, ⟨held, Dict.mem_entries.mp mem, same⟩, owned⟩
  · rintro ⟨key, runnerId, ⟨held, found, same⟩, owned⟩
    exact ⟨held, ⟨(key, held), ⟨Dict.mem_entries.mpr found, _, owned, rfl⟩, rfl⟩, same⟩

theorem mem_supersededOf {segmentId : String} :
    segmentId ∈ books.supersededOf lease ↔ books.Superseded lease segmentId := by
  simp [supersededOf, Superseded, ← mem_recordsOf, ← mem_rejectedOf, or_and_right, exists_or,
    TranscriptRecord.unnumbered]

theorem mem_visibleOf :
    record ∈ (books.visibleOf lease).map TranscriptRecord.unnumbered ↔
      books.Visible lease record := by
  simp only [visibleOf, Visible, ← mem_recordsOf, ← mem_supersededOf, List.mem_map, List.mem_filter,
    decide_eq_true_eq]
  constructor
  · rintro ⟨held, ⟨mem, standing⟩, rfl⟩
    exact ⟨⟨held, mem, rfl⟩, standing⟩
  · rintro ⟨⟨held, mem, rfl⟩, standing⟩
    exact ⟨held, ⟨mem, standing⟩, rfl⟩

theorem mem_orderedOf :
    record ∈ (books.orderedOf lease).map TranscriptRecord.unnumbered ↔
      books.Visible lease record := by
  rw [← mem_visibleOf]
  exact ((List.perm_insertionSort _ _).map _).mem_iff

theorem truncatedOf_iff : books.truncatedOf lease = true ↔
    (∃ record, books.CappedUnder lease record ∧ ¬ books.Superseded lease record.segmentId) ∨
      ∃ record, books.Visible lease record ∧ record.recordTruncated = true := by
  simp [truncatedOf, ← mem_rejectedOf, ← mem_visibleOf, ← mem_supersededOf,
    TranscriptRecord.unnumbered]

theorem Kept.nodup_recordsOf (kept : books.Kept) :
    ((books.recordsOf lease).map (·.key lease.1)).Nodup := by
  have keyed : (books.recordsOf lease).map (·.key lease.1) =
    (books.transcriptSegments.getD lease ∅).keys := by
    simp only [recordsOf, Dict.values, Dict.keys, List.map_map]
    apply List.map_congr_left
    intro entry mem
    exact (kept.placed (Dict.mem_entries.mp mem)).1
  rw [keyed]
  exact Dict.nodup _

theorem pairwise_orderedOf :
    (books.orderedOf lease).Pairwise fun a b => MockHubService.recordBefore a b = true :=
  have : Std.Total fun a b : TranscriptRecord => MockHubService.recordBefore a b = true :=
    ⟨fun a b => by simpa only [TranscriptRecord.before_iff] using le_total a.orderKey b.orderKey⟩
  have : IsTrans TranscriptRecord fun a b => MockHubService.recordBefore a b = true :=
    ⟨fun _ _ _ => by simpa only [TranscriptRecord.before_iff] using le_trans⟩
  List.pairwise_insertionSort _ (books.visibleOf lease)

variable (lease) in
theorem Kept.sorted (kept : books.Kept) :
    ((books.orderedOf lease).map TranscriptRecord.unnumbered).Pairwise fun a b =>
      a.orderKey < b.orderKey := by
  have apart : (books.orderedOf lease).Pairwise fun a b => a.key lease.1 ≠ b.key lease.1 := by
    rw [← List.pairwise_map]
    apply ((List.perm_insertionSort _ (books.visibleOf lease)).map _).nodup_iff.mpr
    exact kept.nodup_recordsOf.sublist (List.filter_sublist.map _)
  rw [List.pairwise_map]
  apply (pairwise_orderedOf.and apart).imp
  intro a b ⟨before, apart⟩
  apply lt_of_le_of_ne (TranscriptRecord.before_iff.mp before)
  intro same
  simp only [TranscriptRecord.orderKey, toLex_inj, Prod.mk.injEq] at same
  exact apart (congrArg (Prod.mk lease.1) (Prod.ext same.2.1 same.2.2))

section Same

variable {others : Books} (retained : ∀ record, books.RetainedUnder lease record ↔
      others.RetainedUnder lease record)
  (capped : ∀ record, books.CappedUnder lease record ↔ others.CappedUnder lease record)

include retained capped

theorem superseded_congr (segmentId : String) :
    books.Superseded lease segmentId ↔ others.Superseded lease segmentId := by
  simp only [Superseded, retained, capped]

theorem visible_congr (record : TranscriptRecord) :
    books.Visible lease record ↔ others.Visible lease record := by
  simp only [Visible, retained, superseded_congr retained capped]

theorem truncatedOf_congr : books.truncatedOf lease = others.truncatedOf lease := by
  rw [Bool.eq_iff_iff, truncatedOf_iff, truncatedOf_iff]
  simp only [capped, superseded_congr retained capped, visible_congr retained capped]

theorem orderedOf_congr (kept : books.Kept) (kept' : others.Kept) :
    (books.orderedOf lease).map TranscriptRecord.unnumbered =
      (others.orderedOf lease).map TranscriptRecord.unnumbered := by
  have sorted := kept.sorted lease
  have sorted' := kept'.sorted lease
  apply List.Perm.eq_of_pairwise (fun _ _ _ _ before after => ?_) sorted sorted'
  · apply (List.perm_ext_iff_of_nodup ?_ ?_).mpr
    · intro record
      rw [mem_orderedOf, mem_orderedOf]
      exact visible_congr retained capped record
    · exact sorted.imp fun before same => absurd (same ▸ before) (lt_irrefl _)
    · exact sorted'.imp fun before same => absurd (same ▸ before) (lt_irrefl _)
  · exact absurd (before.trans after) (lt_irrefl _)

end Same

end Books

namespace MockHubService

variable {hub : MockHubService} {r : String} {row : RunnerRow}

theorem answer_leaseTranscript (added : hub.store.runners.get? r = some row)
    (c n : String) (e : Int) :
    answer (leaseTranscript c r n e) hub = .ok {
      chunkId := c
      nodeId := n
      epoch := e
      truncated := hub.truncatedOf (row.tenantId, c, n, e)
      turns := (((hub.orderedOf (row.tenantId, c, n, e)).map TranscriptRecord.unnumbered).flatMap
        TranscriptRecord.turns).mapIdx fun i turn => renumbered turn i } := by
  simp only [leaseTranscript]
  rw [answer_bind_of_ok _ (answer_added_some added), after_added, List.flatMap_map]
  rfl

theorem lookup_assign (key : String) (value : Json) (fields : List (String × Json)) :
    Json.lookup key (Dict.assign key value fields) = some value := by
  induction fields with
  | nil => simp [Dict.assign, Json.lookup]
  | cons field rest ih =>
    obtain ⟨k, v⟩ := field
    simp only [Dict.assign]
    split <;> simp [Json.lookup, *]

theorem index_renumbered (turns : List (List (String × Json))) :
    (turns.mapIdx fun i turn => renumbered turn i).map (fun turn => Json.get turn "index" .null) =
      (List.range turns.length).map fun i : Nat => .int i := by
  apply List.ext_getElem
  · simp
  · intro i _ _
    simp [Json.get, renumbered, lookup_assign]

/-- Two runs that leave the same records for a lease read it back the same: the turns of the records
no record of the lease supersedes, in order, numbered from nought. -/
theorem leaseTranscript_determined [Platform] (sources others : Sources) (ops rest : List Op)
    {r r' : String}
    {row row' : RunnerRow} (added : (after ops (fresh sources)).store.runners.get? r = some row)
    (added' : (after rest (fresh others)).store.runners.get? r' = some row')
    (tenant : row.tenantId = row'.tenantId) (c n : String) (e : Int)
    (retained : ∀ record, (after ops (fresh sources)).RetainedUnder (row.tenantId, c, n, e) record ↔
      (after rest (fresh others)).RetainedUnder (row.tenantId, c, n, e) record)
    (capped : ∀ record, (after ops (fresh sources)).CappedUnder (row.tenantId, c, n, e) record ↔
      (after rest (fresh others)).CappedUnder (row.tenantId, c, n, e) record) :
    ∃ (view : LeaseTranscriptView) (ordered : List TranscriptRecord),
      answer (leaseTranscript c r n e) (after ops (fresh sources)) = .ok view ∧
      answer (leaseTranscript c r' n e) (after rest (fresh others)) = .ok view ∧
      (∀ record, record ∈ ordered ↔
        (after ops (fresh sources)).Visible (row.tenantId, c, n, e) record) ∧
      (ordered.Pairwise fun a b => a.orderKey < b.orderKey) ∧
      view.turns = (ordered.flatMap TranscriptRecord.turns).mapIdx (fun i turn =>
        renumbered turn i) ∧
      view.turns.map (fun turn => Json.get turn "index" .null) =
        (List.range view.turns.length).map (fun i : Nat => .int i) ∧
      (view.truncated = true ↔
        (∃ record, (after ops (fresh sources)).CappedUnder (row.tenantId, c, n, e) record ∧
          ¬ (after ops (fresh sources)).Superseded (row.tenantId, c, n, e) record.segmentId) ∨
        ∃ record, (after ops (fresh sources)).Visible (row.tenantId, c, n, e) record ∧
          record.recordTruncated = true) := by
  have ordered := Books.orderedOf_congr retained capped (kept_after sources ops)
    (kept_after others rest)
  have truncated := Books.truncatedOf_congr retained capped
  refine ⟨_, _, answer_leaseTranscript added c n e, ?_, fun _ => Books.mem_orderedOf,
    (kept_after sources ops).sorted _, rfl, ?_, Books.truncatedOf_iff⟩
  · rw [answer_leaseTranscript added' c n e, ← tenant, ordered, truncated]
  · rw [List.length_mapIdx]
    exact index_renumbered _

end MockHubService

section

attribute [local instance] Platform.plain

open MockHubService

def turnRecord (seq start : Int) : TranscriptRecord where
  seq
  segmentId := "s"
  chunkId := "c"
  nodeId := "build"
  epoch := 1
  spawnGeneration := 0
  turnRangeStart := start
  turns := [[("start", .int start)]]

def annsRunner : Op := .registry (.addRunner "ann" firstTenantId (some "r") (some "t") none none)

def pushedAtOnce : List Op := [annsRunner, .ingestTranscripts "r" [turnRecord 1 0, turnRecord 2 5]]

def pushedLate : List Op :=
  [annsRunner, .ingestTranscripts "r" [turnRecord 1 5], .ingestTranscripts "r" [turnRecord 2 0]]

theorem leaseTranscript_late : ∃ view,
    answer (leaseTranscript "c" "r" "build" 1) (after pushedAtOnce (fresh .still)) = .ok view ∧
    answer (leaseTranscript "c" "r" "build" 1) (after pushedLate (fresh .still)) = .ok view := by
  have known : ∃ row, (after pushedAtOnce (fresh .still)).store.runners.get? "r" = some row ∧
      (after pushedLate (fresh .still)).store.runners.get? "r" = some row ∧
      row.tenantId = firstTenantId := ⟨_, rfl, rfl, rfl⟩
  obtain ⟨row, known, known', tenant⟩ := known
  obtain ⟨view, _, read, read', _⟩ :=
    leaseTranscript_determined .still .still pushedAtOnce pushedLate
    known known' rfl "c" "build" 1
    (fun record => by
      rw [tenant, ← Books.mem_recordsOf, ← Books.mem_recordsOf]
      change record ∈ [turnRecord 0 0, turnRecord 0 5] ↔ record ∈ [turnRecord 0 5, turnRecord 0 0]
      simp [or_comm])
    (fun record => by
      rw [tenant, ← Books.mem_rejectedOf, ← Books.mem_rejectedOf]
      rfl)
  exact ⟨view, read, read'⟩

end

end BlizzardMock.MockHub
