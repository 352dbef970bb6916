import BlizzardMock.MockHub.Operations
import BlizzardMock.MockHub.Service.Garden
import BlizzardMock.Python.IntText
import Mathlib.Data.List.Forall2

namespace BlizzardMock.MockHub

open Method MockHubService

def sysMaxsize : Nat := 2 ^ 63 - 1

/-- A cursor of the form the hub issues: ASCII digits behind `o:`. -/
def IssuedCursor (cursor : String) : Prop :=
  ∃ digits, cursor.toList = 'o' :: ':' :: digits ∧ digits ≠ [] ∧ ∀ c ∈ digits, c.isDigit

/-- A cursor that gives an offset in any way a number can be written. -/
def OffsetCursor (cursor : String) : Prop :=
  ∃ offset, cursor.toList = 'o' :: ':' :: offset ∧ NaturalText offset

/-- A view of a proposal as of one of a clock's readings. -/
def Seen (run : GardenRunSpec) (project : ProjectFields) (clock : Stream' DateTime)
    (p : GardenProposalSpec)
    (view : GardenProposalView) : Prop :=
  ∃ n, view = proposalView p run.routineName (clock.get n).isoformat project

variable {hub : MockHubService} {chunkId cursor : String} {chunk : ChunkState} {run : GardenRunSpec}
  {state : RoutineProposalState} {limit : Nat}

theorem startsWith_iff : startsWith cursor "o:" = true ↔ ∃ rest,
      cursor.toList = 'o' :: ':' :: rest := by
  rw [startsWith, List.isPrefixOf_iff_prefix]
  constructor
  · rintro ⟨rest, same⟩
    exact ⟨rest, same.symm⟩
  · rintro ⟨rest, same⟩
    exact ⟨rest, same.symm⟩

theorem removePrefix_eq {rest : List Char} (h : cursor.toList = 'o' :: ':' :: rest) :
    removePrefix "o:" cursor = String.ofList rest := by
  rw [removePrefix, if_pos (startsWith_iff.mpr ⟨rest, h⟩), h]
  rfl

theorem pageOffset_of_ok {rest : List Char} {n : Int} (h : cursor.toList = 'o' :: ':' :: rest)
    (read : intOfText (String.ofList rest) = .ok n) : pageOffset (some cursor) =
      if n < 0 then .error (.malformedCursor cursor) else .ok n.toNat := by
  rw [pageOffset, if_pos (startsWith_iff.mpr ⟨rest, h⟩), removePrefix_eq h, read]

theorem pageOffset_of_error {rest : List Char} {e : PyError}
    (h : cursor.toList = 'o' :: ':' :: rest)
    (read : intOfText (String.ofList rest) = .error e) :
    pageOffset (some cursor) = .error (.malformedCursor cursor) := by
  rw [pageOffset, if_pos (startsWith_iff.mpr ⟨rest, h⟩), removePrefix_eq h, read]
  rfl

theorem pageOffset_cases (cursor : String) :
    (∃ offset, pageOffset (some cursor) = .ok offset) ∧ OffsetCursor cursor ∨
      pageOffset (some cursor) = .error (.malformedCursor cursor) ∧ ¬ OffsetCursor cursor := by
  by_cases lead : ∃ rest, cursor.toList = 'o' :: ':' :: rest
  · obtain ⟨rest, h⟩ := lead
    have natural : OffsetCursor cursor ↔ ∃ n : Int,
      intOfText (String.ofList rest) = .ok n ∧ 0 ≤ n := by
      rw [intOfText_nonneg_iff, String.toList_ofList]
      constructor
      · rintro ⟨offset, same, text⟩
        rw [h] at same
        cases same
        exact text
      · exact fun text => ⟨rest, h, text⟩
    rw [natural]
    cases read : intOfText (String.ofList rest) with
    | error e => exact .inr ⟨pageOffset_of_error h read, by simp⟩
    | ok n =>
      rw [pageOffset_of_ok h read]
      rcases Int.lt_or_le n 0 with negative | nonneg
      · exact .inr ⟨if_pos negative, by simpa using negative⟩
      · exact .inl ⟨⟨n.toNat, if_neg (Int.not_lt.mpr nonneg)⟩, n, rfl, nonneg⟩
  · refine .inr ⟨?_, fun ⟨offset, same, _⟩ => lead ⟨offset, same⟩⟩
    rw [pageOffset, if_neg (startsWith_iff.not.mpr lead)]
    rfl

theorem pageOffset_issued {n : Nat} (short : n ≤ sysMaxsize) :
    pageOffset (some ("o:" ++ toString n)) = .ok n := by
  have few : n < 10 ^ intMaxStrDigits :=
    Nat.lt_of_le_of_lt short (Nat.lt_of_lt_of_le (by decide : sysMaxsize < 10 ^ 19)
      (Nat.pow_le_pow_right (by decide) (by decide)))
  have text : ("o:" ++ toString n).toList = 'o' :: ':' :: (toString n).toList := by
    rw [String.toList_append]
    rfl
  have read : intOfText (String.ofList (toString n).toList) = .ok (n : Int) := by
    rw [String.ofList_toList, intOfText_toString few]
  rw [pageOffset_of_ok text read]
  exact if_neg (Int.not_lt.mpr (Int.natCast_nonneg n))

def ticked (hub : MockHubService) : MockHubService :=
  { hub with sources := { hub.sources with clock := hub.sources.clock.tail } }

def viewed (hub : MockHubService) (chunk : ChunkState) (run : GardenRunSpec)
    (docket : List GardenProposalSpec) :
    List GardenProposalView :=
  docket.map (proposalView · run.routineName hub.sources.clock.head.isoformat
    (projectFields hub.store.toRegistry chunk.projectId))

structure Routine (hub : MockHubService) (chunkId : String) (chunk : ChunkState)
    (run : GardenRunSpec) : Prop where
  held : hub.store.chunks.get? chunkId = some chunk
  run : chunk.gardenRun = some run

theorem Routine.ticked (h : Routine hub chunkId chunk run) :
    Routine (ticked hub) chunkId chunk run := ⟨h.held, h.run⟩

theorem run_gardenProposals (h : Routine hub chunkId chunk run) :
    (gardenProposals chunkId state).run hub =
    .ok (viewed hub chunk run (chunk.docket state)) (ticked hub) := by
  have found : (require chunkId).run hub = .ok chunk hub := by
    change (orRaise _ (hub.store.chunks.get? chunkId)).run hub = _
    rw [h.held]
    rfl
  have routine : (gardenRunOr404 chunkId).run hub = .ok (chunk, run) hub := by
    rw [gardenRunOr404, run_bind_of_run found, h.run]
    rfl
  rw [gardenProposals, run_bind_of_run routine]
  rfl

theorem run_gardenProposalsPage (h : Routine hub chunkId chunk run) {at_ : Option String}
    {offset : Nat}
    (read : pageOffset at_ = .ok offset) : (gardenProposalsPage chunkId state at_ limit).run hub =
      .ok ⟨viewed hub chunk run (((chunk.docket state).drop offset).take limit),
        if offset + limit < (chunk.docket state).length
          then some ("o:" ++ toString (offset + limit)) else none⟩
        (ticked hub) := by
  rw [gardenProposalsPage, run_bind_of_run (run_gardenProposals h), read, run_settle_ok]
  simp only [viewed, List.map_take, List.map_drop, List.length_map]
  rfl

theorem answer_gardenProposalsPage_malformed (h : Routine hub chunkId chunk run) :
    answer (gardenProposalsPage chunkId state (some cursor) limit) hub = .error
      (.malformedCursor cursor) ↔
      ¬ OffsetCursor cursor := by
  rcases pageOffset_cases cursor with ⟨⟨offset, read⟩, loose⟩ | ⟨refused, none⟩
  · rw [answer_of_run_ok (run_gardenProposalsPage h read)]
    exact iff_of_false (by simp) (not_not.mpr loose)
  · refine iff_of_true ?_ none
    rw [gardenProposalsPage, answer_of_run (run_bind_of_run (run_gardenProposals h)), refused]
    rfl

theorem seen_viewed (docket : List GardenProposalSpec) (n : Nat) (clock : Stream' DateTime)
    (reading : hub.sources.clock.head = clock.get n) :
    List.Forall₂ (Seen run (projectFields hub.store.toRegistry chunk.projectId) clock) docket
      (viewed hub chunk run docket) := by
  rw [viewed, List.forall₂_map_right_iff, List.forall₂_same]
  intro p _
  exact ⟨n, by rw [reading]⟩

section Turn

variable {page : GardenProposalsPageView} {cursor : Option String} {limits : Stream' Nat}
    {next : MockHubService}
  (turn : (gardenProposalsPage chunkId state cursor limits.head).run hub = .ok page next)
    (fuel : Nat)

include turn

theorem followPages_last (last : page.nextCursor = none) :
    answer (followPages chunkId state (fuel + 1) limits cursor) hub = .ok (some [page]) := by
  rw [followPages, answer_of_run (run_bind_of_run turn)]
  simp only [last]
  rfl

theorem followPages_more {onward : String} {pages : List GardenProposalsPageView}
    (more : page.nextCursor = some onward)
    (rest : answer (followPages chunkId state fuel limits.tail (some onward)) next = .ok
      (some pages)) :
    answer (followPages chunkId state (fuel + 1) limits cursor) hub = .ok
      (some (page :: pages)) := by
  rw [followPages, answer_of_run (run_bind_of_run turn)]
  simp only [more]
  rw [answer_bind_of_ok _ rest]
  rfl

end Turn

theorem follow_from {clock : Stream' DateTime} {fields : ProjectFields}
    (short : (chunk.docket state).length ≤ sysMaxsize) (left : Nat) {n offset : Nat}
    {cursor : Option String}
    {limits : Stream' Nat} (h : Routine hub chunkId chunk run) (positive : ∀ k, 1 ≤ limits.get k)
    (reading : ∀ k, hub.sources.clock.get k = clock.get (n + k))
    (known : projectFields hub.store.toRegistry chunk.projectId = fields)
    (read : pageOffset cursor = .ok offset) (inside : offset < (chunk.docket state).length ∨
      chunk.docket state = [])
    (enough : (chunk.docket state).length - offset < left) :
    ∃ pages, (∀ fuel, left ≤ fuel → answer (followPages chunkId state fuel limits cursor) hub = .ok
      (some pages)) ∧
      List.Forall₂ (Seen run fields clock) ((chunk.docket state).drop offset)
        (pages.flatMap GardenProposalsPageView.proposals) ∧
      ∀ page ∈ pages, page.proposals = [] → chunk.docket state = [] := by
  induction left generalizing hub n offset cursor limits with
  | zero => omega
  | succ left ih =>
    generalize docketed : chunk.docket state = docket at *
    have one : 1 ≤ limits.head := positive 0
    obtain ⟨page, turn, shown, next⟩ :
      ∃ page, (gardenProposalsPage chunkId state cursor limits.head).run hub =
        .ok page (ticked hub) ∧
          page.proposals = viewed hub chunk run ((docket.drop offset).take limits.head) ∧
          page.nextCursor =
            if offset + limits.head < docket.length
              then some ("o:" ++ toString (offset + limits.head)) else none :=
      ⟨_, by rw [run_gardenProposalsPage h read, docketed], rfl, rfl⟩
    have here : List.Forall₂ (Seen run fields clock)
      ((docket.drop offset).take limits.head) page.proposals := by
      rw [shown, ← known]
      exact seen_viewed _ n clock (reading 0)
    have filled : page.proposals = [] → docket = [] := by
      intro none
      rcases inside with inside | empty
      · have len := congrArg List.length none
        rw [shown] at len
        simp only [viewed, List.length_map, List.length_take, List.length_drop, List.length_nil]
          at len
        omega
      · exact empty
    have spent (fuel : Nat) (le : left + 1 ≤ fuel) : ∃ k, fuel = k + 1 ∧ left ≤ k :=
      ⟨fuel - 1, by omega, by omega⟩
    by_cases more : offset + limits.head < docket.length
    · rw [if_pos more] at next
      have positive' : ∀ k, 1 ≤ limits.tail.get k := fun k => positive (k + 1)
      have reading' (k : Nat) : (ticked hub).sources.clock.get k = clock.get (n + 1 + k) := by
        rw [Nat.add_assoc, Nat.add_comm 1 k]
        exact reading (k + 1)
      have issued : pageOffset (some ("o:" ++ toString (offset + limits.head))) = .ok
        (offset + limits.head) :=
        pageOffset_issued (by omega)
      obtain ⟨pages, follows, rest, others⟩ :=
        ih h.ticked positive' reading' known issued (.inl more) (by omega)
      refine ⟨page :: pages, ?_, ?_, List.forall_mem_cons.mpr ⟨filled, others⟩⟩
      · intro fuel le
        obtain ⟨k, rfl, left⟩ := spent fuel le
        exact followPages_more turn k next (follows k left)
      · rw [List.flatMap_cons, ← List.take_append_drop limits.head (docket.drop offset),
          List.drop_drop]
        exact List.rel_append here rest
    · rw [if_neg more] at next
      refine ⟨[page], ?_, ?_, List.forall_mem_singleton.mpr filled⟩
      · intro fuel le
        obtain ⟨k, rfl, -⟩ := spent fuel le
        exact followPages_last turn k next
      · rw [List.take_of_length_le (by rw [List.length_drop]; omega)] at here
        simpa using here

theorem eq_viewed_of_seen {docket : List GardenProposalSpec} {views : List GardenProposalView}
    (standing : ∀ n, hub.sources.clock.get n = hub.sources.clock.head)
    (seen : List.Forall₂
      (Seen run (projectFields hub.store.toRegistry chunk.projectId) hub.sources.clock)
      docket views) : views = viewed hub chunk run docket := by
  induction seen with
  | nil => rfl
  | cons here _ ih =>
    obtain ⟨n, rfl⟩ := here
    rw [standing n, ih]
    rfl

/-- Following a docket's pages from no cursor comes to an end, with the docket as the unpaged read
gives it; and a cursor is refused just where it gives no offset in any way a number is written. -/
theorem garden_pages (held : hub.store.chunks.get? chunkId = some chunk)
    (routine : chunk.gardenRun = some run)
    (bounded : chunk.gardenProposals.length ≤ sysMaxsize) (state : RoutineProposalState)
    (limits : Stream' Nat)
    (positive : ∀ n, 1 ≤ limits.get n) :
    (∃ pages, (∀ fuel, (chunk.docket state).length < fuel →
        answer (followPages chunkId state fuel limits none) hub = .ok (some pages)) ∧
      List.Forall₂ (Seen run (projectFields hub.store.toRegistry chunk.projectId) hub.sources.clock)
        (chunk.docket state) (pages.flatMap GardenProposalsPageView.proposals) ∧
      ((∀ n, hub.sources.clock.get n = hub.sources.clock.head) →
        answer (gardenProposals chunkId state) hub = .ok
          (pages.flatMap GardenProposalsPageView.proposals)) ∧
      ∀ page ∈ pages, page.proposals = [] → chunk.docket state = []) ∧
    ∀ cursor limit, (¬ IssuedCursor cursor →
        answer (gardenProposalsPage chunkId state (some cursor) limit) hub = .error
          (.malformedCursor cursor)) ↔
      IssuedCursor cursor ∨ ¬ OffsetCursor cursor := by
  have h : Routine hub chunkId chunk run := ⟨held, routine⟩
  have short : (chunk.docket state).length ≤ sysMaxsize :=
    le_trans (List.length_filter_le _ _) bounded
  have inside : 0 < (chunk.docket state).length ∨ chunk.docket state = [] := by
    rw [List.length_pos_iff]
    exact (Classical.em _).symm
  constructor
  · have first : pageOffset none = .ok 0 := rfl
    obtain ⟨pages, follows, seen, filled⟩ :=
      follow_from short ((chunk.docket state).length + 1) h positive
      (fun k => by rw [Nat.zero_add]) rfl first inside (Nat.lt_succ_self _)
    refine ⟨pages, follows, seen, ?_, filled⟩
    intro standing
    rw [answer_of_run_ok (run_gardenProposals h), eq_viewed_of_seen standing seen]
    rfl
  · intro cursor limit
    rw [answer_gardenProposalsPage_malformed h]
    by_cases issued : IssuedCursor cursor
    · simp [issued]
    · simp [issued]

section Runs

attribute [local instance] Platform.plain

def gardenHub : MockHubService :=
  MockHubService.after [.seedChunk {
    chunkId := some "c", entry := "build", nodes := .ofList [("build", {})], gardenRun :=
      some ⟨"nightly", "mock"⟩,
    gardenProposals := ["p1", "p2", "p3"].map fun id =>
      { proposalId := id, «class» := "c", title := "t", body := "b" } }]
    (fresh .still)

/-- A sign and a blank are read past: such a cursor, which the hub never issues, is answered with a
page. -/
theorem loose_cursor_served : ¬ IssuedCursor "o:+1" ∧
    ∃ page, answer (gardenProposalsPage "c" .all (some "o:+1") 1) gardenHub = .ok page := by
  refine ⟨?_, _, rfl⟩
  rintro ⟨digits, same, -, ascii⟩
  have text : "o:+1".toList = ['o', ':', '+', '1'] := rfl
  rw [text] at same
  cases same
  exact absurd (ascii '+' (by simp)) (by decide)

theorem garden_pages_by_twos :
    ∃ pages, answer (followPages "c" .all 4 (Stream'.const 2) none) gardenHub = .ok
      (some pages) := by
  have held : gardenHub.store.chunks.get? "c" = some _ := rfl
  obtain ⟨⟨pages, follows, -⟩, -⟩ :=
    garden_pages held rfl (by decide) .all (Stream'.const 2) fun _ => (by decide : 1 ≤ 2)
  exact ⟨pages, follows 4 (by decide)⟩

end Runs

end BlizzardMock.MockHub
