import BlizzardMock.MockHub.OfferLaws

namespace BlizzardMock.MockHub

open Method MockHubService

abbrev Placing := ChunkState × Nat

namespace Placing

def Heads (ready : List Placing) (c : Placing) : Prop :=
  (ready.filter fun d => d.1.projectId = c.1.projectId).head? = some c

instance (ready : List Placing) (c : Placing) : Decidable (Heads ready c) :=
  inferInstanceAs (Decidable (_ = _))

theorem heads_iff {before rest : List Placing} {c : Placing} (nodup : (before ++ c :: rest).Nodup) :
    Heads (before ++ c :: rest) c ↔ ∀ d ∈ before, d.1.projectId ≠ c.1.projectId := by
  have new : c ∉ before := fun mem =>
    (List.nodup_append.mp nodup).2.2 c mem c List.mem_cons_self rfl
  simp only [Heads, List.filter_append, List.filter_cons_of_pos, decide_true]
  cases earlier : before.filter fun d => decide (d.1.projectId = c.1.projectId) with
  | nil =>
    apply iff_of_true rfl
    intro d mem same
    have kept : d ∈ before.filter fun d => decide (d.1.projectId = c.1.projectId) :=
      List.mem_filter.mpr ⟨mem, decide_eq_true same⟩
    rw [earlier] at kept
    cases kept
  | cons d ds =>
    have kept : d ∈ before.filter fun d => decide (d.1.projectId = c.1.projectId) := by
      rw [earlier]
      exact List.mem_cons_self
    obtain ⟨mem, same⟩ := List.mem_filter.mp kept
    apply iff_of_false
    · intro head
      cases head
      exact new mem
    · exact fun apart => apart d mem (of_decide_eq_true same)

end Placing

section Peeks

variable [Platform]

section Selection

variable (levers : InMemoryLeverStore) (capabilities : List RunnerCapability)
    (offered : List String)

def Placing.offers (c : Placing) : Bool := decide (c.1.projectId ∈ offered)

def Placing.usable (c : Placing) : Bool := !unusable levers capabilities c.1

def reference (policy : Matching.QueueMatchPolicy) (filtered : Bool) (ready : List Placing) :
    Option Placing :=
  match policy, filtered with
  | .passOver, _ => ready.find? fun c => c.offers offered && c.usable levers capabilities
  | .hold, false => (ready.find? (·.offers offered)).filter (·.usable levers capabilities)
  | .hold, true => ready.find? fun c =>
      c.offers offered && decide (c.Heads ready) && c.usable levers capabilities

variable {levers capabilities offered}

theorem selectMatched_passOver (filtered : Bool) (ready : List Placing) :
    selectMatched levers capabilities .passOver offered filtered ready [] =
      reference levers capabilities offered .passOver filtered ready := by
  simp only [reference]
  induction ready with
  | nil => rfl
  | cons c rest ih =>
    simp only [selectMatched, List.find?_cons, Placing.offers, Placing.usable, ih]
    by_cases served : c.1.projectId ∈ offered
    · cases unusable levers capabilities c.1 <;> simp [served]
    · simp [served]

theorem selectMatched_hold (ready : List Placing) :
    selectMatched levers capabilities .hold offered false ready [] =
      reference levers capabilities offered .hold false ready := by
  simp only [reference]
  induction ready with
  | nil => rfl
  | cons c rest ih =>
    simp only [selectMatched, List.find?_cons, Placing.offers, ih]
    by_cases served : c.1.projectId ∈ offered
    · cases idle : unusable levers capabilities c.1 <;>
        simp [served, Option.filter, Placing.usable, idle]
    · simp [served]

def CameUp (offered : List String) (before : List Placing) (stopped : List String) : Prop :=
  ∀ id ∈ offered, id ∈ stopped ↔ ∃ d ∈ before, d.1.projectId = id

omit [Platform] in
theorem CameUp.next {before : List Placing} {c : Placing} {stopped later : List String}
    (held : CameUp offered before stopped)
    (adds : ∀ id ∈ offered, id ∈ later ↔ id ∈ stopped ∨ c.1.projectId = id) :
    CameUp offered (before ++ [c]) later := by
  intro id mem
  rw [adds id mem, held id mem]
  simp [or_and_right, exists_or]

theorem selectMatched_holdProjects {before rest : List Placing} (nodup : (before ++ rest).Nodup)
    {stopped : List String} (held : CameUp offered before stopped) :
    selectMatched levers capabilities .hold offered true rest stopped = rest.find? fun c =>
      c.offers offered && decide (c.Heads (before ++ rest)) && c.usable levers capabilities := by
  induction rest generalizing before stopped with
  | nil => rfl
  | cons c rest ih =>
    have split : before ++ c :: rest = before ++ [c] ++ rest := by simp
    have heads := Placing.heads_iff nodup
    rw [split] at nodup
    simp only [selectMatched, List.find?_cons]
    by_cases served : c.1.projectId ∈ offered
    · by_cases stops : c.1.projectId ∈ stopped
      · -- its project came up before, so it does not head it
        obtain ⟨d, mem, same⟩ := (held _ served).mp stops
        have follows : ¬ c.Heads (before ++ c :: rest) := fun head => heads.mp head d mem same
        have later : CameUp offered (before ++ [c]) stopped := by
          refine held.next fun id _ => (or_iff_left_of_imp fun same => ?_).symm
          rwa [← same]
        rw [if_pos (.inr stops), ih nodup later, decide_eq_false follows, ← split]
        simp
      · have head : c.Heads (before ++ c :: rest) :=
          heads.mpr fun d mem same => stops ((held _ served).mpr ⟨d, mem, same⟩)
        have open' : ¬ (c.1.projectId ∉ offered ∨ c.1.projectId ∈ stopped) := by
          simp [served, stops]
        rw [if_neg open', decide_eq_true head]
        cases idle : unusable levers capabilities c.1 with
        | false => simp [Placing.offers, Placing.usable, served, idle]
        | true =>
          have later : CameUp offered (before ++ [c]) (c.1.projectId :: stopped) :=
            held.next fun id _ => by rw [List.mem_cons, or_comm, eq_comm]
          simp only [not_true_eq_false, if_false, if_true, ih nodup later, ← split]
          simp [Placing.usable, idle]
    · have later : CameUp offered (before ++ [c]) stopped := by
        refine held.next fun id mem => (or_iff_left fun same => served ?_).symm
        rwa [same]
      rw [if_pos (.inl served), ih nodup later, ← split]
      simp [Placing.offers, served]

theorem selectMatched_reference (policy : Matching.QueueMatchPolicy) (filtered : Bool)
    {ready : List Placing}
    (nodup : ready.Nodup) : selectMatched levers capabilities policy offered filtered ready [] =
      reference levers capabilities offered policy filtered ready := by
  cases policy with
  | passOver => exact selectMatched_passOver filtered ready
  | hold =>
    cases filtered with
    | false => exact selectMatched_hold ready
    | true =>
      have nothing : CameUp offered [] [] := by simp [CameUp]
      have whole : ([] ++ ready).Nodup := nodup
      exact selectMatched_holdProjects whole nothing

end Selection

namespace MockHubService

omit [Platform] in
theorem nodup_placings (chunks : List ChunkState) : chunks.zipIdx.Nodup := by
  apply List.Nodup.of_map Prod.snd
  rw [List.zipIdx_map_snd]
  exact List.nodup_range'

variable {hub : MockHubService}

theorem answer_peek (r : Option String) : answer (peek r none) hub =
    .ok ((readyChunks hub.store.toHubRows).zipIdx.map fun c =>
      peekEntry hub.store.toRegistry hub.levers c.2 c.1) := by
  have unnarrowed : peekProject r none = pure none := by
    cases r <;> rfl
  simp only [peek, answer]
  rw [unnarrowed]
  simp only [pure_bind, Option.all_none, List.filter_true]
  rfl

theorem answer_peekMatched {r policy : String} {capabilities : List RunnerCapability}
    {projects : Option (List String)} {row : RunnerRow}
    (added : hub.store.runners.get? r = some row) :
    answer (peekMatched r capabilities policy projects) hub = .ok
      ((matchedChunk hub.store.toHubRows hub.levers row capabilities policy projects).map fun c =>
        { peekEntry hub.store.toRegistry hub.levers c.2 c.1 with blocked := none }).toList := by
  have present : answer (MockHubService.added r) hub = .ok row := orRaise_ok.mpr added
  simp only [peekMatched, answer]
  rw [run_bind_of_read present]
  rfl

/-- A matched peek of a runner offers the one chunk its policy selects of the ready order, or none,
as the entry the whole peek lists at its position. -/
theorem peekMatched_selects {r : String} {row : RunnerRow}
    (added : hub.store.runners.get? r = some row)
    (policy : String) (capabilities : List RunnerCapability) (projects : Option (List String))
    (asker : Option String) :
    let selected := reference hub.levers capabilities
      (offeredProjectIds hub.store.toRegistry row projects)
      (.of policy) projects.isSome (readyChunks hub.store.toHubRows).zipIdx
    ∃ matched listed, answer (peekMatched r capabilities policy projects) hub = .ok matched ∧
      answer (peek asker none) hub = .ok listed ∧
      matched.map (fun entry => (entry.chunkId, entry.position)) =
        (selected.map fun c => (c.1.chunkId, c.2)).toList ∧
      ∀ entry ∈ matched, listed[entry.position]? = some entry := by
  intro selected
  have found : matchedChunk hub.store.toHubRows hub.levers row capabilities policy projects =
    selected :=
    selectMatched_reference _ _ (nodup_placings _)
  refine ⟨_, _, answer_peekMatched added, answer_peek asker, ?_, fun entry mem => ?_⟩
  · rw [found]
    cases selected <;> rfl
  · obtain ⟨c, matched, same⟩ := Option.map_eq_some_iff.mp (Option.mem_toList.mp mem)
    obtain ⟨ready, _, usable⟩ := selectMatched_some matched
    have unblocked := Option.not_isSome_iff_eq_none.mp
      (Bool.eq_false_iff.mp (Bool.or_eq_false_iff.mp usable).1)
    have listed := List.mem_zipIdx_iff_getElem?.mp ready
    rw [← same, List.getElem?_map, List.getElem?_zipIdx]
    simp only [peekEntry, listed, unblocked, Option.map_some, Nat.zero_add]

end MockHubService

end Peeks

section

attribute [local instance] Platform.plain

theorem peekMatched_selects_ready :
    ∃ matched listed, answer (peekMatched "r" [harness] "hold" none) readyToClaim = .ok matched ∧
      answer (peek none none) readyToClaim = .ok listed ∧
      matched.map (fun entry => (entry.chunkId, entry.position)) =
        ((reference readyToClaim.levers [harness] [firstProjectId] .hold false
          (readyChunks readyToClaim.store.toHubRows).zipIdx).map fun c =>
            (c.1.chunkId, c.2)).toList ∧
      ∀ entry ∈ matched, listed[entry.position]? = some entry := by
  have added : readyToClaim.store.runners.get? "r" = some _ := rfl
  exact peekMatched_selects added "hold" [harness] none none

end

end BlizzardMock.MockHub
