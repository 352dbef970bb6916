import BlizzardMock.Data.Flat
import BlizzardMock.MockHub.FenceLaws

namespace BlizzardMock.MockHub

open Method

/-- What a route token is made of: a claim at a fence, or a re-key of one. -/
inductive RouteGrant
  | claim (chunkId : String) (epoch : Int)
  | rekey (chunkId : String) (epoch : Int) (count : Nat)
  deriving DecidableEq

namespace RouteGrant

def token : RouteGrant → String
  | claim c e => "mock-route-token-" ++ c ++ "-" ++ toString e
  | rekey c e count => "mock-route-token-" ++ c ++ "-" ++ toString e ++ "-rekey" ++ toString count

def isClaim : RouteGrant → Bool
  | claim .. => true
  | rekey .. => false

def epoch : RouteGrant → Int
  | claim _ e => e
  | rekey _ e _ => e

theorem token_claim (c : String) (e : Int) :
    (claim c e).token = "mock-route-token-" ++ c ++ "-" ++ toString e := rfl

theorem dash : "-".toList = ['-'] := rfl

theorem notMem_epoch {e : Int} (h : 0 ≤ e) : '-' ∉ (toString e).toList :=
  Flat.notMem_toString_int (by decide) h

theorem token_claim_inj {c c' : String} {e e' : Int} (he : 0 ≤ e) (he' : 0 ≤ e')
    (same : (claim c e).token = (claim c' e').token) : c = c' ∧ e = e' := by
  rw [token_claim, token_claim] at same
  have parts := Flat.join_inj_last dash (notMem_epoch he) (notMem_epoch he') same
  exact ⟨(String.append_right_inj _).mp parts.1, Flat.toString_int_inj he he' parts.2⟩

theorem token_rekey (c : String) (e : Int) (count : Nat) :
    (rekey c e count).token = (claim c e).token ++ "-" ++ ("rekey" ++ toString count) := by
  have word : "-rekey" = "-" ++ "rekey" := rfl
  change (claim c e).token ++ "-rekey" ++ toString count = _
  rw [word, ← String.append_assoc, String.append_assoc]

theorem notMem_rekey (count : Nat) : '-' ∉ ("rekey" ++ toString count).toList := by
  rw [String.toList_append, List.mem_append]
  intro h
  cases h with
  | inl word => revert word; decide
  | inr digits => exact Flat.notMem_toString (by decide) count digits

theorem token_rekey_inj {c c' : String} {e e' : Int} {k k' : Nat} (he : 0 ≤ e) (he' : 0 ≤ e')
    (same : (rekey c e k).token = (rekey c' e' k').token) : c = c' ∧ e = e' ∧ k = k' := by
  rw [token_rekey, token_rekey] at same
  have parts := Flat.join_inj_last dash (notMem_rekey k) (notMem_rekey k') same
  have claims := token_claim_inj he he' parts.1
  exact ⟨claims.1, claims.2, Flat.toString_inj ((String.append_right_inj _).mp parts.2)⟩

theorem token_claim_ne_rekey {c c' : String} {e e' : Int} {k : Nat} (he : 0 ≤ e) :
    (claim c e).token ≠ (rekey c' e' k).token := by
  intro same
  rw [token_rekey, token_claim] at same
  have parts := Flat.join_inj_last dash (notMem_epoch he) (notMem_rekey k) same
  have letter : 'r' ∈ (toString e).toList := by
    rw [parts.2, String.toList_append]
    exact List.mem_append_left _ (by decide)
  exact Flat.notMem_toString_int (by decide) he letter

theorem token_inj {g g' : RouteGrant} (hg : 0 ≤ g.epoch) (hg' : 0 ≤ g'.epoch)
    (same : g.token = g'.token) :
    g = g' := by
  cases g with
  | claim c e =>
    cases g' with
    | claim c' e' =>
      obtain ⟨rfl, same⟩ := token_claim_inj hg hg' same
      exact congrArg _ same
    | rekey c' e' k => exact absurd same (token_claim_ne_rekey hg)
  | rekey c e k =>
    cases g' with
    | claim c' e' => exact absurd same.symm (token_claim_ne_rekey hg')
    | rekey c' e' k' =>
      obtain ⟨rfl, epochs, rfl⟩ := token_rekey_inj hg hg' same
      exact congrArg (rekey c · k) epochs

end RouteGrant

namespace MockHubService

variable [Platform]

def handedOut : Op → MockHubService → Option String
  | .claim c r w es, hub => (answer (claim c r w es) hub).toOption.map (·.routeToken)
  | .rekeyRouteToken c r, hub => (answer (rekeyRouteToken c r) hub).toOption.map (·.routeToken)
  | _, _ => none

def granted : Op → MockHubService → Option RouteGrant
  | .claim c r w es, hub =>
    (answer (claim c r w es) hub).toOption.bind fun _ =>
      (hub.chunks.get? c).map fun chunk => .claim c chunk.latestEpoch
  | .rekeyRouteToken c r, hub =>
    (answer (rekeyRouteToken c r) hub).toOption.bind fun _ =>
      (hub.chunks.get? c).map fun chunk =>
        .rekey c chunk.latestEpoch (chunk.routeTokenRekeyCount + 1)
  | _, _ => none

def tokens : List Op → MockHubService → List String
  | [], _ => []
  | op :: ops, hub => (handedOut op hub).toList ++ tokens ops (hub.next op)

def grants : List Op → MockHubService → List RouteGrant
  | [], _ => []
  | op :: ops, hub => (granted op hub).toList ++ grants ops (hub.next op)

variable {hub : MockHubService}

theorem claim_routeToken {c r w : String} {es : List String} {response : RouteClaimResponse}
    (answered : answer (claim c r w es) hub = .ok response) :
    ∃ chunk, hub.chunks.get? c = some chunk ∧
      response.routeToken = (RouteGrant.claim c chunk.latestEpoch).token := by
  simp only [claim] at answered
  obtain ⟨chunk, found, answered⟩ := answer_bind_ok answered
  obtain ⟨_, _, answered⟩ := answer_bind_ok answered
  obtain ⟨_, _, answered⟩ := answer_bind_ok answered
  obtain ⟨_, _, answered⟩ := answer_bind_ok answered
  obtain ⟨_, _, answered⟩ := answer_bind_ok answered
  obtain ⟨_, _, answered⟩ := answer_bind_ok answered
  obtain ⟨_, _, answered⟩ := answer_bind_ok answered
  obtain ⟨_, _, answered⟩ := answer_bind_ok answered
  cases answered
  exact ⟨chunk, found_of_require rfl found, rfl⟩

theorem rekeyRouteToken_ok {c r : String} {response : RouteTokenRekeyResponse}
    (answered : answer (rekeyRouteToken c r) hub = .ok response) :
    ∃ chunk token, hub.chunks.get? c = some chunk ∧
      response.routeToken =
        (RouteGrant.rekey c chunk.latestEpoch (chunk.routeTokenRekeyCount + 1)).token ∧
      (Method.after (rekeyRouteToken c r) hub).chunks = hub.chunks.put { chunk with
        routeTokenRekeyCount := chunk.routeTokenRekeyCount + 1, liveRouteToken := some token } := by
  simp only [rekeyRouteToken] at answered ⊢
  obtain ⟨held, found, answered⟩ := answer_bind_ok_iff.mp answered
  obtain ⟨chunk, live, answered⟩ := answer_bind_ok_iff.mp answered
  obtain ⟨_, holder, answered⟩ := answer_bind_ok_iff.mp answered
  obtain ⟨_, allowed, answered⟩ := answer_bind_ok_iff.mp answered
  simp only [Method.after]
  rw [run_bind_of_read found, run_bind_of_read live, run_bind_of_read holder,
    run_bind_of_read allowed]
  cases answered
  cases found
  exact ⟨chunk, _, (Option.filter_eq_some_iff.mp (orRaise_ok.mp live)).1, rfl, rfl⟩

theorem rekeyRouteToken_tidy (c r : String) : Tidy chunks (rekeyRouteToken c r) := by
  simp only [rekeyRouteToken]
  apply tidy_bind
  intro held
  apply tidy_bind
  intro chunk
  apply tidy_bind
  intro _
  apply tidy_bind
  intro _
  exact tidy_write _ _

theorem handedOut_eq (op : Op) (hub : MockHubService) :
    handedOut op hub = (granted op hub).map RouteGrant.token := by
  cases op with
  | claim c r w es =>
    simp only [handedOut, granted]
    cases answered : answer (claim c r w es) hub with
    | error e => rfl
    | ok response =>
      obtain ⟨chunk, held, made⟩ := claim_routeToken answered
      rw [held]
      exact congrArg some made
  | rekeyRouteToken c r =>
    simp only [handedOut, granted]
    cases answered : answer (rekeyRouteToken c r) hub with
    | error e => rfl
    | ok response =>
      obtain ⟨chunk, _, held, made, _⟩ := rekeyRouteToken_ok answered
      rw [held]
      exact congrArg some made
  | _ => rfl

theorem tokens_eq (ops : List Op) (hub : MockHubService) :
    tokens ops hub = (grants ops hub).map RouteGrant.token := by
  induction ops generalizing hub with
  | nil => rfl
  | cons op ops ih =>
    simp only [tokens, grants, List.map_append]
    rw [ih, handedOut_eq]
    cases granted op hub <;> rfl

theorem granted_epoch (fences : hub.AllChunks fun chunk => 0 ≤ chunk.latestEpoch) {op : Op}
    {g : RouteGrant}
    (h : granted op hub = some g) : 0 ≤ g.epoch := by
  cases op with
  | claim c r w es =>
    obtain ⟨_, _, h⟩ := Option.bind_eq_some_iff.mp h
    obtain ⟨chunk, held, rfl⟩ := Option.map_eq_some_iff.mp h
    exact fences c chunk held
  | rekeyRouteToken c r =>
    obtain ⟨_, _, h⟩ := Option.bind_eq_some_iff.mp h
    obtain ⟨chunk, held, rfl⟩ := Option.map_eq_some_iff.mp h
    exact fences c chunk held
  | _ => cases h

theorem fences_next (op : Op) (fences : hub.AllChunks fun chunk => 0 ≤ chunk.latestEpoch) :
    (hub.next op).AllChunks fun chunk => 0 ≤ chunk.latestEpoch :=
  next_allChunks (fun _ _ _ _ => le_refl 0)
    (fun _ _ _ step nonneg => nonneg.trans step.latestEpoch_le) fences

theorem grants_epoch (fences : hub.AllChunks fun chunk => 0 ≤ chunk.latestEpoch) (ops : List Op) :
    ∀ g ∈ grants ops hub, 0 ≤ g.epoch := by
  induction ops generalizing hub with
  | nil => simp [grants]
  | cons op ops ih =>
    intro g mem
    cases List.mem_append.mp mem with
    | inl now => exact granted_epoch fences (Option.mem_toList.mp now)
    | inr later => exact ih (fences_next op fences) g later

/-- The call puts no new chunk in the place of one the hub holds. -/
def KeepsChunks (op : Op) (hub : MockHubService) : Prop :=
  ∀ id chunk, hub.chunks.get? id = some chunk → ¬ Renews id op hub

theorem count_le {op : Op} {chunk later : ChunkState} {id : String}
    (held : hub.chunks.get? id = some chunk)
    (filed : chunk.chunkId = id) (step : ChunkStep hub op chunk later)
    (moved : (hub.next op).chunks.get? id = some later) :
    chunk.routeTokenRekeyCount ≤ later.routeTokenRekeyCount := by
  cases step with
  | @rekeyed _ r token count live holder allowed =>
    cases filed
    change (Method.after (rekeyRouteToken chunk.chunkId r) hub).chunks.get? chunk.chunkId = _
      at moved
    cases answered : answer (rekeyRouteToken chunk.chunkId r) hub with
    | error e =>
      rw [rekeyRouteToken_tidy chunk.chunkId r hub e answered, held] at moved
      have counts := congrArg ChunkState.routeTokenRekeyCount (Option.some.inj moved)
      exact counts.le
    | ok response =>
      obtain ⟨row, _, found, _, put⟩ := rekeyRouteToken_ok answered
      rw [held] at found
      cases found
      rw [put] at moved
      have counts := congrArg ChunkState.routeTokenRekeyCount
        (Option.some.inj ((Table.get?_put_self hub.chunks _).symm.trans moved))
      exact (Nat.le_succ _).trans counts.le
  | paused =>
    simp only [ChunkState.paused]
    split <;> exact le_refl _
  | completed takes landing => cases landing <;> exact le_refl _
  | pushed pushed => rw [pushed.2]
  | _ => exact le_refl _

theorem count_le_next {op : Op} (keeps : KeepsChunks op hub) {id : String} {chunk : ChunkState}
    (held : hub.chunks.get? id = some chunk) :
    ∃ later, (hub.next op).chunks.get? id = some later ∧
      chunk.routeTokenRekeyCount ≤ later.routeTokenRekeyCount := by
  have fate := next_moves op hub id
  rw [held] at fate
  generalize moved : (hub.next op).chunks.get? id = new at fate
  cases fate with
  | kept => exact ⟨chunk, rfl, le_refl _⟩
  | moved filed step => exact ⟨_, rfl, count_le held filed step moved⟩
  | seeded _ _ renews => exact absurd renews (keeps id chunk held)
  | cleared _ renews => exact absurd renews (keeps id chunk held)

theorem granted_rekey {op : Op} {id : String} {e : Int} {k : Nat}
    (h : granted op hub = some (.rekey id e k)) :
    ∃ chunk, hub.chunks.get? id = some chunk ∧ chunk.routeTokenRekeyCount < k ∧
      ∃ later, (hub.next op).chunks.get? id = some later ∧ later.routeTokenRekeyCount = k := by
  cases op with
  | rekeyRouteToken c r =>
    simp only [granted] at h
    cases answered : answer (rekeyRouteToken c r) hub with
    | error e =>
      rw [answered] at h
      cases h
    | ok response =>
      obtain ⟨_, _, h⟩ := Option.bind_eq_some_iff.mp h
      obtain ⟨chunk, held, made⟩ := Option.map_eq_some_iff.mp h
      cases made
      obtain ⟨_, token, found, _, put⟩ := rekeyRouteToken_ok answered
      rw [held] at found
      cases found
      cases Table.key_of_get? held
      refine ⟨chunk, held, Nat.lt_succ_self _, { chunk with
        routeTokenRekeyCount := chunk.routeTokenRekeyCount + 1, liveRouteToken :=
          some token }, ?_, rfl⟩
      change (Method.after (rekeyRouteToken chunk.chunkId r) hub).chunks.get? chunk.chunkId = _
      rw [put]
      exact Table.get?_put_self _ _
  | claim c r w es =>
    obtain ⟨_, _, h⟩ := Option.bind_eq_some_iff.mp h
    obtain ⟨_, _, made⟩ := Option.map_eq_some_iff.mp h
    cases made
  | _ => cases h

theorem count_lt_of_mem_grants {ops : List Op} (run : Meets KeepsChunks ops hub) {id : String}
    {chunk : ChunkState} (held : hub.chunks.get? id = some chunk) {e : Int} {k : Nat}
    (mem : .rekey id e k ∈ grants ops hub) : chunk.routeTokenRekeyCount < k := by
  induction ops generalizing hub chunk with
  | nil => simp [grants] at mem
  | cons op ops ih =>
    cases List.mem_append.mp mem with
    | inl now =>
      obtain ⟨row, found, below, _⟩ := granted_rekey (Option.mem_toList.mp now)
      rw [held] at found
      cases found
      exact below
    | inr later =>
      obtain ⟨row, moved, counts⟩ := count_le_next run.1 held
      exact counts.trans_lt (ih run.2 moved later)

theorem nodup_grants_iff {ops : List Op} (run : Meets KeepsChunks ops hub) :
    (grants ops hub).Nodup ↔ ((grants ops hub).filter RouteGrant.isClaim).Nodup := by
  induction ops generalizing hub with
  | nil => exact Iff.rfl
  | cons op ops ih =>
    simp only [grants]
    cases now : granted op hub with
    | none => exact ih run.2
    | some g =>
      cases g with
      | claim c e =>
        simp only [Option.toList_some, List.singleton_append, List.nodup_cons]
        rw [List.filter_cons_of_pos (by rfl), List.nodup_cons, List.mem_filter, ih run.2]
        exact and_congr_left fun _ => not_congr (and_iff_left rfl).symm
      | rekey c e k =>
        obtain ⟨_, _, _, later, moved, counts⟩ := granted_rekey now
        have fresh : .rekey c e k ∉ grants ops (hub.next op) := by
          intro again
          exact (count_lt_of_mem_grants run.2 moved again).ne counts
        simp only [Option.toList_some, List.singleton_append, List.nodup_cons]
        rw [List.filter_cons_of_neg Bool.false_ne_true, ← ih run.2]
        exact and_iff_right fresh

/-- No token is handed out twice exactly where no chunk is claimed twice at one fence. -/
theorem tokens_nodup_iff {sources : Sources} {ops : List Op}
    (run : Meets KeepsChunks ops (fresh sources)) :
    (tokens ops (fresh sources)).Nodup ↔
      ((grants ops (fresh sources)).filter RouteGrant.isClaim).Nodup := by
  have fences : (fresh sources).AllChunks fun chunk => 0 ≤ chunk.latestEpoch :=
    allChunks_fresh sources
  rw [tokens_eq, ← nodup_grants_iff run]
  constructor
  · intro distinct
    exact distinct.of_map
  · intro distinct
    apply distinct.map_on
    intro g mem g' mem' same
    exact RouteGrant.token_inj (grants_epoch fences ops g mem)
      (grants_epoch fences ops g' mem') same

end MockHubService

section

attribute [local instance] Platform.plain

open MockHubService

def lone : ChunkSpec where
  chunkId := some "c"
  entry := "build"
  nodes := .ofList [("build", {})]

def readyForAnn : List Op :=
  [.registry (.addRunner "ann" firstTenantId (some "r") (some "t") none none),
    .registry (.register "r" {
      workspaceId := "w", capabilities := [{ harnessId := "h", default := true }] }),
    .seedChunk lone]

theorem keepsChunks_lone :
    KeepsChunks (.seedChunk lone) (after (readyForAnn.take 2) (fresh .still)) := by
  intro id chunk held
  cases held

def claimedTwice : List Op :=
  readyForAnn ++ [.claim "c" "r" "w" [], .release "c" "r" 0 "back" none, .claim "c" "r" "w" []]

theorem released_token_returns :
    Meets KeepsChunks claimedTwice (fresh .still) ∧
      tokens claimedTwice (fresh .still) = ["mock-route-token-c-0", "mock-route-token-c-0"] := by
  constructor
  · refine ⟨?_, ?_, keepsChunks_lone, ?_, ?_, ?_, trivial⟩ <;> exact fun _ _ _ => not_renews trivial
  · rfl

def mintedBetween : List Op :=
  readyForAnn ++ [.claim "c" "r" "w" [], .rekeyRouteToken "c" "r",
    .ingestFacts "r" [⟨1, leaseMinted, [("chunk_id", .str "c"), ("epoch", .int 1)]⟩],
    .release "c" "r" 1 "back" none, .claim "c" "r" "w" []]

theorem tokens_nodup_minted_between :
    (tokens mintedBetween (fresh .still)).Nodup ↔
      ((grants mintedBetween (fresh .still)).filter RouteGrant.isClaim).Nodup := by
  have run : Meets KeepsChunks mintedBetween (fresh .still) := by
    refine ⟨?_, ?_, keepsChunks_lone, ?_, ?_, ?_, ?_, ?_, trivial⟩ <;>
      exact fun _ _ _ => not_renews trivial
  exact tokens_nodup_iff run

end

end BlizzardMock.MockHub
