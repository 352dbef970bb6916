import BlizzardMock.Forge.Middleware
import BlizzardMock.Forge.RateLaws
import BlizzardMock.Forge.WriteLaws

namespace BlizzardMock.Forge

open Method

/-- The two surfaces that draw on a credential's windows. -/
inductive Surface | rest | graphql
  deriving DecidableEq

namespace Surface

def bucket : Surface → String → String
  | rest, credential => credential
  | graphql, credential => graphqlBucketPrefix ++ credential

def Serves (path : String) : Surface → Prop
  | rest => startsWith path "/repos/" = true
  | graphql => path = "/graphql"

instance (path : String) : DecidablePred (Serves path)
  | rest => inferInstanceAs (Decidable (_ = true))
  | graphql => inferInstanceAs (Decidable (path = _))

theorem eq_of_serves {path : String} {surface other : Surface} (h : surface.Serves path)
    (h' : other.Serves path) : surface = other := by
  cases surface <;> cases other
  · rfl
  · rw [show path = "/graphql" from h'] at h
    exact absurd h (by decide)
  · rw [show path = "/graphql" from h] at h'
    exact absurd h' (by decide)
  · rfl

theorem bucket_inj {surface : Surface} {credential other : String} :
    surface.bucket credential = surface.bucket other ↔ credential = other := by
  cases surface with
  | rest => rfl
  | graphql => simp [bucket, String.ext_iff]

end Surface

def RateWindow.spend (window : RateWindow) : RateWindow :=
  { window with remaining := max (window.remaining - 1) 0 }

namespace ForgeService

def window (forge : ForgeService) (time : Instant) (bucket : String) : RateWindow :=
  (forge.rate.peek time bucket).1

def reads (forge : ForgeService) (surface : Surface) (credential : String) : RateWindow :=
  forge.window forge.clock.head (surface.bucket credential)

theorem window_eq (forge : ForgeService) (time : Instant) (bucket : String) :
    forge.window time bucket = ⟨forge.rate.limit, (forge.rate.offered time bucket).remaining,
      (forge.rate.offered time bucket).reset⟩ :=
  InMemoryRateLedger.report_peek forge.rate time bucket

def Rests (bucket : String) (forge later : ForgeService) : Prop :=
  ∀ time, forge.clock = Stream'.const time →
    later.clock = Stream'.const time ∧ later.window time bucket = forge.window time bucket

instance (bucket : String) : IsPreorder ForgeService (Rests bucket) where
  refl _ _ still := ⟨still, rfl⟩
  trans _ _ _ first second time still :=
    ⟨(second time (first time still).1).1,
      (second time (first time still).1).2.trans (first time still).2⟩

theorem Rests.reads {forge later : ForgeService} {surface : Surface} {credential : String}
    (h : Rests (surface.bucket credential) forge later) {time : Instant}
    (still : forge.clock = Stream'.const time) :
    later.reads surface credential = forge.reads surface credential := by
  have kept := h time still
  rw [ForgeService.reads, ForgeService.reads, kept.1, still]
  exact kept.2

section Calls

set_option synthInstance.maxSize 1000

variable {bucket : String}

theorem rests_of_eq {forge later : ForgeService} (clock : later.clock = forge.clock)
    (rate : later.rate = forge.rate) : Rests bucket forge later := by
  intro time still
  rw [window, rate, clock]
  exact ⟨still, rfl⟩

instance (priority := low) {α : Type} (m : ForgeM α) [h : Keeps id m] :
    Follows (Rests bucket) m where
  follows forge := by
    rw [show Method.after m forge = forge from h.keeps forge]
    exact refl_of (Rests bucket) forge

instance : Follows (Rests bucket) now where
  follows forge time still := by
    change forge.clock.tail = _ ∧ _
    rw [still, Stream'.tail_const]
    exact ⟨rfl, rfl⟩

instance : Follows (Rests bucket) stamp := ⟨fun _ => rests_of_eq rfl rfl⟩

instance (f : InMemoryForgeState → InMemoryForgeState) : Follows (Rests bucket) (setState f) :=
  ⟨fun _ => rests_of_eq rfl rfl⟩

instance (f : InMemoryLeverStore → InMemoryLeverStore) : Follows (Rests bucket) (setLevers f) :=
  ⟨fun _ => rests_of_eq rfl rfl⟩

instance (f : InMemoryCheckRunStore → InMemoryCheckRunStore) :
    Follows (Rests bucket) (setChecks f) :=
  ⟨fun _ => rests_of_eq rfl rfl⟩

instance (repo : Repo) (pull : PullRequest) : Follows (Rests bucket) (putPull repo pull) :=
  ⟨fun _ => rests_of_eq rfl rfl⟩

instance (repo : Repo) (branch : String) : Follows (Rests bucket) (deleteBranch repo branch) :=
  ⟨fun _ => rests_of_eq rfl rfl⟩

variable [GitHost]

instance (repo : Repo) (branch sha : String) :
    Follows (Rests bucket) (updateRef repo branch sha) := by
  have moves : Follows (Rests bucket) (write fun forge : ForgeService =>
      { forge with git := forge.git.setBranches repo.fullName (·.set branch sha) } : ForgeM Unit) :=
    ⟨fun _ => rests_of_eq rfl rfl⟩
  simp only [updateRef]
  infer_instance

instance (repo : Repo) (branch sha : String) :
    Follows (Rests bucket) (createBranch repo branch sha) := by
  simp only [createBranch]
  infer_instance

instance (method : MergeMethod) (repo : Repo) (git : GitRepo) (base head : String)
    (landed : Except GitFailure String) :
    Follows (Rests bucket) (moveBase method repo git base head landed) := by
  cases landed with
  | error failure => simp only [moveBase]; infer_instance
  | ok sha => simp only [moveBase]; infer_instance

instance (method : MergeMethod) (repo : Repo) (base head message : String) :
    Follows (Rests bucket) (landOn method repo base head message) := by
  simp only [landOn]
  infer_instance

instance (repo : Repo) (pull : PullRequest) (method : MergeMethod) (message : Option String) :
    Follows (Rests bucket) (land repo pull method message) := by
  simp only [land]
  infer_instance

instance (repo : Repo) (pull : PullRequest) (sha mergedBy headSha : String) :
    Follows (Rests bucket) (recordMerge repo pull sha mergedBy headSha) := by
  simp only [recordMerge]
  infer_instance

instance (repo : Repo) (pull : PullRequest) : Follows (Rests bucket) (freeze repo pull) := by
  simp only [freeze]
  infer_instance

instance (repo : Repo) (pull : PullRequest) (state : State) :
    Follows (Rests bucket) (thawed repo pull state) := by
  simp only [thawed]
  infer_instance

instance (repo : Repo) (pull : PullRequest) : Follows (Rests bucket) (closeWith repo pull) := by
  simp only [closeWith]
  infer_instance

instance (repo : Repo) (branch : String) (pulls : List PullRequest) :
    Follows (Rests bucket) (closePulls repo branch pulls) := by
  induction pulls with
  | nil => exact inferInstanceAs (Follows _ (pure ()))
  | cons pull pulls ih => simp only [closePulls]; infer_instance

instance (owner name title body head base user : String) :
    Follows (Rests bucket) (createPull owner name title body head base user) := by
  simp only [createPull]
  infer_instance

instance (owner name : String) (number : Nat) (state : State) :
    Follows (Rests bucket) (setPullState owner name number state) := by
  simp only [setPullState]
  infer_instance

instance (owner name : String) (number : Nat) (method : MergeMethod) (message sha : Option String)
    (user : String) : Follows (Rests bucket)
    (mergePull owner name number method message sha user) := by
  simp only [mergePull]
  infer_instance

instance (owner name : String) (number : Nat) (expectedHeadSha : Option String) :
    Follows (Rests bucket) (updateBranch owner name number expectedHeadSha) := by
  simp only [updateBranch]
  infer_instance

instance (owner name base head : String) (message : Option String) :
    Follows (Rests bucket) (mergeBranches owner name base head message) := by
  simp only [mergeBranches]
  infer_instance

instance (owner name ref sha : String) : Follows (Rests bucket) (createRef owner name ref sha) := by
  simp only [createRef]
  infer_instance

instance (owner name ref sha : String) (force : Bool) :
    Follows (Rests bucket) (updateRefTo owner name ref sha force) := by
  simp only [updateRefTo]
  infer_instance

instance (owner name branch : String) : Follows (Rests bucket) (deleteRef owner name branch) := by
  simp only [deleteRef]
  infer_instance

instance (params : LeverParams) : Follows (Rests bucket) (externalMerge params) := by
  simp only [externalMerge]
  infer_instance

instance (params : LeverParams) : Follows (Rests bucket) (refChecks params) := by
  simp only [refChecks]
  infer_instance

end Calls

end ForgeService

/-- A call neither clears the windows nor sets what a bucket, or every bucket, has left. -/
def Op.Leaves (bucket : String) : Op → Prop
  | .armLever .rateBudget params => ∃ token, params.token = some token ∧ bucket ≠ token
  | .clearAllLevers => False
  | _ => True

namespace ForgeService

variable {bucket : String}

section Leaves

variable [GitHost]

theorem rests_armLever {kind : LeverKind} {params : LeverParams}
    (leaves : (Op.armLever kind params).Leaves bucket) :
    Follows (Rests bucket) (armLever kind params) := by
  have fires : Follows (Rests bucket) (fireActionLever kind params) := by
    cases kind with
    | rateBudget =>
      obtain ⟨token, named, apart⟩ := leaves
      constructor
      intro forge time still
      have kept := InMemoryRateLedger.offered_setBudget_token forge.rate
        forge.clock.head bucket apart
        params.remaining params.reset
      have limit := InMemoryRateLedger.limit_setBudget forge.rate forge.clock.head (some token)
        params.remaining params.reset
      have head : forge.clock.head = time := congrArg Stream'.head still
      refine ⟨(Follows.follows (R := Rests bucket) (m := now) forge time still).1, ?_⟩
      rw [window_eq, window_eq]
      change RateWindow.mk (forge.rate.setBudget forge.clock.head params.token _ _).limit
        ((forge.rate.setBudget forge.clock.head params.token _ _).offered time bucket).remaining
        ((forge.rate.setBudget forge.clock.head params.token _ _).offered time bucket).reset = _
      rw [head] at kept limit
      rw [head, named, kept, limit]
    | externallyMerged => exact inferInstanceAs (Follows _ (externalMerge params))
    | refChecks => exact inferInstanceAs (Follows _ (refChecks params))
    | _ => exact inferInstanceAs (Follows _ (pure ()))
  simp only [armLever]
  split
  · infer_instance
  · split <;> infer_instance

theorem rests_perform {op : Op} (leaves : op.Leaves bucket) :
    Follows (Rests bucket) (perform op) := by
  have discarded {α : Type} (m : ForgeM α) [Follows (Rests bucket) m] :
      Follows (Rests bucket) (discard m : ForgeM Unit) :=
    inferInstanceAs (Follows _ ((fun _ => ()) <$> m))
  cases op with
  | armLever kind params =>
    have := rests_armLever leaves
    exact discarded (armLever kind params)
  | clearLever kind repo number branch pattern =>
    simp only [perform, clearLever]
    infer_instance
  | clearAllLevers => exact leaves.elim
  | deleteRef owner name branch => exact inferInstanceAs (Follows _ (deleteRef owner name branch))
  | _ => exact discarded _

theorem rests_calls {calls : List Op} (leaves : ∀ op ∈ calls, op.Leaves bucket)
    (forge : ForgeService) :
    Rests bucket forge (Machine.after ForgeService.next calls forge) := by
  induction calls generalizing forge with
  | nil => exact refl_of (Rests bucket) forge
  | cons op calls ih =>
    have first : Rests bucket forge (next op forge) :=
      (rests_perform (leaves op List.mem_cons_self)).follows forge
    have rest := ih (fun op mem => leaves op (List.mem_cons_of_mem _ mem)) (next op forge)
    exact trans_of (Rests bucket) first rest

end Leaves

theorem answer_peekRate (forge : ForgeService) :
    Method.answer (peekRate bucket) forge = .ok (forge.window forge.clock.head bucket) := rfl

instance (other : String) : Follows (Rests bucket) (peekRate other) where
  follows forge time still := by
    have head : forge.clock.head = time := congrArg Stream'.head still
    have alike := InMemoryRateLedger.peek_alike forge.rate forge.clock.head other
    rw [head] at alike
    refine ⟨(Follows.follows (R := Rests bucket) (m := now) forge time still).1, ?_⟩
    rw [window_eq, window_eq]
    change RateWindow.mk (forge.rate.peek forge.clock.head other).2.limit
      ((forge.rate.peek forge.clock.head other).2.offered time bucket).remaining
      ((forge.rate.peek forge.clock.head other).2.offered time bucket).reset = _
    rw [head, alike.limit, alike.offered]

theorem countRate_spends {forge : ForgeService} {time : Instant}
    (still : forge.clock = Stream'.const time) (bucket other : String) :
    (Method.after (countRate other) forge).clock = Stream'.const time ∧
      (Method.after (countRate other) forge).window time bucket =
        if bucket = other then (forge.window time bucket).spend else forge.window time bucket := by
  have head : forge.clock.head = time := congrArg Stream'.head still
  refine ⟨(Follows.follows (R := Rests bucket) (m := now) forge time still).1, ?_⟩
  rw [window_eq, window_eq]
  change RateWindow.mk (forge.rate.count forge.clock.head other).2.limit
    ((forge.rate.count forge.clock.head other).2.offered time bucket).remaining
    ((forge.rate.count forge.clock.head other).2.offered time bucket).reset = _
  rw [head, InMemoryRateLedger.limit_count, InMemoryRateLedger.offered_count]
  split
  case isTrue same => rw [same]; rfl
  case isFalse => rfl

end ForgeService

def bendingLevers : List LeverKind :=
  [.unreachable, .tokenRejected, .rateLimited, .secondaryRateLimited]

def Request.Refused (request : Request) (forge : ForgeService) : Prop :=
  ¬ request.Exempt ∧
    ∃ kind ∈ bendingLevers, (forge.levers.find kind (repoFromPath request.path) none).isSome = true

instance (request : Request) (forge : ForgeService) : Decidable (request.Refused forge) :=
  inferInstanceAs (Decidable (_ ∧ ∃ kind ∈ bendingLevers, _))

namespace ForgeService

theorem run_bending {kind : LeverKind} {request : Request} {α : Type} (forge : ForgeService)
    (g : Option ArmedLever → ForgeM α) : (bending kind request >>= g).run forge =
      (g (forge.levers.find kind (repoFromPath request.path) none)).run forge := rfl

theorem run_peekRate_bind {α : Type} (forge : ForgeService) (g : RateWindow → ForgeM α) :
    (peekRate bucket >>= g).run forge =
      (g (forge.window forge.clock.head bucket)).run (Method.after (peekRate bucket) forge) := rfl

theorem leverMiddleware_cases (request : Request) (callNext : ForgeM Response)
    (forge : ForgeService) :
    (request.Refused forge ∧ ∃ response later,
      (leverMiddleware request callNext).run forge = .ok response later ∧
        ∀ bucket, Rests bucket forge later) ∨
    (¬ request.Refused forge ∧ ∃ later,
      (leverMiddleware request callNext).run forge = callNext.run later ∧
        ∀ bucket, Rests bucket forge later) := by
  rw [leverMiddleware]
  by_cases exempt : request.Exempt
  · rw [if_pos exempt]
    exact .inr ⟨fun refused => refused.1 exempt, forge, rfl, fun _ => refl_of _ forge⟩
  rw [if_neg exempt]
  have found {kind : LeverKind} {lever : ArmedLever} (bends : kind ∈ bendingLevers)
      (h : forge.levers.find kind (repoFromPath request.path) none = some lever) :
      request.Refused forge := ⟨exempt, kind, bends, by rw [h]; rfl⟩
  cases unreachable : forge.levers.find .unreachable (repoFromPath request.path) none with
  | some lever =>
    rw [run_bending, unreachable]
    exact .inl ⟨found (by decide) unreachable, _, forge, rfl, fun _ => refl_of _ forge⟩
  | none =>
  rw [run_bending, unreachable, if_neg (by nofun)]
  cases rejected : forge.levers.find .tokenRejected (repoFromPath request.path) none with
  | some lever =>
    rw [run_bending, rejected]
    exact .inl ⟨found (by decide) rejected, _, forge, rfl, fun _ => refl_of _ forge⟩
  | none =>
  rw [run_bending, rejected, if_neg (by nofun), run_peekRate_bind]
  -- the window is read before the two levers that answer 403, and no lever moves with it
  generalize read : Method.after (peekRate request.bucket) forge = later
  have levers : later.levers = forge.levers := read ▸ rfl
  have rests (bucket : String) : Rests bucket forge later :=
    read ▸ Follows.follows (m := peekRate request.bucket) forge
  have spent (bucket : String) (lever : ArmedLever) :
      Rests bucket forge (Method.after (setLevers (·.consume lever)) later) :=
    trans_of (Rests bucket) (rests bucket)
      (Follows.follows (m := setLevers (·.consume lever)) later)
  cases rated : forge.levers.find .rateLimited (repoFromPath request.path) none with
  | some lever =>
    rw [run_bending, levers, rated]
    exact .inl ⟨found (by decide) rated, _, _, rfl, fun bucket => spent bucket lever⟩
  | none =>
  rw [run_bending, levers, rated]
  dsimp only
  cases secondary : forge.levers.find .secondaryRateLimited (repoFromPath request.path) none with
  | some lever =>
    rw [run_bending, levers, secondary]
    exact .inl ⟨found (by decide) secondary, _, _, rfl, fun bucket => spent bucket lever⟩
  | none =>
    rw [run_bending, levers, secondary]
    refine .inr ⟨?_, later, rfl, rests⟩
    rintro ⟨-, kind, bends, armed⟩
    have unarmed : ∀ kind ∈ bendingLevers,
        forge.levers.find kind (repoFromPath request.path) none = none := by
      simp [bendingLevers, unreachable, rejected, rated, secondary]
    rw [unarmed kind bends] at armed
    cases armed

end ForgeService

namespace Visit

open ForgeService

variable [GitHost] [Digest]

def status (visit : Visit) (forge : ForgeService) : Option Nat :=
  (Method.answer visit.respond forge).toOption.map (·.status)

def Draws (visit : Visit) (forge : ForgeService) : Surface → Prop
  | .rest => visit.status forge ≠ some 304
  | .graphql => 0 < (forge.reads .graphql visit.request.bucket).remaining

instance (visit : Visit) (forge : ForgeService) : DecidablePred (visit.Draws forge)
  | .rest => inferInstanceAs (Decidable (_ ≠ _))
  | .graphql => inferInstanceAs (Decidable (_ < _))

/-- A request spends from the window a credential has on a surface: it is the credential's own, to
that surface, and no lever refuses it. -/
def Spends (visit : Visit) (surface : Surface) (credential : String) (forge : ForgeService) :
    Prop :=
  surface.Serves visit.request.path ∧ visit.request.bucket = credential ∧
    ¬ visit.request.Refused forge ∧ visit.Draws forge surface

instance (visit : Visit) (surface : Surface) (credential : String) (forge : ForgeService) :
    Decidable (visit.Spends surface credential forge) :=
  inferInstanceAs (Decidable (_ ∧ _ ∧ _ ∧ _))

/-- A visit that cannot be taken for another, asked of those no lever refuses: what it carries to
the other surface, if it is answered, is not the bucket the credential has on this one, no call of
it sets that bucket, and one of the credential to the surface is answered. -/
structure Spares (surface : Surface) (credential : String) (visit : Visit) : Prop where
  calls : ∀ op ∈ visit.calls, op.Leaves (surface.bucket credential)
  apart : visit.answer.isSome = true → ∀ other, other ≠ surface → other.Serves visit.request.path →
    other.bucket visit.request.bucket ≠ surface.bucket credential
  answered : surface.Serves visit.request.path → visit.request.bucket = credential →
    visit.answer.isSome = true

omit [Digest] in
theorem answer_route {visit : Visit} {response : Response} (answered : visit.answer = some response)
    (forge : ForgeService) : Method.answer visit.route forge = .ok response := by
  rw [route, answered]
  rfl

omit [Digest] in
theorem rests_route {visit : Visit} {bucket : String} (calls : ∀ op ∈ visit.calls, op.Leaves bucket)
    (forge : ForgeService) : Rests bucket forge (Method.after visit.route forge) := by
  have called := rests_calls calls forge
  rw [route, after_bind_of_ok _ rfl, after_orRaise]
  exact called

omit [Digest] in
theorem graphql_cases {visit : Visit} {bucket : String} (forge : ForgeService)
    (calls : ∀ op ∈ visit.calls, op.Leaves bucket) {response : Response}
    (answered : visit.answer = some response) :
    if 0 < (forge.reads .graphql visit.request.bucket).remaining then
      ∃ later, Rests bucket forge later ∧
        Method.after (ForgeService.graphql visit.request visit.route) forge =
          Method.after (countRate (Surface.graphql.bucket visit.request.bucket)) later
    else Rests bucket forge
      (Method.after (ForgeService.graphql visit.request visit.route) forge) := by
  have read : Rests bucket forge (Method.after
      (peekRate (Surface.graphql.bucket visit.request.bucket)) forge) := Follows.follows forge
  rw [ForgeService.graphql, after_bind_of_ok _ (answer_peekRate forge)]
  split
  case isTrue left =>
    have enough := Int.not_le.mpr left
    refine ⟨_, trans_of (Rests bucket) read (rests_route calls _), ?_⟩
    rw [reads, Surface.bucket] at enough
    rw [if_neg enough, after_bind_of_ok _ (answer_route answered _), after_bind_pure]
    rfl
  case isFalse spent =>
    have exhausted := Int.not_lt.mp spent
    rw [reads, Surface.bucket] at exhausted
    rw [if_pos exhausted]
    exact read

theorem rest_cases {visit : Visit} {bucket : String} (forge : ForgeService)
    (served : Surface.rest.Serves visit.request.path) (calls : ∀ op ∈ visit.calls, op.Leaves bucket)
    {response : Response} (answered : visit.answer = some response) :
    ∃ given later, (rateHeaderMiddleware visit.request visit.route).run forge = .ok given later ∧
      if given.status = 304 then Rests bucket forge later
      else ∃ mid, Rests bucket forge mid ∧
        later = Method.after (countRate (Surface.rest.bucket visit.request.bucket)) mid := by
  have other : visit.request.path ≠ "/graphql" := by
    intro same
    have := Surface.eq_of_serves served (show Surface.graphql.Serves visit.request.path from same)
    cases this
  have routed := rests_route calls forge
  have ran : visit.route.run forge = .ok response (Method.after visit.route forge) := by
    rw [run_eq, answer_route answered]
  have modified := visit.modified response answered
  rw [rateHeaderMiddleware, if_neg other, if_neg (ne_false_of_eq_true served), run_bind_of_run ran]
  dsimp only
  split
  case isTrue =>
    have read := Follows.follows (R := Rests bucket)
      (m := peekRate (Surface.rest.bucket visit.request.bucket)) (Method.after visit.route forge)
    refine ⟨_, _, rfl, ?_⟩
    rw [if_pos rfl]
    exact trans_of (Rests bucket) routed read
  case isFalse =>
    refine ⟨_, _, rfl, ?_⟩
    rw [if_neg modified]
    exact ⟨_, routed, rfl⟩

omit [Digest] in
theorem error_route {visit : Visit} (unanswered : visit.answer = none) (forge : ForgeService) :
    Method.answer visit.route forge = .error .gitCommandError := by
  rw [route, unanswered]
  rfl

theorem unanswered_rests {visit : Visit} {bucket : String} (unanswered : visit.answer = none)
    (calls : ∀ op ∈ visit.calls, op.Leaves bucket) (forge : ForgeService) :
    Rests bucket forge (Method.after (rateHeaderMiddleware visit.request visit.route) forge) := by
  rw [rateHeaderMiddleware]
  split
  case isTrue =>
    have read : Rests bucket forge (Method.after
        (peekRate (Surface.graphql.bucket visit.request.bucket)) forge) := Follows.follows forge
    rw [ForgeService.graphql, after_bind_of_ok _ (answer_peekRate forge), after_ite]
    split
    case isTrue => exact read
    case isFalse =>
      rw [after_bind_of_error _ (error_route unanswered _)]
      exact trans_of (Rests bucket) read (rests_route calls _)
  case isFalse =>
    rw [after_ite]
    split
    case isTrue => exact rests_route calls forge
    case isFalse =>
      rw [after_bind_of_error _ (error_route unanswered _)]
      exact rests_route calls forge

theorem admitted_cases {visit : Visit} {bucket : String} {forge later : ForgeService}
    {time : Instant}
    (still : forge.clock = Stream'.const time) (calls : ∀ op ∈ visit.calls, op.Leaves bucket)
    {response : Response}
    (given : visit.answer = some response) (ran : visit.respond.run forge =
      (rateHeaderMiddleware visit.request visit.route).run later)
        (rests : ∀ bucket, Rests bucket forge later) :
    (Rests bucket forge (visit.next forge) ∧ ∀ surface : Surface,
      surface.Serves visit.request.path →
      ¬ visit.Draws forge surface) ∨
    (∃ surface : Surface, surface.Serves visit.request.path ∧ visit.Draws forge surface ∧ ∃ mid,
      Rests bucket forge mid ∧
        visit.next forge = Method.after (countRate (surface.bucket visit.request.bucket)) mid) := by
  have next_eq : visit.next forge = Method.after
    (rateHeaderMiddleware visit.request visit.route) later :=
    after_of_run ran
  have status_eq : visit.status forge =
      (Method.answer (rateHeaderMiddleware visit.request visit.route) later).toOption.map
        (·.status) := by
    rw [status, answer_of_run ran]
  by_cases rest : Surface.rest.Serves visit.request.path
  · obtain ⟨reply, last, done, counted⟩ := rest_cases later rest calls given
    rw [Method.after, done] at next_eq
    rw [Method.answer, done] at status_eq
    have only (surface : Surface) (serves : surface.Serves visit.request.path) : surface = .rest :=
      Surface.eq_of_serves serves rest
    split at counted
    case isTrue same =>
      refine .inl ⟨next_eq ▸ trans_of (Rests bucket) (rests bucket) counted,
        fun surface serves draws => ?_⟩
      rw [only surface serves] at draws
      exact draws (status_eq.trans (congrArg some same))
    case isFalse apart =>
      obtain ⟨mid, kept, counted⟩ := counted
      refine .inr ⟨.rest, rest, fun same => ?_, mid, trans_of (Rests bucket) (rests bucket) kept,
        next_eq.trans counted⟩
      exact apart (Option.some.inj (status_eq.symm.trans same))
  by_cases path : visit.request.path = "/graphql"
  · have counted := graphql_cases later calls given
    rw [(rests (Surface.graphql.bucket visit.request.bucket)).reads still] at counted
    rw [rateHeaderMiddleware, if_pos path] at next_eq
    split at counted
    case isTrue left =>
      obtain ⟨mid, kept, counted⟩ := counted
      exact .inr ⟨.graphql, path, left, mid, trans_of (Rests bucket) (rests bucket) kept,
        next_eq.trans counted⟩
    case isFalse spent =>
      refine .inl ⟨next_eq ▸ trans_of (Rests bucket) (rests bucket) counted,
        fun surface serves draws => ?_⟩
      rw [Surface.eq_of_serves serves (show Surface.graphql.Serves visit.request.path from path)]
        at draws
      exact spent draws
  · rw [rateHeaderMiddleware, if_neg path, if_pos (Bool.eq_false_iff.mpr rest)] at next_eq
    refine .inl ⟨next_eq ▸ trans_of (Rests bucket) (rests bucket) (rests_route calls later), ?_⟩
    intro surface serves
    cases surface with
    | rest => exact absurd serves rest
    | graphql => exact absurd serves path

theorem respond_cases {visit : Visit} {bucket : String} {forge : ForgeService} {time : Instant}
    (still : forge.clock = Stream'.const time)
    (calls : ¬ visit.request.Refused forge → ∀ op ∈ visit.calls, op.Leaves bucket) :
    (Rests bucket forge (visit.next forge) ∧ ∀ surface : Surface,
      surface.Serves visit.request.path →
      ¬ visit.request.Refused forge → visit.answer.isSome = true → ¬ visit.Draws forge surface) ∨
    (∃ surface : Surface, surface.Serves visit.request.path ∧ ¬ visit.request.Refused forge ∧
      visit.answer.isSome = true ∧ visit.Draws forge surface ∧ ∃ mid, Rests bucket forge mid ∧
        visit.next forge = Method.after (countRate (surface.bucket visit.request.bucket)) mid) := by
  obtain ⟨refused, _, later, ran, rests⟩ | ⟨admitted, later, ran, rests⟩ :=
    leverMiddleware_cases visit.request (rateHeaderMiddleware visit.request visit.route) forge
  · refine .inl ⟨?_, fun _ _ admitted => absurd refused admitted⟩
    rw [next, respond, Method.after, ran]
    exact rests bucket
  cases given : visit.answer with
  | none =>
    refine .inl ⟨?_, fun _ _ _ answered => by cases answered⟩
    rw [next, respond, after_of_run ran]
    exact trans_of (Rests bucket) (rests bucket) (unanswered_rests given (calls admitted) later)
  | some response =>
    obtain ⟨kept, idle⟩ | ⟨surface, serves, draws, counted⟩ :=
      admitted_cases still (calls admitted) given ran rests
    · exact .inl ⟨kept, fun surface serves _ _ => idle surface serves⟩
    · exact .inr ⟨surface, serves, admitted, rfl, draws, counted⟩

theorem reads_next {visit : Visit} {forge : ForgeService} {time : Instant} {surface : Surface}
    {credential : String} (still : forge.clock = Stream'.const time)
    (spares : ¬ visit.request.Refused forge → visit.Spares surface credential) :
    (visit.next forge).clock = Stream'.const time ∧
      (visit.next forge).reads surface credential =
        if visit.Spends surface credential forge then (forge.reads surface credential).spend
        else forge.reads surface credential := by
  obtain ⟨rests, idle⟩ | ⟨other, serves, admitted, answered, draws, mid, rests, counted⟩ :=
    respond_cases still fun admitted => (spares admitted).calls
  · refine ⟨(rests time still).1, ?_⟩
    rw [if_neg]
    · exact rests.reads still
    · rintro ⟨serves, own, admitted, draws⟩
      exact idle surface serves admitted ((spares admitted).answered serves own) draws
  · have kept := rests time still
    have spent := countRate_spends kept.1 (surface.bucket credential)
      (other.bucket visit.request.bucket)
    rw [← counted] at spent
    refine ⟨spent.1, ?_⟩
    rw [reads, reads, spent.1, still]
    rw [kept.2] at spent
    change (visit.next forge).window time _ = if _ then (forge.window time _).spend
      else forge.window time _
    rw [spent.2]
    apply if_congr _ rfl rfl
    constructor
    · intro same
      by_cases own : other = surface
      · subst own
        exact ⟨serves, (Surface.bucket_inj.mp same).symm, admitted, draws⟩
      · exact absurd same.symm ((spares admitted).apart answered other own serves)
    · intro spends
      rw [Surface.eq_of_serves spends.1 serves, spends.2.1]

def spent (surface : Surface) (credential : String) : List Visit → ForgeService → Nat
  | [], _ => 0
  | visit :: visits, forge =>
    (if visit.Spends surface credential forge then 1 else 0) +
      spent surface credential visits (visit.next forge)

theorem windows_metered {forge : ForgeService} {time : Instant} {surface : Surface}
    {credential : String}
    {visits : List Visit} (still : forge.clock = Stream'.const time) (spares : Machine.Meets next
      (fun visit forge =>
        ¬ visit.request.Refused forge → visit.Spares surface credential) visits forge) :
    (Machine.after next visits forge).reads surface credential =
      RateWindow.spend^[spent surface credential visits forge]
        (forge.reads surface credential) := by
  induction visits generalizing forge with
  | nil => rfl
  | cons visit visits ih =>
    have first := reads_next still spares.1
    rw [Machine.after_cons, ih first.1 spares.2, first.2, spent]
    split
    case isTrue => rw [Nat.add_comm, Function.iterate_succ_apply]
    case isFalse => rw [Nat.zero_add]

omit [GitHost] [Digest] in
theorem spares_rest {visit : Visit} {credential : String}
    (calls : ∀ op ∈ visit.calls, op.Leaves credential)
    (plain : startsWith credential graphqlBucketPrefix = false)
    (answered : visit.request.bucket = credential → visit.answer.isSome = true) :
    visit.Spares .rest credential where
  calls := calls
  apart _ other foreign _ same := by
    cases other with
    | rest => exact foreign rfl
    | graphql =>
      rw [← show _ = credential from same] at plain
      simp [Surface.bucket] at plain
  answered _ := answered

omit [GitHost] [Digest] in
theorem spares_graphql {visit : Visit} {credential : String}
    (calls : ∀ op ∈ visit.calls, op.Leaves (Surface.graphql.bucket credential))
    (plain : startsWith visit.request.bucket graphqlBucketPrefix = false)
    (answered : visit.request.bucket = credential → visit.answer.isSome = true) :
    visit.Spares .graphql credential where
  calls := calls
  apart _ other foreign _ same := by
    cases other with
    | graphql => exact foreign rfl
    | rest =>
      rw [show visit.request.bucket = _ from same] at plain
      simp [Surface.bucket] at plain
  answered _ := answered

def bearing (credential method path : String) : Visit where
  request := { method, path, authorization := some ("Bearer " ++ credential) }
  answer := some { status := 200, body := .json .null }
  modified _ given := by
    rw [← Option.mem_some_iff.mp given]
    decide

end Visit

abbrev Digest.plain : Digest := ⟨fun _ => ""⟩

def stillToy : ForgeService := .fresh toyGit (Stream'.const 0) id

namespace Visit

attribute [local instance] GitHost.plain Digest.plain

/-- A credential that begins like the bucket of a GraphQL window spends that window with a request
of its own to `/repos/`. -/
theorem rest_spends_graphql :
    let visit := bearing "graphql:t" "GET" "/repos/octocat/toy"
    visit.request.bucket ≠ "t" ∧ stillToy.reads .graphql "t" = ⟨5000, 5000, 3600⟩ ∧
      (visit.next stillToy).reads .graphql "t" = ⟨5000, 4999, 3600⟩ := by
  decide

def failing (credential method path : String) : Visit :=
  { bearing credential method path with answer := none, modified := by simp }

theorem windows_metered_three :
    let visits := [bearing "t" "GET" "/repos/octocat/toy", bearing "t" "POST" "/graphql",
      failing "u" "GET" "/repos/octocat/toy"]
    (Machine.after next visits stillToy).reads .rest "t" =
      RateWindow.spend^[spent .rest "t" visits stillToy] ⟨5000, 5000, 3600⟩ := by
  intro visits
  have calls (credential method path : String) :
      ∀ op ∈ (bearing credential method path).calls, op.Leaves "t" := by simp [bearing]
  refine windows_metered rfl ⟨fun _ => ?_, fun _ => ?_, fun _ => ?_, trivial⟩
  · exact spares_rest (calls _ _ _) (by decide) fun _ => rfl
  · exact spares_rest (calls _ _ _) (by decide) fun _ => rfl
  · exact spares_rest (calls "u" "GET" "/repos/octocat/toy")
      (by decide) fun own => absurd own (by decide)

end Visit

end BlizzardMock.Forge
