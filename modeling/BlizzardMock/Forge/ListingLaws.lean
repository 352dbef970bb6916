import BlizzardMock.Forge.Listing
import BlizzardMock.Forge.PullLaws
import BlizzardMock.Python.UrlLaws
import Mathlib.Data.List.Forall2

universe u

namespace BlizzardMock.Forge

open Method

section Windows

variable {α β : Type u}

def pageWindow (perPage : Option Int) (page : Int) (listing : List α) : List α :=
  match perPage with
  | none => if page = 1 then listing else []
  | some perPage => (listing.take (page * perPage).toNat).drop ((page - 1) * perPage).toNat

theorem flatMap_pageWindows (listing : List α) (size last : Nat) :
    ((List.range last).flatMap fun i => (listing.take ((i + 1) * size)).drop (i * size)) =
      listing.take (last * size) := by
  induction last with
  | zero => rw [Nat.zero_mul]; rfl
  | succ last ih =>
    have more : last * size ≤ (last + 1) * size := Nat.mul_le_mul_right size (Nat.le_succ last)
    rw [List.range_succ, List.flatMap_append, ih, List.flatMap_singleton]
    have first : listing.take (last * size) = (listing.take ((last + 1) * size)).take
      (last * size) := by
      rw [List.take_take, Nat.min_eq_left more]
    rw [first, List.take_append_drop]

end Windows

namespace PullQuery

variable (query : PullQuery)

def size : Option Int := query.perPage.map fun perPage => min (max perPage 1) maxPerPage

theorem chosen_eq (pulls : List PullRequest) :
    query.chosen pulls =
      (max query.page 1, query.size, pageWindow query.size (max query.page 1) pulls) := by
  rw [chosen, size]
  cases query.perPage with
  | none => rfl
  | some perPage => rfl

variable {query}

theorem before_trans {p q r : PullRequest} (pq : query.Before p q) (qr : query.Before q r) :
    query.Before p r := by
  obtain later | ⟨same, number⟩ := pq
  · obtain later' | ⟨same', -⟩ := qr
    · exact .inl (Int.lt_trans later later')
    · exact .inl (same' ▸ later)
  · obtain later' | ⟨same', number'⟩ := qr
    · exact .inl (same ▸ later')
    · exact .inr ⟨same.trans same', Nat.le_trans number number'⟩

theorem before_total (p q : PullRequest) : query.Before p q ∨ query.Before q p := by
  obtain later | same | earlier := Int.lt_trichotomy (query.time p) (query.time q)
  · exact .inl (.inl later)
  · exact (Nat.le_total p.number q.number).imp (fun le => .inr ⟨same, le⟩) fun le =>
      .inr ⟨same.symm, le⟩
  · exact .inr (.inl earlier)

instance : IsTrans PullRequest query.Before := ⟨fun _ _ _ => before_trans⟩
instance : Std.Total query.Before := ⟨before_total⟩
instance : IsTrans PullRequest fun p q => query.Before q p :=
  ⟨fun _ _ _ pq qr => before_trans qr pq⟩
instance : Std.Total fun p q => query.Before q p := ⟨fun p q => before_total q p⟩

variable (query)

def Known : Prop := query.sort ∈ [none, some "created", some "updated"] ∧
      query.direction ∈ [none, some "asc", some "desc"]

end PullQuery

namespace ForgeService

variable {query : PullQuery}

/-- What a listing selects: the pulls of the repository in the state asked for, on the base and the
head asked for. -/
def Matches (forge : ForgeService) (repo : Repo) (query : PullQuery) (pull : PullRequest) : Prop :=
  forge.state.getPull repo.fullName pull.number = some pull ∧
    (∀ state ∈ query.state, state = "all" ∨ pull.state.value = state) ∧ query.Selects repo pull

/-- The order of a listing: by the time it sorts by, then by the number. -/
def Ordered (query : PullQuery) (p q : PullRequest) : Prop :=
  if query.Descending then query.Before q p else query.Before p q

/-- Everything that a query matches, each pull once, in order. -/
structure Lists (forge : ForgeService) (repo : Repo) (query : PullQuery)
    (pulls : List PullRequest) : Prop where
  mem_iff : ∀ pull, pull ∈ pulls ↔ forge.Matches repo query pull
  nodup : (pulls.map (·.number)).Nodup
  ordered : pulls.Pairwise (Ordered query)

theorem mem_listPulls {state : InMemoryForgeState} {full : String} {filter : Option String}
    {pull : PullRequest} :
    pull ∈ state.listPulls full filter ↔
      state.getPull full pull.number = some pull ∧ ∀ value ∈ filter, value = "all" ∨
        pull.state.value = value := by
  rw [← InMemoryForgeState.mem_sortedPulls]
  cases filter with
  | none => exact (and_iff_left nofun).symm
  | some value =>
    rw [InMemoryForgeState.listPulls.eq_2]
    split
    · next all => simp [all]
    · next other => simp [List.mem_filter, other]

theorem nodup_listPulls (state : InMemoryForgeState) (full : String) (filter : Option String) :
    ((state.listPulls full filter).map (·.number)).Nodup := by
  have all := state.nodup_sortedPulls full
  cases filter with
  | none => exact all
  | some value =>
    rw [InMemoryForgeState.listPulls.eq_2]
    split
    · exact all
    · exact (List.filter_sublist.map _).nodup all

theorem lists_matching (forge : ForgeService) (repo : Repo) (query : PullQuery) :
    forge.Lists repo query (query.matching repo forge.state) := by
  have perm : (query.matching repo forge.state).Perm
      ((forge.state.listPulls repo.fullName query.state).filter (query.Selects repo ·)) := by
    rw [PullQuery.matching]
    split
    · exact List.perm_insertionSort _ _
    · exact List.perm_insertionSort _ _
  constructor
  case mem_iff =>
    intro pull
    rw [perm.mem_iff, List.mem_filter, mem_listPulls, decide_eq_true_eq, and_assoc, Matches]
  case nodup =>
    refine (perm.map PullRequest.number).nodup_iff.mpr ?_
    exact (List.filter_sublist.map _).nodup (nodup_listPulls forge.state repo.fullName query.state)
  case ordered =>
    rw [PullQuery.matching]
    split
    · next descending =>
      have order : Ordered query = fun p q => query.Before q p := funext₂ fun p q =>
        if_pos descending
      rw [order]
      exact List.pairwise_insertionSort _ _
    · next ascending =>
      have order : Ordered query = query.Before := funext₂ fun p q => if_neg ascending
      rw [order]
      exact List.pairwise_insertionSort _ _

def lastOf (query : PullQuery) (total : Nat) : Nat :=
  match query.size with
  | none => 1
  | some size => (max (-((-total) / size)) 1).toNat

def pageOf (query : PullQuery) (whole : PullPage) (n : Int) : PullPage where
  views := pageWindow query.size (max n 1) whole.views
  page := max n 1
  perPage := query.size
  total := whole.total

theorem size_cases (query : PullQuery) : query.size = none ∨ ∃ size : Nat, 1 ≤ size ∧
      query.size = some (size : Int) := by
  rw [PullQuery.size]
  cases query.perPage with
  | none => exact .inl rfl
  | some perPage =>
    have positive : 1 ≤ min (max perPage 1) maxPerPage := by
      simp only [maxPerPage]
      omega
    exact .inr ⟨(min (max perPage 1) maxPerPage).toNat, by omega,
      congrArg some (Int.toNat_of_nonneg (Int.le_trans (by decide) positive)).symm⟩

theorem one_le_lastOf (query : PullQuery) (total : Nat) : 1 ≤ lastOf query total := by
  rw [lastOf]
  split
  · exact le_refl 1
  · omega

theorem lastPage_pageOf (query : PullQuery) (whole : PullPage) (n : Int) :
    (pageOf query whole n).lastPage = lastOf query whole.total := by
  rw [PullPage.lastPage, lastOf, pageOf]
  obtain none | ⟨size, -, some⟩ := size_cases query
  · rw [none]
    rfl
  · rw [some]
    dsimp only
    omega

theorem le_lastOf_mul {size : Nat} (positive : 1 ≤ size) (h : query.size = some (size : Int))
    (total : Nat) :
    total ≤ lastOf query total * size := by
  rw [lastOf, h]
  dsimp only
  have floor : (size : Int) * ((-total) / size) ≤ -total := Int.mul_ediv_self_le (by omega)
  generalize (-(total : Int)) / size = pages at floor
  have last : -pages ≤ ((max (-pages) 1).toNat : Int) := by omega
  have scaled := Int.mul_le_mul_of_nonneg_right last (Int.natCast_nonneg size)
  rw [Int.neg_mul, Int.mul_comm pages, ← Int.natCast_mul] at scaled
  omega

theorem pageWindow_nat {α : Type} (size i : Nat) (listing : List α) :
    pageWindow (some (size : Int)) (max ((i : Int) + 1) 1) listing =
      (listing.take ((i + 1) * size)).drop (i * size) := by
  have page : max ((i : Int) + 1) 1 = ((i + 1 : Nat) : Int) := by omega
  have before : ((i + 1 : Nat) : Int) - 1 = (i : Int) := by omega
  rw [page, pageWindow, before, ← Int.natCast_mul, ← Int.natCast_mul, Int.toNat_natCast,
    Int.toNat_natCast]

theorem flatMap_pageWindow {α : Type} (query : PullQuery) (listing : List α) :
    ((List.range (lastOf query listing.length)).flatMap fun i : Nat =>
      pageWindow query.size (max ((i : Int) + 1) 1) listing) =
      listing := by
  obtain none | ⟨size, positive, some⟩ := size_cases query
  · simp only [lastOf, none, pageWindow]
    exact List.append_nil _
  · have covered := le_lastOf_mul positive some listing.length
    simp only [some, pageWindow_nat, flatMap_pageWindows]
    exact List.take_of_length_le covered

theorem mem_pageWindow {α : Type} (query : PullQuery) {listing : List α} {a : α}
    (mem : a ∈ listing) :
    ∃ i : Nat, a ∈ pageWindow query.size (max ((i : Int) + 1) 1) listing := by
  rw [← flatMap_pageWindow query listing] at mem
  obtain ⟨i, -, held⟩ := List.mem_flatMap.mp mem
  exact ⟨i, held⟩

theorem flatMap_pageOf (query : PullQuery) {whole : PullPage}
    (total : whole.views.length = whole.total) :
    (List.range (lastOf query whole.total)).flatMap (fun i : Nat =>
      (pageOf query whole (i + 1)).views) = whole.views :=
  total ▸ flatMap_pageWindow query whole.views

theorem pageOf_past {whole : PullPage} (total : whole.views.length = whole.total) {n : Int}
    (past : lastOf query whole.total < n) : (pageOf query whole n).views = [] := by
  obtain none | ⟨size, positive, some⟩ := size_cases query
  · have single : lastOf query whole.total = 1 := by rw [lastOf, none]
    rw [pageOf, none, pageWindow, if_neg (by omega)]
  · have covered := le_lastOf_mul positive some whole.total
    obtain ⟨i, rfl⟩ : ∃ i : Nat, n = (i : Int) + 1 := ⟨(n - 1).toNat, by omega⟩
    have further : lastOf query whole.total * size ≤ i * size :=
      Nat.mul_le_mul_right size (by omega)
    simp only [pageOf, some, pageWindow_nat]
    refine List.drop_eq_nil_of_le (le_trans (List.length_take_le' _ _) ?_)
    omega

section Answers

variable [GitHost] {forge : ForgeService} {owner name : String} {repo : Repo} {page : PullPage}

def Views (forge : ForgeService) (repo : Repo) : List PullRequest → List PullView → Prop :=
  List.Forall₂ fun pull viewed => answer (view repo pull) forge = .ok viewed

theorem collect_views_iff {pulls : List PullRequest} {views : List PullView} :
    answer (collect (fun pull => some <$> view repo pull) pulls) forge = .ok views ↔
      forge.Views repo pulls views := by
  induction pulls generalizing views with
  | nil =>
    rw [Views, List.forall₂_nil_left_iff, collect, answer_pure, Except.ok.injEq, eq_comm]
  | cons pull rest ih =>
    rw [Views, List.forall₂_cons_left_iff, collect, answer_bind_ok_iff]
    constructor
    · rintro ⟨b, first, h⟩
      obtain ⟨bs, others, same⟩ := answer_bind_ok_iff.mp h
      cases same
      rw [answer_map] at first
      cases viewed : answer (view repo pull) forge with
      | error e => rw [viewed] at first; cases first
      | ok v =>
        rw [viewed] at first
        cases first
        exact ⟨v, bs, rfl, ih.mp others, rfl⟩
    · rintro ⟨v, bs, viewed, others, rfl⟩
      refine ⟨some v, by rw [answer_map, viewed]; rfl, answer_bind_ok_iff.mpr ⟨bs, ih.mpr others, rfl⟩⟩

theorem listPulls_ok_iff : answer (listPulls owner name query) forge = .ok page ↔
    ∃ repo, answer (getRepo owner name) forge = .ok repo ∧ query.Known ∧
      ∃ views, forge.Views repo
        (pageWindow query.size (max query.page 1) (query.matching repo forge.state)) views ∧
        page = {
          views, page := max query.page 1, perPage := query.size,
          total := (query.matching repo forge.state).length } := by
  rw [listPulls, answer_bind_ok_iff]
  refine exists_congr fun repo => and_congr_right fun _ => ?_
  constructor
  · intro h
    obtain ⟨⟨⟩, sorted, h⟩ := answer_bind_ok_iff.mp h
    obtain ⟨⟨⟩, directed, h⟩ := answer_bind_ok_iff.mp h
    obtain ⟨state, held, h⟩ := answer_bind_ok_iff.mp h
    cases held
    dsimp only at h
    rw [query.chosen_eq] at h
    obtain ⟨views, read, same⟩ := answer_bind_ok_iff.mp h
    cases same
    exact ⟨⟨not_not.mp (refuseIf_ok.mp sorted), not_not.mp (refuseIf_ok.mp directed)⟩, views,
      collect_views_iff.mp read, rfl⟩
  · rintro ⟨⟨sorted, directed⟩, views, read, rfl⟩
    refine answer_bind_ok_iff.mpr ⟨⟨⟩, refuseIf_ok.mpr (not_not.mpr sorted), ?_⟩
    refine answer_bind_ok_iff.mpr ⟨⟨⟩, refuseIf_ok.mpr (not_not.mpr directed), ?_⟩
    refine answer_bind_ok_iff.mpr ⟨_, rfl, ?_⟩
    dsimp only
    rw [query.chosen_eq]
    exact answer_bind_ok_iff.mpr ⟨views, collect_views_iff.mpr read, rfl⟩

theorem Views.paged {pulls : List PullRequest} {views : List PullView}
    (viewed : forge.Views repo pulls views)
    (perPage : Option Int) (page : Int) :
    forge.Views repo (pageWindow perPage page pulls) (pageWindow perPage page views) := by
  cases perPage with
  | none =>
    rw [pageWindow, pageWindow]
    split
    · exact viewed
    · exact .nil
  | some perPage => exact List.forall₂_drop _ (List.forall₂_take _ viewed)

theorem Views.pulls {pulls : List PullRequest} {views : List PullView}
    (viewed : forge.Views repo pulls views) :
    views.map (·.pull) = pulls := by
  induction viewed with
  | nil => rfl
  | cons first _ ih => rw [List.map_cons, pull_of_view first, ih]

variable {whole : PullPage}

theorem whole_iff :
    answer (listPulls owner name { query with page := 1, perPage := none }) forge = .ok whole ↔
    ∃ repo, answer (getRepo owner name) forge = .ok repo ∧ query.Known ∧
      ∃ views, forge.Views repo (query.matching repo forge.state) views ∧
        whole = { views, page := 1, perPage := none,
                  total := (query.matching repo forge.state).length } :=
  listPulls_ok_iff

theorem listPulls_page
      (h : answer (listPulls owner name { query with page := 1, perPage := none }) forge =
        .ok whole)
    (n : Int) (perPage : Option Int) :
    answer (listPulls owner name { query with page := n, perPage }) forge = .ok
      (pageOf { query with perPage } whole n) := by
  obtain ⟨repo, got, known, views, viewed, rfl⟩ := whole_iff.mp h
  exact listPulls_ok_iff.mpr ⟨repo, got, known, _, viewed.paged _ _, rfl⟩

theorem views_exist {pulls : List PullRequest} :
    (∃ views, forge.Views repo pulls views) ↔ ∀ pull ∈ pulls, ∃ viewed,
      answer (view repo pull) forge = .ok viewed := by
  constructor
  · rintro ⟨views, viewed⟩ pull mem
    induction viewed with
    | nil => cases mem
    | cons first _ ih =>
      obtain rfl | mem := List.mem_cons.mp mem
      · exact ⟨_, first⟩
      · exact ih mem
  · intro each
    induction pulls with
    | nil => exact ⟨[], .nil⟩
    | cons pull rest ih =>
      obtain ⟨viewed, first⟩ := each pull List.mem_cons_self
      obtain ⟨views, others⟩ := ih fun pull mem => each pull (List.mem_cons_of_mem _ mem)
      exact ⟨viewed :: views, .cons first others⟩

end Answers

end ForgeService

end BlizzardMock.Forge
