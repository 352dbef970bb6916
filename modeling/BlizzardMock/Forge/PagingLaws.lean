import BlizzardMock.Forge.LinkLaws
import BlizzardMock.Forge.ListingLaws
import BlizzardMock.Forge.WriteLaws
import BlizzardMock.Python.IntText

namespace BlizzardMock.Forge

open Method

/-- The numbers up to a limit are read as they are written. -/
def Lax.Reads [Lax] (limit : Nat) : Prop :=
  ∀ n : Nat, n ≤ limit → Lax.int (toString (n : Int)) = some (n : Int)

theorem get?_turn_of_ne {key : String} (page : key ≠ "page") (perPage : key ≠ "per_page")
    (params : Params)
    (number size : Int) : (params.turn number size).get? key = params.get? key := by
  rw [Params.turn, Dict.get?_set_of_ne perPage, Dict.get?_set_of_ne page]

section Turns

variable [Lax] {params : Params} {query : PullQuery}

theorem ofParams_iff : PullQuery.ofParams params = some query ↔
    (params.get? "page").elim (some 1) Lax.int = some query.page ∧
      (params.get? "per_page").elim (some none) (fun text => (Lax.int text).map some) =
        some query.perPage ∧
      query.state = some (params.getD "state" "open") ∧ query.base = params.get? "base" ∧
      query.head = params.get? "head" ∧ query.sort = params.get? "sort" ∧
      query.direction = params.get? "direction" := by
  rw [PullQuery.ofParams]
  cases (params.get? "page").elim (some 1) Lax.int with
  | none => exact ⟨nofun, fun h => nomatch h.1⟩
  | some page =>
    cases (params.get? "per_page").elim (some none) fun text => (Lax.int text).map some with
    | none => exact ⟨nofun, fun h => nomatch h.2.1⟩
    | some perPage =>
      constructor
      · intro h
        cases h
        exact ⟨rfl, rfl, rfl, rfl, rfl, rfl, rfl⟩
      · rintro ⟨page, perPage, state, base, head, sort, direction⟩
        cases query
        cases page
        cases perPage
        cases state
        cases base
        cases head
        cases sort
        cases direction
        rfl

theorem ofParams_turn {number size limit : Nat} (reads : Lax.Reads limit) (short : number ≤ limit)
    (small : size ≤ limit)
    (h : PullQuery.ofParams params = some query) :
    PullQuery.ofParams (params.turn number size) = some
      { query with page := number, perPage := some (size : Int) } := by
  obtain ⟨-, -, state, rest⟩ := ofParams_iff.mp h
  have page : (params.turn number size).get? "page" = some (toString (number : Int)) := by
    rw [Params.turn, Dict.get?_set_of_ne (by decide), Dict.get?_set_self]
  have perPage : (params.turn number size).get? "per_page" = some (toString (size : Int)) := by
    rw [Params.turn, Dict.get?_set_self]
  refine ofParams_iff.mpr ⟨?_, ?_, ?_, ?_⟩
  · rw [page]
    exact reads number short
  · rw [perPage, Option.elim_some, reads size small]
    rfl
  · rw [Dict.getD, get?_turn_of_ne (by decide) (by decide)]
    exact state
  · rw [get?_turn_of_ne (by decide) (by decide), get?_turn_of_ne (by decide) (by decide),
      get?_turn_of_ne (by decide) (by decide), get?_turn_of_ne (by decide) (by decide)]
    exact rest

end Turns

namespace ForgeService

open PullQuery

set_option synthInstance.maxSize 1000 in
instance {γ : Type} (f : ForgeService → γ) [GitHost] (owner name : String) (query : PullQuery) :
    Keeps f (listPulls owner name query) := by
  unfold listPulls
  infer_instance

variable {query : PullQuery} {whole : PullPage}

theorem pageOf_congr {other : PullQuery} (same : other.size = query.size) (n : Int) :
    pageOf other whole n = pageOf query whole n := by
  rw [pageOf, pageOf, same]

theorem size_of_size {size : Nat} (h : query.size = some (size : Int)) :
    ({ query with perPage := some (size : Int) } : PullQuery).size = query.size ∧ size ≤ 100 := by
  rw [h]
  rw [PullQuery.size] at h
  cases named : query.perPage with
  | none =>
    rw [named] at h
    cases h
  | some perPage =>
    rw [named, Option.map_some, Option.some.injEq, maxPerPage] at h
    refine ⟨?_, by omega⟩
    rw [PullQuery.size, Option.map_some, Option.some.injEq, maxPerPage]
    omega

theorem lastOf_le (query : PullQuery) (total : Nat) : lastOf query total ≤ max total 100 := by
  rw [lastOf]
  obtain none | ⟨size, positive, some⟩ := size_cases query
  · rw [none]
    dsimp only
    omega
  · rw [some]
    dsimp only
    have scaled : -(total : Int) * (size : Int) ≤ -total := by
      rw [Int.neg_mul, ← Int.natCast_mul]
      have := Nat.le_mul_of_pos_right total positive
      omega
    have floor : -(total : Int) ≤ (-total) / size := Int.le_ediv_of_mul_le (by omega) scaled
    omega

section Following

variable [Lax] {params : Params}

def Asks (query : PullQuery) (params : Params) (n : Nat) : Prop :=
  ∃ perPage, ofParams params = some { query with page := n, perPage } ∧
    ({ query with perPage } : PullQuery).size = query.size

theorem asks_turn {n limit : Nat} (reads : Lax.Reads limit) (hundred : 100 ≤ limit)
    (short : n + 1 ≤ limit)
    (asks : Asks query params n) {size : Nat} (h : query.size = some (size : Int)) :
    Asks query (params.turn ((n : Int) + 1) size) (n + 1) := by
  obtain ⟨perPage, asked, -⟩ := asks
  obtain ⟨same, small⟩ := size_of_size h
  have turned := ofParams_turn reads short (le_trans small hundred) asked
  exact ⟨some (size : Int), turned, same⟩

variable [GitHost] [Url.Replacing] {forge : ForgeService} {url : Text} {owner name : String}
variable (h : answer
      (listPulls owner name { query with page := 1, perPage := none }) forge = .ok whole)

include h

theorem follow_succ {n : Nat} (asks : Asks query params n) (fuel : Nat) :
    follow url owner name (fuel + 1) params forge =
      match nextParams (linkHeader url params (pageOf query whole n)) with
      | none => some [pageOf query whole n]
      | some next => (follow url owner name fuel next forge).map (pageOf query whole n :: ·) := by
  obtain ⟨perPage, asked, same⟩ := asks
  have answered := listPulls_page h n perPage
  rw [pageOf_congr same] at answered
  have request : listPullsRoute url owner name params = some
    (listPulls owner name { query with page := n, perPage } >>=
      fun result => pure (result, linkHeader url params result)) := by
    rw [listPullsRoute, asked]
    rfl
  have kept : after (listPulls owner name { query with page := n, perPage } >>=
      fun result => pure (result, linkHeader url params result)) forge = forge :=
    Keeps.keeps (f := id) forge
  rw [follow, request]
  simp only [Option.bind_eq_bind, Option.bind_some, kept]
  rw [answer_bind_ok_iff.mpr ⟨_, answered, rfl⟩]
  dsimp only [Except.toOption, Option.bind_some]
  cases nextParams (linkHeader url params (pageOf query whole n)) with
  | none => rfl
  | some next =>
    dsimp only
    cases follow url owner name fuel next forge with
    | none => rfl
    | some rest => rfl

theorem follow_pages {k fuel limit : Nat} (plain : Addressable url) (reads : Lax.Reads limit)
    (hundred : 100 ≤ limit)
    {n : Nat} (positive : 1 ≤ n) (ends : n + k = lastOf query whole.total) (short : n + k ≤ limit)
    (enough : k < fuel)
    (asks : Asks query params n) : follow url owner name fuel params forge =
      some ((List.range (k + 1)).map fun i : Nat => pageOf query whole ((n : Int) + i)) := by
  have page : ∀ n : Nat, 1 ≤ n → (pageOf query whole n).page = n := fun n positive =>
    max_eq_left (Int.ofNat_le.mpr positive)
  induction k generalizing n params fuel with
  | zero =>
    obtain ⟨fuel, rfl⟩ := Nat.exists_eq_succ_of_ne_zero (Nat.ne_of_gt enough)
    have last : ¬ (pageOf query whole n).page < (pageOf query whole n).lastPage := by
      rw [page n positive, lastPage_pageOf]
      omega
    rw [follow_succ h asks, nextParams_linkHeader plain, if_neg last]
    exact congrArg (fun n : Int => some [pageOf query whole n]) (Int.add_zero (n : Int)).symm
  | succ k ih =>
    obtain ⟨fuel, rfl⟩ := Nat.exists_eq_succ_of_ne_zero (Nat.ne_of_gt (Nat.zero_lt_of_lt enough))
    have more : (pageOf query whole n).page < (pageOf query whole n).lastPage := by
      rw [page n positive, lastPage_pageOf]
      omega
    obtain unpaged | ⟨size, -, sized⟩ := size_cases query
    · have single : lastOf query whole.total = 1 := by rw [lastOf, unpaged]
      omega
    · have next := asks_turn reads hundred (by omega) asks sized
      have rest := ih (n := n + 1)
        (by omega) (by omega) (by omega) (Nat.lt_of_succ_lt_succ enough) next
      have each : (pageOf query whole n).perPage = some (size : Int) := sized
      rw [follow_succ h asks, nextParams_linkHeader plain, if_pos more, each, Option.map_some,
        page n positive]
      have range : List.range (k + 1 + 1) = 0 :: (List.range (k + 1)).map Nat.succ :=
        List.range_succ_eq_map
      dsimp only
      rw [rest, range, List.map_cons, List.map_map, Option.map_some]
      refine congrArg some
        (congrArg₂ List.cons (congrArg (pageOf query whole) (Int.add_zero _).symm) ?_)
      refine List.map_congr_left fun i _ => congrArg (pageOf query whole) ?_
      omega

end Following

section Paging

variable [GitHost] {forge : ForgeService} {owner name : String}

theorem answered_iff (query : PullQuery) :
    (∃ whole, answer (listPulls owner name { query with page := 1, perPage := none }) forge =
      .ok whole) ↔
      ∀ n : Nat, ∃ page, answer (listPulls owner name { query with page := (n : Int) + 1 }) forge =
        .ok page := by
  constructor
  · rintro ⟨whole, h⟩ n
    exact ⟨_, listPulls_page h _ query.perPage⟩
  · intro each
    obtain ⟨_, first⟩ := each 0
    obtain ⟨repo, got, known, -⟩ := listPulls_ok_iff.mp first
    have views : ∃ views, forge.Views repo (query.matching repo forge.state) views := by
      refine views_exist.mpr fun pull mem => ?_
      obtain ⟨i, held⟩ := mem_pageWindow query mem
      obtain ⟨_, paged⟩ := each i
      obtain ⟨other, got', -, views, viewed, -⟩ := listPulls_ok_iff.mp paged
      cases got.symm.trans got'
      exact views_exist.mp ⟨views, viewed⟩ pull held
    obtain ⟨views, viewed⟩ := views
    exact ⟨_, whole_iff.mpr ⟨repo, got, known, views, viewed, rfl⟩⟩

/-- The pages of a listing, up to the last, are the whole listing: everything it matches, each pull
once and in order; the later pages are empty; and a client that follows `next` from the first page
sees just these pages. -/
theorem listing_pages [Lax] [Url.Replacing] (forge : ForgeService) (owner name : String)
    (query : PullQuery) :
    ((∃ whole, answer (listPulls owner name { query with page := 1, perPage := none }) forge =
      .ok whole) ↔
      ∀ n : Nat, ∃ page, answer
        (listPulls owner name { query with page := (n : Int) + 1 }) forge = .ok page) ∧
    ∀ whole, answer (listPulls owner name { query with page := 1, perPage := none }) forge =
      .ok whole →
      (∃ repo, answer (getRepo owner name) forge = .ok repo ∧
        forge.Lists repo query (whole.views.map (·.pull))) ∧
      ∃ (last : Nat) (pages : Int → PullPage), 1 ≤ last ∧
        (∀ n, answer (listPulls owner name { query with page := n }) forge = .ok (pages n) ∧
          (pages n).lastPage = last ∧ (last < n → (pages n).views = [])) ∧
        ((List.range last).flatMap fun i : Nat => (pages (i + 1)).views) = whole.views ∧
        ∀ (url : Text) (params : Params), Addressable url →
          ofParams params = some { query with page := 1 } →
          Lax.Reads (max whole.total 100) → ∀ fuel ≥ last,
            follow url owner name fuel params forge = some ((List.range last).map fun i : Nat =>
              pages (i + 1)) := by
  refine ⟨answered_iff query, fun whole h => ?_⟩
  obtain ⟨repo, got, known, views, viewed, same⟩ := whole_iff.mp h
  have total : whole.views.length = whole.total := by
    rw [same]
    exact viewed.length_eq.symm
  constructor
  · refine ⟨repo, got, ?_⟩
    rw [same, viewed.pulls]
    exact lists_matching forge repo query
  · refine ⟨lastOf query whole.total, pageOf query whole, one_le_lastOf query _, fun n =>
      ?_, flatMap_pageOf query total,
      fun url params plain asked reads fuel enough => ?_⟩
    · exact ⟨listPulls_page h n query.perPage, lastPage_pageOf query whole n, pageOf_past total⟩
    · have positive := one_le_lastOf query whole.total
      obtain ⟨k, ends⟩ := Nat.exists_eq_add_of_le positive
      have short := lastOf_le query whole.total
      have asks : Asks query params 1 := ⟨query.perPage, asked, rfl⟩
      rw [follow_pages h plain reads
        (by omega) le_rfl ends.symm (by omega) (by omega) asks, ends, Nat.add_comm 1 k]
      refine congrArg some (List.map_congr_left fun i _ => congrArg (pageOf query whole) ?_)
      exact Int.add_comm _ _

end Paging

section

attribute [local instance] GitHost.plain

def twoListed : ForgeService :=
  Machine.after next
    [.createPull "octocat" "toy" "change" "" "feature" "main" "ann",
      .createPull "octocat" "toy" "older" "" "old" "main" "ann"] toy

theorem listing_pages_twoListed :
    let _ : Lax := ⟨fun text => (intOfText text).toOption⟩
    let _ : Url.Replacing := ⟨fun _ => []⟩
    ∃ fuel pages, follow "/repos/octocat/toy/pulls".toList "octocat" "toy" fuel
      (.ofList [("per_page", "1")]) twoListed =
      some pages ∧ pages.flatMap (·.views.map (·.pull.number)) = [2, 1] := by
  intro lax replacing
  obtain ⟨whole, h, total, numbers⟩ :
    ∃ whole, answer (listPulls "octocat" "toy" { state := some "open" }) twoListed =
      .ok whole ∧ whole.total = 2 ∧ whole.views.map (·.pull.number) = [2, 1] := ⟨_, rfl, rfl, rfl⟩
  have listed := listing_pages twoListed "octocat" "toy"
    { state := some "open", perPage := some 1 }
  obtain ⟨-, last, pages, -, -, covered, followed⟩ := listed.2 whole h
  have reads : Lax.Reads (max whole.total 100) := by
    intro n le
    have bound : 100 < 10 ^ 3 := by decide
    have short : n < 10 ^ intMaxStrDigits :=
      Nat.lt_of_lt_of_le (by omega)
        (Nat.pow_le_pow_right (by decide : 0 < 10) (by decide : 3 ≤ intMaxStrDigits))
    exact congrArg Except.toOption (intOfText_toString short)
  refine ⟨last, _, followed _ _
    ⟨by decide, by decide, by decide, by decide⟩ rfl reads last le_rfl, ?_⟩
  rw [← numbers, ← covered, List.map_flatMap, List.flatMap_map]

end

end ForgeService

end BlizzardMock.Forge
