import BlizzardMock.Data.Flat
import BlizzardMock.Forge.Listing
import BlizzardMock.Python.UrlLaws
import Mathlib.Data.List.TakeWhile

namespace BlizzardMock.Forge

def linkBody (value : Text × String) : Text :=
  value.1 ++ '>' :: ("; rel=".toList ++ '"' :: (value.2.toList ++ ['"']))

def pieces : List (Text × String) → List Text
  | [] => []
  | [value] => [linkBody value]
  | value :: rest => (linkBody value ++ ", ".toList) :: pieces rest

/-- A target and a relation that a header can hold. -/
def Plain (value : Text × String) : Prop :=
  '<' ∉ value.1 ∧ '>' ∉ value.1 ∧ '<' ∉ value.2.toList ∧ '"' ∉ value.2.toList

theorem linkValue_eq (value : Text × String) :
    linkValue value.1 value.2 = '<' :: linkBody value := by
  have mark : ">; rel=\"".toList = '>' :: ("; rel=".toList ++ ['"']) := rfl
  simp only [linkValue, linkBody, mark, List.cons_append, List.append_assoc, List.nil_append]

theorem intercalate_linkValues (values : List (Text × String)) :
    ", ".toList.intercalate (values.map fun value => linkValue value.1 value.2) =
      ['<'].intercalate ([] :: pieces values) := by
  induction values with
  | nil => rfl
  | cons value rest ih =>
    have first := linkValue_eq value
    cases rest with
    | nil =>
      rw [List.map_singleton, List.intercalate_singleton, first, pieces, List.intercalate_cons_cons,
        List.intercalate_singleton]
      rfl
    | cons next rest =>
      have some : pieces (next :: rest) ≠ [] := by cases rest <;> exact List.cons_ne_nil _ _
      have mapped : (next :: rest).map (fun value => linkValue value.1 value.2) ≠ [] :=
        List.cons_ne_nil _ _
      have parts : pieces (value :: next :: rest) = (linkBody value ++ ", ".toList) :: pieces
        (next :: rest) := rfl
      rw [List.intercalate_cons_of_ne_nil some] at ih
      rw [List.map_cons, List.intercalate_cons_of_ne_nil mapped, ih, first, parts,
        List.intercalate_cons_of_ne_nil (List.cons_ne_nil _ _),
          List.intercalate_cons_of_ne_nil some]
      simp only [List.nil_append, List.cons_append, List.append_assoc]

theorem notMem_linkBody {value : Text × String} (plain : Plain value) : '<' ∉ linkBody value := by
  have mark : '<' ∉ "; rel=".toList := by decide
  simp only [linkBody, List.mem_append, List.mem_cons, List.not_mem_nil, not_or]
  exact ⟨plain.1, by decide, mark, by decide, plain.2.2.1, by decide, not_false⟩

theorem notMem_pieces {values : List (Text × String)} (plain : ∀ value ∈ values, Plain value) :
    ∀ piece ∈ pieces values, '<' ∉ piece := by
  induction values with
  | nil => nofun
  | cons value rest ih =>
    have first := notMem_linkBody (plain value List.mem_cons_self)
    cases rest with
    | nil =>
      intro piece mem
      rw [List.mem_singleton.mp mem]
      exact first
    | cons next rest =>
      intro piece mem
      obtain rfl | mem := List.mem_cons.mp mem
      · have mark : '<' ∉ ", ".toList := by decide
        rw [List.mem_append, not_or]
        exact ⟨first, mark⟩
      · exact ih (fun value mem => plain value (List.mem_cons_of_mem _ mem)) piece mem

theorem value_read {value : Text × String} (plain : Plain value) (behind : Text) :
    ((linkBody value ++ behind).takeWhile (· ≠ '>'),
      ((((linkBody value ++ behind).dropWhile (· ≠ '>')).dropWhile (· ≠ '"')).drop 1).takeWhile
        (· ≠ '"')) =
      (value.1, value.2.toList) := by
  have whole : linkBody value ++ behind =
      value.1 ++ '>' :: ("; rel=".toList ++ '"' :: (value.2.toList ++ '"' :: behind)) := by
    simp only [linkBody, List.cons_append, List.append_assoc, List.nil_append]
  have mark : '"' ∉ '>' :: "; rel=".toList := by decide
  rw [whole, Flat.takeWhile_before plain.2.1, Flat.dropWhile_before plain.2.1, ← List.cons_append,
    Flat.dropWhile_before mark, List.drop_succ_cons, List.drop_zero,
      Flat.takeWhile_before plain.2.2.2]

theorem pieces_read {values : List (Text × String)} (plain : ∀ value ∈ values, Plain value) :
    (pieces values).map (fun value => (value.takeWhile (· ≠ '>'),
      (((value.dropWhile (· ≠ '>')).dropWhile (· ≠ '"')).drop 1).takeWhile (· ≠ '"'))) =
      values.map fun value => (value.1, value.2.toList) := by
  induction values with
  | nil => rfl
  | cons value rest ih =>
    have first := value_read (plain value List.mem_cons_self)
    cases rest with
    | nil =>
      have alone := first []
      rw [List.append_nil] at alone
      exact congrArg (fun read => [read]) alone
    | cons next rest =>
      exact congrArg₂ List.cons (first ", ".toList) (ih fun value mem =>
        plain value (List.mem_cons_of_mem _ mem))

theorem links_read {values : List (Text × String)} (plain : ∀ value ∈ values, Plain value) :
    links (", ".toList.intercalate (values.map fun value => linkValue value.1 value.2)) =
      values.map fun value => (value.1, value.2.toList) := by
  have inside : ∀ piece ∈ [] :: pieces values, '<' ∉ piece := by
    intro piece mem
    obtain rfl | mem := List.mem_cons.mp mem
    · exact List.not_mem_nil
    · exact notMem_pieces plain piece mem
  rw [links, intercalate_linkValues, List.splitOn_intercalate '<' inside (List.cons_ne_nil _ _),
    List.tail_cons]
  exact pieces_read plain

/-- A URL without a query: none of the characters that part a header or a URL. -/
def Addressable (url : Text) : Prop := '<' ∉ url ∧ '>' ∉ url ∧ '?' ∉ url ∧ '#' ∉ url

variable {url : Text} {params : Params} {number perPage : Int}

theorem notMem_urlencode {c : Char} (other : Url.isQuoted c = false) (parts : c ≠ '&' ∧ c ≠ '=')
    (query : List (Text × Text)) : c ∉ Url.urlencode query := fun mem => by
  obtain quoted | rfl | rfl := Url.mem_urlencode mem
  · rw [quoted] at other
    cases other
  · exact parts.1 rfl
  · exact parts.2 rfl

theorem notMem_pageUrl {c : Char} (none : c ∉ url) (other : Url.isQuoted c = false)
    (parts : c ≠ '&' ∧ c ≠ '=' ∧ c ≠ '?') : c ∉ pageUrl url params number perPage := by
  rw [pageUrl, List.mem_append, List.mem_cons, not_or, not_or]
  exact ⟨none, parts.2.2, notMem_urlencode other ⟨parts.1, parts.2.1⟩ _⟩

theorem queryOf_pageUrl (plain : Addressable url) :
    queryOf (pageUrl url params number perPage) = Url.urlencode
      (params.turn number perPage).items := by
  have whole : (pageUrl url params number perPage).takeWhile (· ≠ '#') =
    pageUrl url params number perPage := by
    refine List.takeWhile_eq_self_iff.mpr fun c mem => decide_eq_true fun same => ?_
    exact notMem_pageUrl plain.2.2.2 (by decide) (by decide) (same ▸ mem)
  rw [queryOf, whole, pageUrl, Flat.dropWhile_before plain.2.2.1, List.drop_succ_cons,
    List.drop_zero]

theorem plain_rel (page : PullPage) : ∀ rel ∈ page.rels, '<' ∉ rel.1.toList ∧
      '"' ∉ rel.1.toList := by
  have names : ∀ name ∈ ["prev", "first", "next", "last"], '<' ∉ name.toList ∧
    '"' ∉ name.toList := by decide
  intro rel mem
  refine names rel.1 ?_
  rw [PullPage.rels, List.mem_append] at mem
  obtain mem | mem := mem
  · split at mem
    · simp only [List.mem_cons, List.not_mem_nil, or_false] at mem
      obtain rfl | rfl := mem
      · exact List.mem_cons_self
      · exact List.mem_cons_of_mem _ List.mem_cons_self
    · cases mem
  · split at mem
    · simp only [List.mem_cons, List.not_mem_nil, or_false] at mem
      obtain rfl | rfl := mem
      · exact List.mem_cons_of_mem _ (List.mem_cons_of_mem _ List.mem_cons_self)
      · exact List.mem_cons_of_mem _
          (List.mem_cons_of_mem _ (List.mem_cons_of_mem _ List.mem_cons_self))
    · cases mem

theorem next_rels (page : PullPage) : page.rels.find? (fun rel => rel.1.toList = "next".toList) =
    if page.page < page.lastPage then some ("next", page.page + 1) else none := by
  have before : (if 1 < page.page then [("prev", min (page.page - 1) page.lastPage), ("first", 1)]
    else []).find?
      (fun rel => rel.1.toList = "next".toList) = none := by
    split
    · have prev : "prev".toList ≠ "next".toList := by decide
      have first : "first".toList ≠ "next".toList := by decide
      simp only [List.find?_cons, prev, first, decide_false, List.find?_nil]
    · rfl
  rw [PullPage.rels, List.find?_append, before, Option.none_or]
  split
  · exact List.find?_cons_of_pos (decide_eq_true rfl)
  · rfl

variable [Url.Replacing]

theorem ofQuery_urlencode (params : Params) :
    Params.ofQuery (Url.urlencode params.items) = params := by
  have texts : (params.items.map fun e => (String.ofList e.1, String.ofList e.2)) =
    params.entries := by
    rw [Params.items, List.map_map]
    exact (List.map_congr_left fun e _ => by simp).trans (List.map_id _)
  rw [Params.ofQuery, Url.parseQsl_urlencode, texts, Dict.ofList_entries]

theorem nextParams_linkHeader (plain : Addressable url) (params : Params) (page : PullPage) :
    nextParams (linkHeader url params page) =
      if page.page < page.lastPage then page.perPage.map (params.turn (page.page + 1))
        else none := by
  rw [linkHeader]
  cases page.perPage with
  | none =>
    rw [Option.map_none, ite_self]
    rfl
  | some perPage =>
    have values : ∀ value ∈ page.rels.map fun rel =>
      (pageUrl url params rel.2 perPage, rel.1), Plain value := by
      intro value mem
      obtain ⟨rel, held, rfl⟩ := List.mem_map.mp mem
      obtain ⟨opening, quote⟩ := plain_rel page rel held
      exact ⟨notMem_pageUrl plain.1
        (by decide) (by decide), notMem_pageUrl plain.2.1 (by decide) (by decide),
        opening, quote⟩
    have header : (page.rels.map fun rel => linkValue (pageUrl url params rel.2 perPage) rel.1) =
        (page.rels.map fun rel => (pageUrl url params rel.2 perPage, rel.1)).map fun value =>
          linkValue value.1 value.2 := by
      rw [List.map_map]
      rfl
    have found : (page.rels.map fun rel => (pageUrl url params rel.2 perPage, rel.1.toList)).find?
        (fun link => link.2 = "next".toList) =
        (page.rels.find? fun rel => rel.1.toList = "next".toList).map fun rel =>
          (pageUrl url params rel.2 perPage, rel.1.toList) := List.find?_map
    dsimp only
    rw [nextParams, header, links_read values, List.map_map]
    refine (congrArg _ found).trans ?_
    rw [next_rels]
    split
    · refine congrArg some ?_
      dsimp only
      rw [queryOf_pageUrl plain, ofQuery_urlencode]
    · rfl

end BlizzardMock.Forge
