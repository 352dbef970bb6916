import BlizzardMock.Forge.Service.Pulls
import BlizzardMock.Python.Url

namespace BlizzardMock.Forge

open Method

def PullPage.lastPage (page : PullPage) : Int :=
  match page.perPage with
  | none => 1
  | some perPage => max (-((-page.total) / perPage)) 1

abbrev Params := Dict String String

/-- How the request framework reads the text of an `int` parameter. -/
class Lax where
  int : String → Option Int

def PullQuery.ofParams [Lax] (params : Params) : Option PullQuery := do
  let page ← (params.get? "page").elim (some 1) Lax.int
  let perPage ← (params.get? "per_page").elim (some none) fun text => (Lax.int text).map some
  return {
    state := some (params.getD "state" "open")
    base := params.get? "base"
    head := params.get? "head"
    sort := params.get? "sort"
    direction := params.get? "direction"
    page
    perPage }

def Params.items (params : Params) : List (Text × Text) := params.entries.map fun e =>
      (e.1.toList, e.2.toList)

def Params.ofQuery [Url.Replacing] (qs : Text) : Params :=
  .ofList ((Url.parseQsl qs).map fun e => (String.ofList e.1, String.ofList e.2))

def Params.turn (params : Params) (number perPage : Int) : Params :=
  Dict.set (Dict.set params "page" (toString number)) "per_page" (toString perPage)

def pageUrl (url : Text) (params : Params) (number perPage : Int) : Text :=
  url ++ '?' :: Url.urlencode (params.turn number perPage).items

def linkValue (target : Text) (rel : String) : Text :=
  '<' :: (target ++ ">; rel=\"".toList ++ rel.toList ++ ['"'])

def PullPage.rels (page : PullPage) : List (String × Int) :=
  (if 1 < page.page then [("prev", min (page.page - 1) page.lastPage), ("first", 1)] else []) ++
  (if page.page < page.lastPage then [("next", page.page + 1), ("last", page.lastPage)] else [])

def linkHeader (url : Text) (params : Params) (result : PullPage) : Text :=
  match result.perPage with
  | none => []
  | some perPage =>
    ", ".toList.intercalate (result.rels.map fun rel =>
      linkValue (pageUrl url params rel.2 perPage) rel.1)

/-- The route: the page answered and its `Link` header, or none where a parameter is refused. -/
def listPullsRoute [GitHost] [Lax] (url : Text) (owner repo : String) (params : Params) :
    Option (ForgeM (PullPage × Text)) :=
  (PullQuery.ofParams params).map fun query => do
    let result ← ForgeService.listPulls owner repo query
    return (result, linkHeader url params result)

/-- The targets of a `Link` header, with their relations. -/
def links (header : Text) : List (Text × Text) :=
  (header.splitOn '<').tail.map fun value =>
    let rest := value.dropWhile (· ≠ '>')
    (value.takeWhile (· ≠ '>'), ((rest.dropWhile (· ≠ '"')).drop 1).takeWhile (· ≠ '"'))

def queryOf (target : Text) : Text := ((target.takeWhile (· ≠ '#')).dropWhile (· ≠ '?')).drop 1

/-- The parameters that the `next` target of a `Link` header names. -/
def nextParams [Url.Replacing] (header : Text) : Option Params :=
  ((links header).find? (·.2 = "next".toList)).map fun link => Params.ofQuery (queryOf link.1)

def follow [GitHost] [Lax] [Url.Replacing] (url : Text) (owner repo : String) :
    Nat → Params → ForgeService → Option (List PullPage)
  | 0, _, _ => none
  | fuel + 1, params, forge => do
    let request ← listPullsRoute url owner repo params
    let (page, header) ← (answer request forge).toOption
    match nextParams header with
    | none => return [page]
    | some next =>
      let rest ← follow url owner repo fuel next (after request forge)
      return page :: rest

end BlizzardMock.Forge
