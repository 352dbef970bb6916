import BlizzardMock.Data.Greedy
import BlizzardMock.Forge.Tracker
import BlizzardMock.Python.Lines
import Mathlib.Data.List.Infix

namespace BlizzardMock.Forge

open Method Greedy

class Alphabet where
  isAlnum : Char → Bool

namespace Graphql

def isAliasStart (c : Char) : Bool := c.isAlpha || c = '_'

def isDecimal (c : Char) : Bool := (decimalDigit c).isSome

def blanks : Item Char := .many isSpace

def literal (text : Text) : List (Item Char) := text.map fun c => .one (· = c)

def fieldItems : List (Item Char) :=
  [blanks] ++ literal [':'] ++ [blanks] ++ literal "issueOrPullRequest(".toList ++ [blanks] ++
    literal "number".toList ++ [blanks] ++ literal [':'] ++ [blanks]

def numberItems : List (Item Char) := [.one isDecimal, .many isDecimal]

def closeItems : List (Item Char) := [blanks] ++ literal [')']

section Pattern

variable [Alphabet]

def isWord (c : Char) : Bool :=
  c.isAlphanum || c = '_' || (decide (128 ≤ c.toNat) && !isSpace c && Alphabet.isAlnum c)

def aliasItems : List (Item Char) := [.one isAliasStart, .many isWord]

/-- `_ALIAS_RE` -/
def aliasPattern : List (Item Char) := aliasItems ++ fieldItems ++ numberItems ++ closeItems

def aliasAt (text : Text) : Option ((String × String) × Nat) :=
  (run aliasPattern text).map fun m =>
    let aliased := (m.1.take 2).flatten
    let number := ((m.1.drop (2 + fieldItems.length)).take 2).flatten
    ((String.ofList aliased, String.ofList number), m.1.flatten.length)

def aliases (query : String) : List (String × String) := hits aliasAt query.toList

end Pattern

structure IssueOrPull where
  title : String
  body : String
  comments : List Comment

inductive Crash
  | builtin (error : PyError)
  /-- `variables` holds something truthy that is no object. -/
  | attributeError
  deriving DecidableEq

def graphqlError (message kind : String) (path : Option (List String)) : Json :=
  .obj ([("type", .str kind), ("message", .str message)] ++
    path.elim [] fun path => [("path", .arr (path.map .str))])

def node (withComments : Bool) (item : IssueOrPull) : Json :=
  .obj ([("title", .str item.title), ("body", .str item.body)] ++
    if withComments then
      [("comments", .obj [("nodes",
        .arr (item.comments.map fun c => .obj [("body", .str c.body)]))])]
    else [])

/-- The `repository` and the `errors` of an answer, so far. -/
structure Answer where
  repo : Dict String Json := ∅
  errors : List Json := []

def Answer.add (withComments : Bool) (aliased : String) (answer : Answer) :
    Except String IssueOrPull → Answer
  | .ok item => { answer with repo := answer.repo.set aliased (node withComments item) }
  | .error message =>
    { repo := answer.repo.set aliased .null
      errors := answer.errors ++ [graphqlError message "NOT_FOUND" (some ["repository", aliased])] }

def Answer.content (answer : Answer) : Json :=
  .obj ([("data", .obj [("repository", .obj answer.repo.entries)])] ++
    if answer.errors = [] then [] else [("errors", .arr answer.errors)])

def unsupported : Json :=
  .obj [("data", .null), ("errors", .arr [graphqlError
    "unsupported query: expected repository(owner:, name:) with aliased issueOrPullRequest(number:)"
    "BAD_REQUEST" none])]

def message : TrackerError → Option String
  | .forge (.repoNotFound m) | .forge (.pullNotFound m) | .forge (.branchNotFound m)
  | .forge (.compareRefNotFound m) | .forge (.notFastForward m) | .forge (.validationError m)
  | .forge (.notMergeable m) | .forge (.updateConflict m) | .forge (.mergeRejected m)
  | .forge (.headMismatch m) | .forge (.gitError m) | .forge (.mergeConflict m)
  | .forge (.protectedBranch m) | .forge (.ruleViolation m) | .forge (.mergeMethodNotAllowed m)
  | .forge (.refAlreadyExists m) | .forge (.refMissing m) => some m
  | .forge .gitCommandError => none
  | .issueNotFound m | .labelAlreadyExists m | .labelNotFound m => some m

def getIssue (owner name : String) (number : Nat) : TrackerM Issue := do
  let repo ← Tracker.getRepo owner name
  Tracker.requireIssue repo number

variable [GitHost]

def getPull (owner name : String) (number : Nat) : TrackerM IssueOrPull := do
  let view ← Tracker.onForge (ForgeService.getPull owner name number)
  let comments ← read fun tracker =>
    (tracker.threads (owner ++ "/" ++ name)).pullComments.getD number []
  return ⟨view.pull.title, view.pull.body, comments⟩

def orMessage (answered : Except TrackerError IssueOrPull) : TrackerM (Except String IssueOrPull) :=
  match answered with
  | .ok item => return .ok item
  | .error error =>
    match message error with
    | some message => return .error message
    | none => raise error

def readItem (owner name : String) (number : Nat) : TrackerM (Except String IssueOrPull) := do
  match ← attempt (getIssue owner name number) with
  | .ok issue => return .ok ⟨issue.title, issue.body, issue.comments⟩
  | .error (.issueNotFound _) => do
    let pull ← attempt (getPull owner name number)
    orMessage pull
  | .error error => orMessage (.error error)

def readAliases (owner name : String) (withComments : Bool) :
    List (String × String) → Answer → TrackerM (Except Crash Answer)
  | [], answer => return .ok answer
  | (aliased, number) :: rest, answer =>
    match intOfText number with
    | .error error => return .error (.builtin error)
    | .ok number => do
      let item ← readItem owner name number.toNat
      readAliases owner name withComments rest (answer.add withComments aliased item)

variable [Alphabet]

def graphql (payload : List (String × Json)) : TrackerM (Except Crash Json) :=
  let asked := Json.get payload "query" .null
  let query := (if asked.truthy then asked else .str "").text
  let vars := Json.get payload "variables" .null
  match if vars.truthy then vars else .obj [] with
  | .obj vars =>
    match Json.lookup "owner" vars, Json.lookup "name" vars, aliases query with
    | some (.str owner), some (.str name), first :: rest => do
      let withComments := decide ("comments".toList <:+: query.toList)
      let answer ← readAliases owner name withComments (first :: rest) {}
      return answer.map Answer.content
    | _, _, _ => return .ok unsupported
  | _ => return .error .attributeError

end Graphql

end BlizzardMock.Forge
