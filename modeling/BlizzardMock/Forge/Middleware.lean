import BlizzardMock.Forge.Operations
import BlizzardMock.Python.Text

/-! The middleware in front of the routes: the levers that bend a request, conditional reads, and
the rate headers. -/

namespace BlizzardMock.Forge

open Method

structure Request where
  method : String
  path : String
  authorization : Option String := none
  ifNoneMatch : Option String := none

inductive Body
  | json (content : Json)
  | bytes (content : List UInt8)

structure Response where
  status : Nat
  body : Body
  headers : Dict String String := ∅

class Digest where
  sha256 : Body → String

def exemptPrefixes : List String :=
  ["/_clock", "/_levers", "/_repos", "/healthz", "/docs", "/openapi.json", "/redoc"]

def graphqlBucketPrefix : String := "graphql:"

def secondaryLimitMessage : String :=
  "You have exceeded a secondary rate limit. Please wait a few minutes before you try again."

def repoFromPath (path : String) : Option String :=
  match (splitAt '/' path).filter (· ≠ "") with
  | first :: owner :: name :: _ => if first = "repos" then some (owner ++ "/" ++ name) else none
  | _ => none

def Request.bucket (request : Request) : String :=
  strip (afterFirst ' ' (request.authorization.getD ""))

def Request.Exempt (request : Request) : Prop :=
  ∃ lead ∈ exemptPrefixes, startsWith request.path lead = true

instance (request : Request) : Decidable request.Exempt :=
  inferInstanceAs (Decidable (∃ lead ∈ exemptPrefixes, _))

def updateHeaders (headers : Dict String String) (other : List (String × String)) :
    Dict String String :=
  other.foldl (fun headers header => headers.set header.1 header.2) headers

def rateHeaders (window : RateWindow) (remaining : Option Int) (resource : String) :
    List (String × String) :=
  [("X-RateLimit-Limit", toString window.limit),
    ("X-RateLimit-Remaining", toString (remaining.getD window.remaining)),
    ("X-RateLimit-Reset", toString window.reset),
    ("X-RateLimit-Resource", resource)]

def errorResponse (status : Nat) (message : String) (headers : List (String × String)) :
    Response where
  status := status
  body := .json (.obj [("message", .str message),
    ("documentation_url", .str "https://docs.github.com/rest")])
  headers := updateHeaders ∅ headers

/-- `_matches` -/
def etagMatches (ifNoneMatch : Option String) (etag : String) : Bool :=
  match ifNoneMatch with
  | none => false
  | some text =>
    let candidates := (splitAt ',' text).map fun c => removePrefix "W/" (strip c)
    candidates.contains "*" || candidates.contains etag

namespace ForgeService

def peekRate (bucket : String) : ForgeM RateWindow := do
  let now ← now
  let rate ← read (·.rate)
  setRate fun _ => (rate.peek now bucket).2
  return (rate.peek now bucket).1

def countRate (bucket : String) : ForgeM RateWindow := do
  let now ← now
  let rate ← read (·.rate)
  setRate fun _ => (rate.count now bucket).2
  return (rate.count now bucket).1

def bending (kind : LeverKind) (request : Request) : ForgeM (Option ArmedLever) :=
  read (·.levers.find kind (repoFromPath request.path) none)

/-- `LeverMiddleware.dispatch` -/
def leverMiddleware (request : Request) (callNext : ForgeM Response) : ForgeM Response :=
  if request.Exempt then callNext
  else do
    let unreachable ← bending .unreachable request
    if unreachable.isSome then return errorResponse 503 "the forge is unreachable" []
    else
      let rejected ← bending .tokenRejected request
      if rejected.isSome then
        return errorResponse 401 "Bad credentials" [("WWW-Authenticate", "Bearer")]
      else
        let window ← peekRate request.bucket
        let rate ← bending .rateLimited request
        match rate with
        | some rate =>
          setLevers (·.consume rate)
          return errorResponse 403 "API rate limit exceeded"
            (rateHeaders window (some 0) "core" ++ [("Retry-After", "60")])
        | none =>
          let secondary ← bending .secondaryRateLimited request
          match secondary with
          | some secondary =>
            setLevers (·.consume secondary)
            -- an empty message is falsy, so it falls back like an absent one
            return errorResponse 403
              ((secondary.message.filter (· ≠ "")).getD secondaryLimitMessage)
              (rateHeaders window none "core" ++ [("Retry-After", "60")])
          | none => callNext

def graphql (request : Request) (callNext : ForgeM Response) : ForgeM Response := do
  let bucket := graphqlBucketPrefix ++ request.bucket
  let window ← peekRate bucket
  if window.remaining ≤ 0 then
    let limited : Json := .obj [("type", .str "RATE_LIMITED"),
      ("message", .str "API rate limit already exceeded for user ID.")]
    return {
      status := 200
      body := .json (.obj [("data", .null), ("errors", .arr [limited])])
      headers := updateHeaders ∅ (rateHeaders window none "graphql") }
  else
    let response ← callNext
    let window ← countRate bucket
    return { response with
      headers := updateHeaders (response.headers.erase "content-length")
        (rateHeaders window none "graphql") }

variable [Digest]

def etag (body : Body) : String := "\"" ++ Digest.sha256 body ++ "\""

/-- `RateHeaderMiddleware.dispatch` -/
def rateHeaderMiddleware (request : Request) (callNext : ForgeM Response) : ForgeM Response :=
  if request.path = "/graphql" then graphql request callNext
  else if startsWith request.path "/repos/" = false then callNext
  else do
    let response ← callNext
    let etag := etag response.body
    let tagged : Bool := request.method = "GET" ∧ response.status = 200
    if tagged ∧ etagMatches request.ifNoneMatch etag then
      -- uncounted: the window is read, not spent
      let window ← peekRate request.bucket
      return {
        status := 304
        body := .bytes []
        headers := updateHeaders ∅ (("ETag", etag) :: rateHeaders window none "core") }
    else
      let headers := response.headers.erase "content-length"
      let window ← countRate request.bucket
      return { response with
        headers := updateHeaders (if tagged then headers.set "ETag" etag else headers)
          (rateHeaders window none "core") }

end ForgeService

/-- A request and what its route does of it, where it reaches one. -/
structure Visit where
  request : Request
  calls : List Op := []
  answer : Option Response
  modified : ∀ response ∈ answer, response.status ≠ 304

namespace Visit

open ForgeService

variable [GitHost] [Digest]

def route (visit : Visit) : ForgeM Response := do
  write (Machine.after ForgeService.next visit.calls)
  orRaise .gitCommandError visit.answer

def respond (visit : Visit) : ForgeM Response :=
  leverMiddleware visit.request (rateHeaderMiddleware visit.request visit.route)

def next (visit : Visit) (forge : ForgeService) : ForgeService := Method.after visit.respond forge

end Visit

end BlizzardMock.Forge
