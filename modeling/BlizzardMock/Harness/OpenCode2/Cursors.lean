import BlizzardMock.Harness.OpenCode2.Store
import BlizzardMock.Python.Base64
import BlizzardMock.Python.JsonText

namespace BlizzardMock.OpenCode2.Store

open JsonText

inductive Raised
  | sessionNotFound (id : String)
  | invalidCursor (text : String)
  | limitOutOfRange (text : String)
  | keyError (key : String)
  | codec (failure : Failure)

def encodeCursor (messageId order : String) (direction : String := "next") : String :=
  let raw := compact [("id", messageId), ("order", order), ("direction", direction)]
  String.ofList (Base64.strip (Base64.encode (raw.toList.map Char.toNat)))

def item (key : String) : Json → Except Raised Json
  | .obj fields =>
    match Json.lookup key fields with
    | some value => .ok value
    | none => .error (.keyError key)
  | _ => .error (.codec (.raised .typeError))

def parts [Unicode] (decoded : Json) : Except Raised (String × String × Json) := do
  let messageId ← item "id" decoded
  let order ← item "order" decoded
  let direction ← item "direction" decoded
  return (messageId.text, order.text, direction)

section Decoding

variable [Codecs]

/-- What `decode_cursor` reads before it looks at the direction. -/
def decoded (cursor : String) : Except Raised (String × String × Json) :=
  match Base64.decode (Base64.pad cursor.toList) with
  | .error e => .error (.codec (.raised e))
  | .ok bytes =>
    match loads bytes with
    | .error failure => .error (.codec failure)
    | .ok value => parts value

def decodeCursor (cursor : String) : Except Raised (String × String) :=
  match decoded cursor with
  | .ok (messageId, order, .str "next") => .ok (messageId, order)
  | .ok _ => .error (.invalidCursor "the mock pages forward only")
  | .error (.codec (.raised .valueError)) => .error (.invalidCursor "Invalid cursor")
  | .error (.codec (.raised .typeError)) => .error (.invalidCursor "Invalid cursor")
  | .error (.keyError _) => .error (.invalidCursor "Invalid cursor")
  | .error e => .error e

end Decoding

structure Cursors where
  previous : Option String := none
  next : Option String := none

def messageId (message : Fields) : Option String := (Json.lookup "id" message).bind asText

def listed (order : String) (messages : List Fields) : List Fields :=
  if order = "desc" then messages.reverse else messages

def behind : Option String → List Fields → List Fields
  | none, messages => messages
  | some after, messages =>
    match messages.findIdx? fun message => messageId message = some after with
    | some i => messages.drop (i + 1)
    | none => []

def paged [Unicode] (order : String) (size : Nat) (messages : List Fields) :
    Except Raised (List Fields × Cursors) :=
  let page := messages.take size
  match page.head?, page.getLast? with
  | some first, some last => do
    let previous ← item "id" (.obj first)
    let next ← item "id" (.obj last)
    return (page, {
      previous := some (encodeCursor previous.text order "previous")
      next := some (encodeCursor next.text order) })
  | _, _ => .ok (page, {})

def defaultPageLimit : Int := 50
def maxPageLimit : Int := 200

def chosen : Option String → String
  | none => "asc"
  | some order => if order = "" then "asc" else order

namespace Engine

def get (engine : Engine) (sessionId : String) : Except Raised Session :=
  match engine.sessions.get? sessionId with
  | some session => .ok session
  | none => .error (.sessionNotFound sessionId)

variable [Codecs]

def messages (engine : Engine) (sessionId : String) (order : Option String) (limit : Option Int)
    (cursor : Option String) : Except Raised (List Fields × Cursors) := do
  if cursor.isSome ∧ order.isSome then throw (.invalidCursor "Cursor cannot be combined with order")
  let (after, order) ← match cursor with
    | none => Except.ok (none, order)
    | some cursor => (decodeCursor cursor).map fun pair => (some pair.1, some pair.2)
  let size := limit.getD defaultPageLimit
  if ¬(1 ≤ size ∧ size ≤ maxPageLimit) then
    throw (.limitOutOfRange "Expected a value less than or equal to 200 at limit")
  let session ← engine.get sessionId
  paged (chosen order) size.toNat (behind after (listed (chosen order) session.messages))

def append (engine : Engine) (sessionId : String) (more : List Fields) : Engine :=
  match engine.sessions.get? sessionId with
  | some session =>
    { engine with
      sessions := engine.sessions.put { session with messages := session.messages ++ more } }
  | none => engine

/-- A caller that follows the next cursors, one step for each page it asks for: the limit it gives,
and what is appended before it asks again.  With the pages comes whether the last of them was empty.
-/
def follow (sessionId : String) :
    Engine → Option String → Option String → List (Option Int × List Fields) →
      Except Raised (List (List Fields) × Bool)
  | _, _, _, [] => .ok ([], false)
  | engine, order, cursor, (limit, more) :: steps => do
    let (page, cursors) ← engine.messages sessionId order limit cursor
    match cursors.next with
    | none => return ([page], true)
    | some next =>
      let (pages, ended) ← follow sessionId (engine.append sessionId more) none (some next) steps
      return (page :: pages, ended)

end Engine

end BlizzardMock.OpenCode2.Store
