import BlizzardMock.Python.Fnmatch
import BlizzardMock.Python.Json
import BlizzardMock.Python.Text

namespace BlizzardMock.OpenCode2

abbrev Fields := List (String × Json)

namespace Rules

def wildcard (pattern text : String) : Bool :=
  let item : Char → PatternItem := fun c =>
    if c = '*' then .star else if c = '?' then .any else .one c
  matchItems (pattern.toList.map item) text.toList

variable [Unicode]

def evaluate (rules : List Fields) (action resource : String) : String :=
  rules.foldl
    (fun effect rule =>
      if wildcard (Json.get rule "action" (.str "")).text action &&
          wildcard (Json.get rule "resource" (.str "")).text resource
      then (Json.get rule "effect" (.str "allow")).text
      else effect)
    "allow"

def withheld (rules : List Fields) (tool : String) : Bool :=
  match (rules.filter fun rule => wildcard (Json.get rule "action" (.str "")).text tool).getLast?
      with
  | none => false
  | some rule =>
    match Json.lookup "resource" rule, Json.lookup "effect" rule with
    | some (.str resource), some (.str effect) => resource = "*" && effect = "deny"
    | _, _ => false

/-- The pattern an `always` reply saves. -/
def savePattern (command : String) : String := (splitAt ' ' command).headD "" ++ " *"

end Rules

end BlizzardMock.OpenCode2
