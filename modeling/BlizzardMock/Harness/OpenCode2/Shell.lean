import BlizzardMock.Python.Lines
import BlizzardMock.Data.Substitution

/-! The shell tool's expansion of `$$`, `${NAME:-default}` and `$NAME` from the session's
environment. -/

namespace BlizzardMock.Harness.OpenCode2.Shell

open Substitution

abbrev Env := Text → Option Text

def digits (pid : Int) : Text := (toString pid).toList

def isNameStart (c : Char) : Bool := c.isAlpha || c = '_'

def isNameChar (c : Char) : Bool := isNameStart c || c.isDigit

def nameAt (text : Text) : Option Text :=
  if text.head?.any isNameStart then some (text.takeWhile isNameChar) else none

def findDollars (text : Text) : Option (Unit × Nat) :=
  if ['$', '$'].isPrefixOf text then some ((), 2) else none

/-- `_BRACED`: a name and its default. -/
def findBraced (text : Text) : Option ((Text × Option Text) × Nat) :=
  if ['$', '{'].isPrefixOf text then
    (nameAt (text.drop 2)).bind fun name =>
      let after := text.drop (2 + name.length)
      if after.head? = some '}' then some ((name, none), name.length + 3)
      else if [':', '-'].isPrefixOf after ∧ '}' ∈ after.drop 2 then
        let word := (after.drop 2).takeWhile (· ≠ '}')
        some ((name, some word), name.length + word.length + 5)
      else none
  else none

/-- `_BARE`: a name. -/
def findBare (text : Text) : Option (Text × Nat) :=
  if text.head? = some '$' then (nameAt (text.drop 1)).map fun name =>
    (name, name.length + 1) else none

def dollars (pid : Int) (text : Text) : Text := sub findDollars (fun _ => digits pid) text

def bracedValue (env : Env) (name : Text) (default : Option Text) : Text :=
  ((env name).filter (· ≠ [])).getD (default.getD [])

def bareValue (env : Env) (name : Text) : Text := (env name).getD []

def expand (text : Text) (env : Env) (pid : Int) : Text :=
  let text := dollars pid text
  let text := sub findBraced (fun m => bracedValue env m.1 m.2) text
  sub findBare (bareValue env) text

end BlizzardMock.Harness.OpenCode2.Shell
