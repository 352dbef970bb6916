import BlizzardMock.Python.Text

namespace BlizzardMock

abbrev Text := List Char

def isLineBreak (c : Char) : Bool :=
  let n := c.toNat
  (10 ≤ n ∧ n ≤ 13) ∨ (28 ≤ n ∧ n ≤ 30) ∨ n = 0x85 ∨ n = 0x2028 ∨ n = 0x2029

def splitlines : Text → List Text
  | [] => []
  | c :: rest =>
    -- `\r\n` ends one line, at its `\n`
    if c = '\r' ∧ rest.head? = some '\n' then splitlines rest
    else if isLineBreak c then [] :: splitlines rest
    else match splitlines rest with
      | [] => [[c]]
      | line :: lines => (c :: line) :: lines

def joinLines (lines : List Text) : Text := ['\n'].intercalate lines

def stripBy (blank : Char → Bool) (text : Text) : Text :=
  ((text.dropWhile blank).reverse.dropWhile blank).reverse

def isBlank (c : Char) : Bool := c = ' ' ∨ c = '\t'

def alone (blank : Char → Bool) (tag line : Text) : Bool :=
  let rest := line.dropWhile blank
  tag.isPrefixOf rest && (rest.drop tag.length).all blank

def commonPrefix : Text → Text → Text
  | a :: as, b :: bs => if a = b then a :: commonPrefix as bs else []
  | _, _ => []

def margin (lines : List Text) : Text :=
  match (lines.filter fun line => !line.all isBlank).map (·.takeWhile isBlank) with
  | [] => []
  | first :: rest => rest.foldl commonPrefix first

def dedentLines (lines : List Text) : List Text :=
  lines.map fun line => if line.all isBlank then [] else line.drop (margin lines).length

def dedent (text : Text) : Text := joinLines (dedentLines (text.splitOn '\n'))

end BlizzardMock
