import BlizzardMock.Python.Lines

/-! Which part of a turn's prompt the engine artifact runs.  It carries no other package, so the
split is restated here. -/

namespace BlizzardMock.Harness.OpenCode2

def preambleTableHeader : Text := "| Field | Value |".toList

namespace Program

/-- `_OPEN` -/
def opens (line : Text) : Bool := alone isSpace "<behavior-script>".toList line

/-- `_CLOSE` -/
def closes (line : Text) : Bool := alone isSpace "</behavior-script>".toList line

structure Reading where
  blocks : List Text := []
  body : Option (List Text) := none

def Reading.step (reading : Reading) (line : Text) : Reading :=
  match reading.body with
  | none => if opens line then { reading with body := some [] } else reading
  | some body =>
    if closes line then { blocks := reading.blocks ++ [dedent (joinLines body)], body := none }
    else { reading with body := some (body ++ [line]) }

def tagged (prompt : Text) : Bool := (splitlines prompt).any opens

def program (prompt : Text) : Text :=
  let lines := splitlines prompt
  let reading := lines.foldl Reading.step {}
  if reading.blocks ≠ [] then joinLines reading.blocks
  else match lines.dropWhile (stripBy isSpace · ≠ preambleTableHeader) with
    | [] => prompt
    | _ :: rest =>
      let after := rest.dropWhile fun line => (line.dropWhile isSpace).head? = some '|'
      (joinLines after).dropWhile (· = '\n')

end Program

end BlizzardMock.Harness.OpenCode2
