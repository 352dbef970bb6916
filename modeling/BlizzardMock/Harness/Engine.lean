import BlizzardMock.Python.Lines

/-! Which part of a prompt the exec engine runs: its `<behavior-script>` blocks, else what follows
the runner's preamble table. -/

namespace BlizzardMock.Harness

def preambleTableHeader : Text := "| Field | Value |".toList

def behaviorScriptOpen : Text := "<behavior-script>".toList

def behaviorScriptClose : Text := "</behavior-script>".toList

structure BehaviorScriptTagError where
  message : String
  deriving DecidableEq

/-- A tagged prompt's two halves: the program, and the prose around it. -/
structure TaggedPrompt where
  script : Text
  prose : Text
  deriving DecidableEq

namespace Engine

def openLine (line : Text) : Bool := alone isBlank behaviorScriptOpen line

def closeLine (line : Text) : Bool := alone isBlank behaviorScriptClose line

structure Split where
  blocks : List Text := []
  prose : List Text := []
  body : List Text := []
  openLine : Option Nat := none

def Split.step (split : Split) (numbered : Text × Nat) : Except BehaviorScriptTagError Split :=
  let (line, number) := numbered
  if Engine.openLine line then
    match split.openLine with
    | some opened => .error ⟨"malformed behavior-script tags: a nested <behavior-script> on line " ++
        toString number ++ " inside the block opened on line " ++ toString opened ++
        " — blocks do not nest"⟩
    | none => .ok { split with openLine := some number, body := [] }
  else if closeLine line then
    match split.openLine with
    | none => .error ⟨"unbalanced behavior-script tags: a </behavior-script> on line " ++
        toString number ++ " with no opening <behavior-script>"⟩
    | some _ =>
      .ok { split with blocks := split.blocks ++ [dedent (joinLines split.body)], openLine := none }
  else match split.openLine with
    | none => .ok { split with prose := split.prose ++ [line] }
    | some _ => .ok { split with body := split.body ++ [line] }

def squeeze : Nat → Text → Text
  | _, [] => []
  | run, c :: rest =>
    if c = '\n' then if run < 2 then c :: squeeze (run + 1) rest else squeeze run rest
    else c :: squeeze 0 rest

def splitBehaviorScript (prompt : Text) : Except BehaviorScriptTagError (Option TaggedPrompt) := do
  let split ← ((splitlines prompt).zipIdx 1).foldlM Split.step {}
  match split.openLine with
  | some opened => .error ⟨"unbalanced behavior-script tags: the <behavior-script> on line " ++
      toString opened ++ " has no closing </behavior-script>"⟩
  | none =>
    if split.blocks = [] then return none
    else
      let script := joinLines split.blocks
      if stripBy isSpace script = [] then
        .error ⟨"empty behavior-script block: the <behavior-script> block(s) enclose nothing to execute"⟩
      else return some ⟨script, stripBy isSpace (squeeze 0 (joinLines split.prose))⟩

def isRow (line : Text) : Bool := (line.dropWhile isSpace).head? = some '|'

def splitWorkerPreamble (prompt : Text) : Text × Text :=
  let lines := splitlines prompt
  let before := lines.takeWhile (stripBy isSpace · ≠ preambleTableHeader)
  match lines.drop before.length with
  | [] => ([], prompt)
  | header :: rest =>
    let rows := rest.takeWhile isRow
    (joinLines (before ++ header :: rows), (joinLines (rest.drop rows.length)).dropWhile (· = '\n'))

def scriptOf (prompt : Text) (tagged : Option TaggedPrompt) : Text :=
  match tagged with
  | some tagged => tagged.script
  | none => (splitWorkerPreamble prompt).2

end Engine

end BlizzardMock.Harness
