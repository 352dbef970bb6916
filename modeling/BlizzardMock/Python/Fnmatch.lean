namespace BlizzardMock

def bracketRanges : List Char → List (Char × Char)
  | lo :: '-' :: hi :: rest => (lo, hi) :: bracketRanges rest
  | c :: rest => (c, c) :: bracketRanges rest
  | [] => []

def bracketBody (cs : List Char) : Option (List Char × List Char) :=
  let head := cs.takeWhile (· = ']') |>.take 1
  let rest := cs.drop head.length
  match rest.dropWhile (· ≠ ']') with
  | [] => none
  | _ :: after => some (head ++ rest.takeWhile (· ≠ ']'), after)

def inRanges (ranges : List (Char × Char)) (c : Char) : Bool :=
  ranges.any fun r => r.1 ≤ c ∧ c ≤ r.2

inductive PatternItem
  | star
  | any
  | one (c : Char)
  | bracket (negated : Bool) (ranges : List (Char × Char))

def patternItems : Nat → List Char → List PatternItem
  | 0, _ => []
  | _, [] => []
  | fuel + 1, '*' :: rest => .star :: patternItems fuel rest
  | fuel + 1, '?' :: rest => .any :: patternItems fuel rest
  | fuel + 1, '[' :: rest =>
    let negated := rest.head? = some '!'
    match bracketBody (if negated then rest.tail else rest) with
    | none => .one '[' :: patternItems fuel rest
    | some (body, after) => .bracket negated (bracketRanges body) :: patternItems fuel after
  | fuel + 1, c :: rest => .one c :: patternItems fuel rest

def anyTail (p : List Char → Bool) : List Char → Bool
  | [] => p []
  | c :: cs => p (c :: cs) || anyTail p cs

def matchItems : List PatternItem → List Char → Bool
  | [], cs => cs.isEmpty
  | .star :: items, cs => anyTail (matchItems items) cs
  | .any :: items, _ :: cs => matchItems items cs
  | .one d :: items, c :: cs => c = d && matchItems items cs
  | .bracket negated ranges :: items, c :: cs =>
    (inRanges ranges c != negated) && matchItems items cs
  | _, [] => false

def fnmatchcase (name pattern : String) : Bool :=
  matchItems (patternItems pattern.length pattern.toList) name.toList

example : fnmatchcase "provider/claude-4" "provider/*-[0-9]" = true := by decide

end BlizzardMock
