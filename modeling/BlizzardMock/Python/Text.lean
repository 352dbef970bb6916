import BlizzardMock.Python.Json

namespace BlizzardMock

def isSpace (c : Char) : Bool :=
  let n := c.toNat
  isIntSpace c ∨ (28 ≤ n ∧ n ≤ 31)

def strip (s : String) : String :=
  String.ofList ((s.toList.dropWhile isSpace).reverse.dropWhile isSpace).reverse

def splitAt (sep : Char) (s : String) : List String := (s.toList.splitOn sep).map String.ofList

def afterFirst (sep : Char) (s : String) : String :=
  String.ofList ((s.toList.dropWhile (· ≠ sep)).drop 1)

def startsWith (s lead : String) : Bool := lead.toList.isPrefixOf s.toList

@[simp] theorem startsWith_append (lead s : String) : startsWith (lead ++ s) lead = true := by
  simp [startsWith]

def removePrefix (lead s : String) : String :=
  if startsWith s lead then String.ofList (s.toList.drop lead.length) else s

end BlizzardMock
