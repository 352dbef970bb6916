/-! JSON values as a request body holds them, and the Python coercions the hub applies to them:
truth, `str(·)`, `int(·)`, `list(·)`, and the length of `json.dumps(·)`. -/

namespace BlizzardMock

/-- A double as far as the code reads it: its shortest rendering and its exact value. -/
inductive Double
  | finite (repr : String) (value : Rat)
  | infinite (negative : Bool)
  | nan
  deriving DecidableEq

inductive Json
  | null
  | bool (b : Bool)
  | int (n : Int)
  | float (x : Double)
  | str (s : String)
  | arr (items : List Json)
  | obj (fields : List (String × Json))

instance : Inhabited Json := ⟨.null⟩

inductive PyError | typeError | valueError | overflowError
  deriving DecidableEq

/-- What the interpreter knows about characters, as far as no ASCII rule decides it. -/
class Unicode where
  isPrintable : Char → Bool

namespace Json

def lookup (key : String) : List (String × Json) → Option Json
  | [] => none
  | (k, v) :: rest => if k = key then some v else lookup key rest

def get (fields : List (String × Json)) (key : String) (default : Json) : Json :=
  (lookup key fields).getD default

def truthy : Json → Bool
  | .null => false
  | .bool b => b
  | .int n => n ≠ 0
  | .float (.finite _ q) => q ≠ 0
  | .float _ => true
  | .str s => s ≠ ""
  | .arr items => !items.isEmpty
  | .obj fields => !fields.isEmpty

end Json

def hexDigits (width n : Nat) : String :=
  let ds := Nat.toDigits 16 n
  String.ofList (List.replicate (width - ds.length) '0' ++ ds)

def Double.repr : Double → String
  | .finite r _ => r
  | .infinite negative => if negative then "-inf" else "inf"
  | .nan => "nan"

section Rendering

variable [Unicode]

/-- One character of `repr(s)` between quotes of code point `quote`. -/
def reprChar (quote : Nat) (c : Char) : String :=
  let n := c.toNat
  if n = quote ∨ n = 92 then "\\" ++ c.toString
  else if n = 10 then "\\n"
  else if n = 13 then "\\r"
  else if n = 9 then "\\t"
  else if n < 32 ∨ n = 127 then "\\x" ++ hexDigits 2 n
  else if n < 127 ∨ Unicode.isPrintable c then c.toString
  else if n ≤ 255 then "\\x" ++ hexDigits 2 n
  else if n ≤ 65535 then "\\u" ++ hexDigits 4 n
  else "\\U" ++ hexDigits 8 n

def reprStr (s : String) : String :=
  let cs := s.toList
  let quote := if cs.any (·.toNat = 39) && !cs.any (·.toNat = 34) then 34 else 39
  let q := (Char.ofNat quote).toString
  q ++ String.join (cs.map (reprChar quote)) ++ q

mutual
def Json.repr : Json → String
  | .null => "None"
  | .bool b => if b then "True" else "False"
  | .int n => toString n
  | .float x => x.repr
  | .str s => reprStr s
  | .arr items => "[" ++ Json.reprItems items ++ "]"
  | .obj fields => "\x7b" ++ Json.reprFields fields ++ "\x7d"

def Json.reprItems : List Json → String
  | [] => ""
  | [v] => v.repr
  | v :: rest => v.repr ++ ", " ++ Json.reprItems rest

def Json.reprFields : List (String × Json) → String
  | [] => ""
  | [(k, v)] => reprStr k ++ ": " ++ v.repr
  | (k, v) :: rest => reprStr k ++ ": " ++ v.repr ++ ", " ++ Json.reprFields rest
end

def Json.text : Json → String
  | .str s => s
  | v => v.repr

@[simp] theorem Json.text_str (s : String) : (Json.str s).text = s := rfl

end Rendering

def Json.optionalText [Unicode] : Json → Option String
  | .null => none
  | v => some v.text

/-- One character of a `json.dumps` string, every non-ASCII one escaped. -/
def dumpsChar (c : Char) : String :=
  let n := c.toNat
  if n = 34 ∨ n = 92 then "\\" ++ c.toString
  else if n = 10 then "\\n"
  else if n = 13 then "\\r"
  else if n = 9 then "\\t"
  else if n = 12 then "\\f"
  else if n = 8 then "\\b"
  else if n < 32 then "\\u" ++ hexDigits 4 n
  else if n < 127 then c.toString
  else if n ≤ 65535 then "\\u" ++ hexDigits 4 n
  else "\\u" ++ hexDigits 4 (55296 + (n - 65536) / 1024) ++
    "\\u" ++ hexDigits 4 (56320 + (n - 65536) % 1024)

def dumpsStr (s : String) : String := "\"" ++ String.join (s.toList.map dumpsChar) ++ "\""

mutual
def Json.dumps : Json → String
  | .null => "null"
  | .bool b => if b then "true" else "false"
  | .int n => toString n
  | .float (.finite r _) => r
  | .float (.infinite negative) => if negative then "-Infinity" else "Infinity"
  | .float .nan => "NaN"
  | .str s => dumpsStr s
  | .arr items => "[" ++ Json.dumpsItems items ++ "]"
  | .obj fields => "\x7b" ++ Json.dumpsFields fields ++ "\x7d"

def Json.dumpsItems : List Json → String
  | [] => ""
  | [v] => v.dumps
  | v :: rest => v.dumps ++ ", " ++ Json.dumpsItems rest

def Json.dumpsFields : List (String × Json) → String
  | [] => ""
  | [(k, v)] => dumpsStr k ++ ": " ++ v.dumps
  | (k, v) :: rest => dumpsStr k ++ ": " ++ v.dumps ++ ", " ++ Json.dumpsFields rest
end

def decimalZeros : List Nat :=
  [0x30, 0x660, 0x6f0, 0x7c0, 0x966, 0x9e6, 0xa66, 0xae6, 0xb66, 0xbe6, 0xc66, 0xce6, 0xd66, 0xde6,
    0xe50, 0xed0, 0xf20, 0x1040, 0x1090, 0x17e0, 0x1810, 0x1946, 0x19d0, 0x1a80, 0x1a90, 0x1b50,
    0x1bb0, 0x1c40, 0x1c50, 0xa620, 0xa8d0, 0xa900, 0xa9d0, 0xa9f0, 0xaa50, 0xabf0, 0xff10, 0x104a0,
    0x10d30, 0x11066, 0x110f0, 0x11136, 0x111d0, 0x112f0, 0x11450, 0x114d0, 0x11650, 0x116c0,
    0x11730, 0x118e0, 0x11950, 0x11c50, 0x11d50, 0x11da0, 0x11f50, 0x16a60, 0x16ac0, 0x16b50,
    0x1d7ce, 0x1d7d8, 0x1d7e2, 0x1d7ec, 0x1d7f6, 0x1e140, 0x1e2f0, 0x1e4f0, 0x1e950, 0x1fbf0]

def decimalDigit (c : Char) : Option Nat :=
  (decimalZeros.find? fun z => z ≤ c.toNat ∧ c.toNat < z + 10).map (c.toNat - ·)

/-- The blanks `int(·)` strips: the ASCII ones it skips, and the non-ASCII ones it reads as blanks.
-/
def isIntSpace (c : Char) : Bool :=
  let n := c.toNat
  n = 32 ∨ (9 ≤ n ∧ n ≤ 13) ∨ n = 0x85 ∨ n = 0xa0 ∨ n = 0x1680 ∨ (0x2000 ≤ n ∧ n ≤ 0x200a) ∨
    n = 0x2028 ∨ n = 0x2029 ∨ n = 0x202f ∨ n = 0x205f ∨ n = 0x3000

def digitRun : List Char → Option (List Nat)
  | [] => none
  | [c] => (decimalDigit c).map fun d => [d]
  | c :: '_' :: rest => return (← decimalDigit c) :: (← digitRun rest)
  | c :: rest => return (← decimalDigit c) :: (← digitRun rest)

def intMaxStrDigits : Nat := 4300

def natOfDigits (ds : List Nat) : Nat := ds.foldl (fun n d => 10 * n + d) 0

def unsignedInt (cs : List Char) : Except PyError Nat :=
  match digitRun cs with
  | some ds => if ds.length ≤ intMaxStrDigits then .ok (natOfDigits ds) else .error .valueError
  | none => .error .valueError

def intOfText (s : String) : Except PyError Int :=
  match ((s.toList.dropWhile isIntSpace).reverse.dropWhile isIntSpace).reverse with
  | '-' :: cs => (unsignedInt cs).map fun n => -(n : Int)
  | '+' :: cs => (unsignedInt cs).map Int.ofNat
  | cs => (unsignedInt cs).map Int.ofNat

def Json.toInt : Json → Except PyError Int
  | .null => .error .typeError
  | .bool b => .ok (if b then 1 else 0)
  | .int n => .ok n
  | .float (.finite _ q) => .ok (if 0 ≤ q then q.floor else q.ceil)
  | .float (.infinite _) => .error .overflowError
  | .float .nan => .error .valueError
  | .str s => intOfText s
  | .arr _ => .error .typeError
  | .obj _ => .error .typeError

@[simp] theorem Json.toInt_int (n : Int) : (Json.int n).toInt = .ok n := rfl

def Json.toList : Json → Except PyError (List Json)
  | .arr items => .ok items
  | .str s => .ok (s.toList.map fun c => .str c.toString)
  | .obj fields => .ok (fields.map fun f => .str f.1)
  | _ => .error .typeError

end BlizzardMock
