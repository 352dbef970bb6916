import BlizzardMock.Data.Dict
import BlizzardMock.Python.Json

/-! `json.loads`, of the bytes of a text, and `json.dumps` of an object of texts without blanks. -/

namespace BlizzardMock.JsonText

/-- What the interpreter decides beyond the ASCII rules: how bytes are decoded that are not all
ASCII and nonzero, the double a rendering denotes, and the character a surrogate without its other
half is. -/
class Codecs extends Unicode where
  decoded : List Nat → Option (List Char)
  double : List Char → Double
  surrogate : Nat → Char

/-- What `loads` raises, or that the recursion ran out of fuel. -/
inductive Failure
  | raised (e : PyError)
  | exhausted

section Strings

def hexValue (c : Char) : Option Nat :=
  let n := c.toNat
  if 48 ≤ n ∧ n ≤ 57 then some (n - 48)
  else if 97 ≤ n ∧ n ≤ 102 then some (n - 87)
  else if 65 ≤ n ∧ n ≤ 70 then some (n - 55)
  else none

def hexNumber (cs : List Char) : Option Nat :=
  cs.foldlM (fun n c => (hexValue c).map (16 * n + ·)) 0

def escape : Char → Option Char
  | '"' => some '"'
  | '\\' => some '\\'
  | '/' => some '/'
  | 'b' => some (Char.ofNat 8)
  | 'f' => some (Char.ofNat 12)
  | 'n' => some '\n'
  | 'r' => some '\r'
  | 't' => some '\t'
  | _ => none

inductive Code
  | char (c : Char)
  | escaped (n : Nat)

def codes : List Char → Option (List Code × List Char)
  | [] => none
  | c :: rest =>
    if c = '"' then some ([], rest)
    else if c = '\\' then
      match rest with
      | 'u' :: a :: b :: d :: e :: rest => do
        let n ← hexNumber [a, b, d, e]
        let (read, left) ← codes rest
        return (.escaped n :: read, left)
      | e :: rest => do
        let c ← escape e
        let (read, left) ← codes rest
        return (.char c :: read, left)
      | [] => none
    else if c.toNat < 32 then none
    else do
      let (read, left) ← codes rest
      return (.char c :: read, left)

variable [Codecs]

def join : List Code → List Char
  | [] => []
  | .char c :: rest => c :: join rest
  | .escaped n :: rest =>
    if 55296 ≤ n ∧ n < 57344 then
      match rest with
      | .escaped low :: rest =>
        if n < 56320 ∧ 56320 ≤ low ∧ low < 57344 then
          Char.ofNat (65536 + (n - 55296) * 1024 + (low - 56320)) :: join rest
        else Codecs.surrogate n :: join (.escaped low :: rest)
      | rest => Codecs.surrogate n :: join rest
    else Char.ofNat n :: join rest

def scanString (cs : List Char) : Except Failure (String × List Char) :=
  match codes cs with
  | some (read, left) => .ok (String.ofList (join read), left)
  | none => .error (.raised .valueError)

end Strings

section Numbers

def isDigit (c : Char) : Bool := 48 ≤ c.toNat ∧ c.toNat ≤ 57

def integral : List Char → Option (List Char × List Char)
  | '0' :: rest => some (['0'], rest)
  | cs => if cs.takeWhile isDigit = [] then none else some (cs.takeWhile isDigit, cs.dropWhile isDigit)

def fraction : List Char → List Char × List Char
  | '.' :: cs =>
    if cs.takeWhile isDigit = [] then ([], '.' :: cs)
    else ('.' :: cs.takeWhile isDigit, cs.dropWhile isDigit)
  | cs => ([], cs)

def sign : List Char → List Char × List Char
  | '+' :: cs => (['+'], cs)
  | '-' :: cs => (['-'], cs)
  | cs => ([], cs)

def exponent : List Char → List Char × List Char
  | [] => ([], [])
  | c :: cs =>
    if (c = 'e' ∨ c = 'E') ∧ (sign cs).2.takeWhile isDigit ≠ [] then
      (c :: (sign cs).1 ++ (sign cs).2.takeWhile isDigit, (sign cs).2.dropWhile isDigit)
    else ([], c :: cs)

variable [Codecs]

def unsigned (minus : Bool) (cs : List Char) : Except Failure (Json × List Char) :=
  match integral cs with
  | none => .error (.raised .valueError)
  | some (whole, rest) =>
    let (frac, rest) := fraction rest
    let (power, rest) := exponent rest
    if frac ++ power = [] then
      match unsignedInt whole with
      | .ok n => .ok (.int (if minus then -(n : Int) else n), rest)
      | .error e => .error (.raised e)
    else .ok (.float (Codecs.double ((if minus then ['-'] else []) ++ whole ++ frac ++ power)),
      rest)

def number : List Char → Except Failure (Json × List Char)
  | '-' :: cs => unsigned true cs
  | cs => unsigned false cs

def constants : List (List Char × Json) :=
  [("null".toList, .null), ("true".toList, .bool true), ("false".toList, .bool false),
    ("NaN".toList, .float .nan), ("Infinity".toList, .float (.infinite false)),
    ("-Infinity".toList, .float (.infinite true))]

def scalar (cs : List Char) : Except Failure (Json × List Char) :=
  match constants.find? fun constant => constant.1.isPrefixOf cs with
  | some (word, value) => .ok (value, cs.drop word.length)
  | none => number cs

end Numbers

def isBlank (c : Char) : Bool := c = ' ' ∨ c = '\t' ∨ c = '\n' ∨ c = '\r'

def blank (cs : List Char) : List Char := cs.dropWhile isBlank

def distinct (fields : List (String × Json)) : List (String × Json) :=
  fields.foldl (fun dict field => Dict.assign field.1 field.2 dict) []

section Values

variable [Codecs]

mutual

def value : Nat → List Char → Except Failure (Json × List Char)
  | 0, _ => .error .exhausted
  | fuel + 1, cs =>
    match cs with
    | '"' :: rest => do
      let (s, rest) ← scanString rest
      return (.str s, rest)
    | '\x7b' :: rest =>
      match blank rest with
      | '\x7d' :: rest => .ok (.obj [], rest)
      | rest => do
        let (read, rest) ← fields fuel rest
        return (.obj (distinct read), rest)
    | '[' :: rest =>
      match blank rest with
      | ']' :: rest => .ok (.arr [], rest)
      | rest => do
        let (read, rest) ← items fuel rest
        return (.arr read, rest)
    | cs => scalar cs

def items : Nat → List Char → Except Failure (List Json × List Char)
  | 0, _ => .error .exhausted
  | fuel + 1, cs => do
    let (item, rest) ← value fuel cs
    match blank rest with
    | ']' :: rest => return ([item], rest)
    | ',' :: rest => do
      let (read, rest) ← items fuel (blank rest)
      return (item :: read, rest)
    | _ => .error (.raised .valueError)

def fields : Nat → List Char → Except Failure (List (String × Json) × List Char)
  | 0, _ => .error .exhausted
  | fuel + 1, '"' :: cs => do
    let (key, rest) ← scanString cs
    match blank rest with
    | ':' :: rest => do
      let (read, rest) ← value fuel (blank rest)
      match blank rest with
      | '\x7d' :: rest => return ([(key, read)], rest)
      | ',' :: rest => do
        let (others, rest) ← fields fuel (blank rest)
        return ((key, read) :: others, rest)
      | _ => .error (.raised .valueError)
    | _ => .error (.raised .valueError)
  | _ + 1, _ => .error (.raised .valueError)

end

def parse (cs : List Char) : Except Failure Json := do
  let (read, rest) ← value (2 * cs.length + 1) (blank cs)
  if blank rest = [] then return read else .error (.raised .valueError)

def loads (bytes : List Nat) : Except Failure Json :=
  let chars :=
    if bytes.all fun b => 0 < b ∧ b < 128 then some (bytes.map Char.ofNat) else Codecs.decoded bytes
  match chars with
  | some cs => parse cs
  | none => .error (.raised .valueError)

end Values

def compactFields : List (String × String) → String
  | [] => ""
  | [(k, v)] => dumpsStr k ++ ":" ++ dumpsStr v
  | (k, v) :: rest => dumpsStr k ++ ":" ++ dumpsStr v ++ "," ++ compactFields rest

def compact (fields : List (String × String)) : String := "\x7b" ++ compactFields fields ++ "\x7d"

end BlizzardMock.JsonText
