import BlizzardMock.Data.Substitution
import BlizzardMock.Python.JsonText
import BlizzardMock.Python.Lines
import Mathlib.Data.List.SplitBy

namespace BlizzardMock.Url

class Replacing where
  replaced : List UInt8 → Text

/-- What `quote` leaves as it is. -/
def isSafe (c : Char) : Bool := c.isAlphanum || c ∈ ['_', '.', '-', '~']

def quoteByte (b : UInt8) : Text := ['%', hexDigit (b.toNat / 16), hexDigit (b.toNat % 16)]
where
  hexDigit (n : Nat) : Char := (Nat.digitChar n).toUpper

def quoteChar (c : Char) : Text :=
  if c = ' ' then ['+']
  else if isSafe c then [c]
  else (String.utf8EncodeChar c).flatMap quoteByte

def quotePlus (text : Text) : Text := text.flatMap quoteChar

def pair (item : Text × Text) : Text := quotePlus item.1 ++ '=' :: quotePlus item.2

def urlencode (query : List (Text × Text)) : Text := ['&'].intercalate (query.map pair)

def findEscape : Text → Option (UInt8 × Nat)
  | '%' :: a :: b :: _ => do
    let high ← JsonText.hexValue a
    let low ← JsonText.hexValue b
    return (UInt8.ofNat (16 * high + low), 3)
  | _ => none

def byteOf (c : Char) : UInt8 := UInt8.ofNat c.toNat

def unquoteToBytes (text : Text) : List UInt8 :=
  (Substitution.sub findEscape (fun b => [Char.ofNat b.toNat]) text).map byteOf

def isAscii (c : Char) : Bool := c.toNat < 128

variable [Replacing]

def decode (bytes : List UInt8) : Text :=
  match bytes.toByteArray.utf8Decode? with
  | some cs => cs.toList
  | none => Replacing.replaced bytes

def unquote (text : Text) : Text :=
  (text.splitBy fun a b => isAscii a == isAscii b).flatMap fun run =>
    if run.all isAscii then decode (unquoteToBytes run) else run

def unquotePlus (text : Text) : Text := unquote (text.map fun c => if c = '+' then ' ' else c)

def parseQsl (qs : Text) : List (Text × Text) :=
  ((qs.splitOn '&').filter (· ≠ [])).map fun piece =>
    (unquotePlus (piece.takeWhile (· ≠ '=')), unquotePlus ((piece.dropWhile (· ≠ '=')).drop 1))

end BlizzardMock.Url
