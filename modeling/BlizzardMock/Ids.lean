import BlizzardMock.Python.DateTime

namespace BlizzardMock

def crockford : List Char := "0123456789ABCDEFGHJKMNPQRSTVWXYZ".toList

def timeChars : Nat := 10
def randChars : Nat := 16

def runnerPrefix : String := "rn"
def hostPrefix : String := "hs"
def tenantPrefix : String := "ten"
def projectPrefix : String := "proj"

/-- The `length` base-32 digits the loop of `_encode` appends, least significant first. -/
def encodeChars : Int → Nat → List Char
  | _, 0 => []
  | value, length + 1 =>
    crockford.getD (value % 32).toNat '0' :: encodeChars (value / 32) length

def encode (value : Int) (length : Nat) : String := String.ofList (encodeChars value length).reverse

def ulid (millis : Int) (randomness : Nat) : String :=
  encode millis timeChars ++ encode randomness randChars

def mintedId (kind : String) (millis : Int) (randomness : Nat) : String :=
  kind ++ "_" ++ ulid millis randomness

end BlizzardMock
