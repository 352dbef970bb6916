import BlizzardMock.Data.Method
import Mathlib.Data.List.Sort

/-! High-water lanes.  A batch of numbered items is taken in the order of their numbers; one at or
under the mark is acknowledged unread, any other is judged, and an accepted one moves the mark. -/

namespace BlizzardMock

open Method

structure Lane where
  mark : Int
  applied : List Int := []
  alreadyApplied : List Int := []
  rejected : List Int := []
  deriving DecidableEq

namespace Lane

variable {ε σ φ : Type}

/-- What a lane is made of: an item's number, the judgement of an item, and where an accepted
number moves a mark. -/
structure Rule (ε σ φ : Type) where
  seq : φ → Int
  judge : φ → EStateM ε σ Bool
  advance : Int → Int → Int

def skip (lane : Lane) (seq : Int) : Lane :=
  { lane with alreadyApplied := lane.alreadyApplied ++ [seq] }

def judged (advance : Int → Int → Int) (lane : Lane) (seq : Int) : Bool → Lane
  | true => { lane with applied := lane.applied ++ [seq], mark := advance lane.mark seq }
  | false => { lane with rejected := lane.rejected ++ [seq] }

namespace Rule

variable (rule : Rule ε σ φ)

def loop : List φ → Lane → EStateM ε σ Lane
  | [], lane => pure lane
  | item :: rest, lane =>
    if rule.seq item ≤ lane.mark then loop rest (lane.skip (rule.seq item))
    else do
      let accepted ← rule.judge item
      loop rest (lane.judged rule.advance (rule.seq item) accepted)

def reached : List φ → Lane → σ → List (φ × σ)
  | [], _, _ => []
  | item :: rest, lane, s =>
    if rule.seq item ≤ lane.mark then reached rest (lane.skip (rule.seq item)) s
    else (item, s) :: match answer (rule.judge item) s with
      | .ok accepted => reached rest (lane.judged rule.advance (rule.seq item) accepted)
          (after (rule.judge item) s)
      | .error _ => []

def sorted (items : List φ) : List φ := items.insertionSort fun a b => rule.seq a ≤ rule.seq b

def push (items : List φ) (mark : Int) : EStateM ε σ Lane :=
  rule.loop (rule.sorted items) { mark := mark }

def pushReached (items : List φ) (mark : Int) (s : σ) : List (φ × σ) :=
  rule.reached (rule.sorted items) { mark := mark } s

end Rule

end Lane

end BlizzardMock
