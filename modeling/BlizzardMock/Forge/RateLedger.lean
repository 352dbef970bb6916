import BlizzardMock.Data.Dict
import BlizzardMock.Data.Machine
import BlizzardMock.Forge.Models

/-! The rate-limit ledger: a window of requests a credential, read through the clock. -/

namespace BlizzardMock.Forge

def defaultRateLimit : Int := 5000

def rateWindowSeconds : Int := 3600

def anonymousBucket : String := ""

structure RateWindow where
  limit : Int
  remaining : Int
  reset : Int
  deriving DecidableEq

structure Window where
  remaining : Int
  reset : Int
  deriving DecidableEq

def Window.apply (window : Window) (remaining reset : Option Int) : Window where
  remaining := remaining.getD window.remaining
  reset := reset.getD window.reset

structure InMemoryRateLedger where
  limit : Int := defaultRateLimit
  windows : Dict String Window := ∅
  template : Option Window := none

namespace InMemoryRateLedger

def now (clock : Instant) : Int := clock.tdiv 1000000

def live (ledger : InMemoryRateLedger) (clock : Instant) (bucket : String) :
    Option Window × InMemoryRateLedger :=
  match ledger.windows.get? bucket with
  | none => (none, ledger)
  | some window =>
    if window.reset ≤ now clock then (none, { ledger with windows := ledger.windows.erase bucket })
    else (some window, ledger)

def fresh (ledger : InMemoryRateLedger) (clock : Instant) : Window × InMemoryRateLedger :=
  match ledger.template.filter (now clock < ·.reset) with
  | some template => (template, ledger)
  | none => (⟨ledger.limit, now clock + rateWindowSeconds⟩, { ledger with template := none })

def liveOrFresh (ledger : InMemoryRateLedger) (clock : Instant) (bucket : String) :
    Window × InMemoryRateLedger :=
  match ledger.live clock bucket with
  | (some window, ledger) => (window, ledger)
  | (none, ledger) => ledger.fresh clock

def putWindow (ledger : InMemoryRateLedger) (bucket : String) (window : Window) :
    InMemoryRateLedger :=
  { ledger with windows := ledger.windows.set bucket window }

def count (ledger : InMemoryRateLedger) (clock : Instant) (bucket : String) :
    RateWindow × InMemoryRateLedger :=
  let (window, ledger) := ledger.liveOrFresh clock bucket
  let remaining := max (window.remaining - 1) 0
  (⟨ledger.limit, remaining, window.reset⟩, ledger.putWindow bucket ⟨remaining, window.reset⟩)

def peek (ledger : InMemoryRateLedger) (clock : Instant) (bucket : String) :
    RateWindow × InMemoryRateLedger :=
  let (window, ledger) := ledger.liveOrFresh clock bucket
  (⟨ledger.limit, window.remaining, window.reset⟩, ledger)

def applyLive (clock : Instant) (remaining reset : Option Int) (ledger : InMemoryRateLedger)
    (bucket : String) : InMemoryRateLedger :=
  match ledger.live clock bucket with
  | (some window, ledger) => ledger.putWindow bucket (window.apply remaining reset)
  | (none, ledger) => ledger

def setBudget (ledger : InMemoryRateLedger) (clock : Instant) (token : Option String)
    (remaining reset : Option Int) : InMemoryRateLedger :=
  match token with
  | some token =>
    let (window, ledger) := ledger.liveOrFresh clock token
    ledger.putWindow token (window.apply remaining reset)
  | none =>
    let (window, ledger) := ledger.fresh clock
    let ledger := { ledger with windows := ledger.windows.setdefault anonymousBucket window }
    let ledger := ledger.windows.keys.foldl (applyLive clock remaining reset) ledger
    { ledger with
      template := some
        ⟨remaining.getD ledger.limit, reset.getD (now clock + rateWindowSeconds)⟩ }

def clear (ledger : InMemoryRateLedger) : InMemoryRateLedger :=
  { ledger with windows := ∅, template := none }

end InMemoryRateLedger

structure RateMeter where
  ledger : InMemoryRateLedger
  clock : Instant

inductive RateOp
  | count (bucket : String)
  | peek (bucket : String)
  | setBudget (token : Option String) (remaining reset : Option Int)
  | advance (micros : Nat)

def RateOp.next : RateOp → RateMeter → RateMeter
  | .count bucket, meter => { meter with ledger := (meter.ledger.count meter.clock bucket).2 }
  | .peek bucket, meter => { meter with ledger := (meter.ledger.peek meter.clock bucket).2 }
  | .setBudget token remaining reset, meter =>
    { meter with ledger := meter.ledger.setBudget meter.clock token remaining reset }
  | .advance micros, meter => { meter with clock := meter.clock + micros }

end BlizzardMock.Forge
