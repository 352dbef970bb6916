import BlizzardMock.Forge.RateLedger

namespace BlizzardMock.Forge

def Window.spend (window : Window) (requests : Nat) : Window :=
  { window with remaining := max (window.remaining - requests) 0 }

theorem Window.spend_zero {window : Window} (h : 0 ≤ window.remaining) :
    window.spend 0 = window := by
  have same : max (window.remaining - (0 : Nat)) 0 = window.remaining := by omega
  rw [spend, same]

theorem Window.spend_spend (window : Window) (m n : Nat) :
    (window.spend m).spend n = window.spend (m + n) := by
  have same : max (max (window.remaining - m) 0 - n) 0 = max
    (window.remaining - (m + n : Nat)) 0 := by
    omega
  simp only [spend, same]

theorem Window.apply_remaining {window : Window} {remaining reset : Option Int}
    (h : 0 ≤ window.remaining) (enough : ∀ r, remaining = some r → 0 ≤ r) :
    0 ≤ (window.apply remaining reset).remaining := by
  cases remaining with
  | none => exact h
  | some r => exact enough r rfl

namespace InMemoryRateLedger

def current (clock : Instant) (window : Option Window) : Option Window :=
  window.filter (now clock < ·.reset)

theorem current_eq_some {clock : Instant} {window : Option Window} {w : Window} :
    current clock window = some w ↔ window = some w ∧ now clock < w.reset := by
  simp [current, Option.filter_eq_some_iff]

theorem current_eq_none {clock : Instant} {window : Option Window} :
    current clock window = none ↔ ∀ w, window = some w → w.reset ≤ now clock := by
  simp [current, Option.filter_eq_none_iff]

theorem current_of_ahead {clock : Instant} {w : Window} (h : now clock < w.reset) :
    current clock (some w) = some w := current_eq_some.mpr ⟨rfl, h⟩

theorem current_of_over {clock : Instant} {w : Window} (h : w.reset ≤ now clock) :
    current clock (some w) = none := by
  apply current_eq_none.mpr
  intro other same
  cases same
  exact h

def held (ledger : InMemoryRateLedger) (clock : Instant) (bucket : String) : Option Window :=
  current clock (ledger.windows.get? bucket)

def standing (ledger : InMemoryRateLedger) (clock : Instant) : Option Window :=
  current clock ledger.template

def opening (ledger : InMemoryRateLedger) (clock : Instant) : Window :=
  (ledger.standing clock).getD ⟨ledger.limit, now clock + rateWindowSeconds⟩

def offered (ledger : InMemoryRateLedger) (clock : Instant) (bucket : String) : Window :=
  (ledger.held clock bucket).getD (ledger.opening clock)

structure Alike (clock : Instant) (ledger other : InMemoryRateLedger) : Prop where
  limit : other.limit = ledger.limit
  held : ∀ bucket, other.held clock bucket = ledger.held clock bucket
  standing : other.standing clock = ledger.standing clock

variable (ledger : InMemoryRateLedger) (clock : Instant) (bucket : String)

theorem live_fst : (ledger.live clock bucket).1 = ledger.held clock bucket := by
  rw [live, held]
  cases ledger.windows.get? bucket with
  | none => rfl
  | some window =>
    dsimp only
    split
    case isTrue past => exact (current_of_over past).symm
    case isFalse ahead => exact (current_of_ahead (Int.not_le.mp ahead)).symm

theorem live_alike : Alike clock ledger (ledger.live clock bucket).2 := by
  rw [live]
  split
  · exact ⟨rfl, fun _ => rfl, rfl⟩
  case h_2 window found =>
    split
    case isFalse => exact ⟨rfl, fun _ => rfl, rfl⟩
    case isTrue past =>
      refine ⟨rfl, ?_, rfl⟩
      intro other
      simp only [held, Dict.get?_erase]
      split
      case isFalse => rfl
      case isTrue same => rw [same, found, current_of_over past]; rfl

theorem fresh_alike : Alike clock ledger (ledger.fresh clock).2 := by
  rw [fresh]
  split
  · exact ⟨rfl, fun _ => rfl, rfl⟩
  case h_2 past => exact ⟨rfl, fun _ => rfl, past.symm⟩

theorem fresh_fst : (ledger.fresh clock).1 = ledger.opening clock := by
  rw [fresh, opening, standing, current]
  split
  case h_1 template ahead => rw [ahead]; rfl
  case h_2 past => rw [past]; rfl

theorem ahead_of_opening : now clock < (ledger.opening clock).reset := by
  rw [opening]
  cases standing : ledger.standing clock with
  | none =>
    exact Int.lt_add_of_pos_right (now clock) (by decide)
  | some window => exact (current_eq_some.mp standing).2

variable {ledger clock} in
theorem Alike.opening {other : InMemoryRateLedger} (h : Alike clock ledger other) :
    other.opening clock = ledger.opening clock := by
  rw [InMemoryRateLedger.opening, h.standing, h.limit, InMemoryRateLedger.opening]

variable {ledger clock} in
theorem Alike.offered {other : InMemoryRateLedger} (h : Alike clock ledger other) :
    other.offered clock bucket = ledger.offered clock bucket := by
  rw [InMemoryRateLedger.offered, h.held, h.opening, InMemoryRateLedger.offered]

variable {ledger clock} in
theorem Alike.trans {other last : InMemoryRateLedger} (h : Alike clock ledger other)
    (h' : Alike clock other last) : Alike clock ledger last where
  limit := h'.limit.trans h.limit
  held bucket := (h'.held bucket).trans (h.held bucket)
  standing := h'.standing.trans h.standing

theorem liveOrFresh_fst : (ledger.liveOrFresh clock bucket).1 = ledger.offered clock bucket := by
  have held := live_fst ledger clock bucket
  have alike := live_alike ledger clock bucket
  rw [liveOrFresh, offered]
  generalize ledger.live clock bucket = read at held alike
  obtain ⟨window, after⟩ := read
  dsimp only at held alike
  rw [← held]
  cases window with
  | some window => rfl
  | none =>
    dsimp only
    rw [fresh_fst, alike.opening]
    rfl

theorem liveOrFresh_alike : Alike clock ledger (ledger.liveOrFresh clock bucket).2 := by
  have alike := live_alike ledger clock bucket
  rw [liveOrFresh]
  generalize ledger.live clock bucket = read at alike
  obtain ⟨window, after⟩ := read
  cases window with
  | some window => exact alike
  | none => exact alike.trans (fresh_alike after clock)

theorem held_putWindow (window : Window) (other : String) :
    (ledger.putWindow bucket window).held clock other =
      if other = bucket then current clock (some window) else ledger.held clock other := by
  simp only [held, putWindow, Dict.get?_set]
  split <;> rfl

theorem held_count (other : String) :
    (ledger.count clock bucket).2.held clock other =
      if other = bucket then current clock (some ((ledger.offered clock bucket).spend 1))
      else ledger.held clock other := by
  change ((ledger.liveOrFresh clock bucket).2.putWindow bucket
    ((ledger.liveOrFresh clock bucket).1.spend 1)).held clock other = _
  rw [held_putWindow, (liveOrFresh_alike ledger clock bucket).held, liveOrFresh_fst]

theorem report_count :
    (ledger.count clock bucket).1 =
      ⟨ledger.limit, ((ledger.offered clock bucket).spend 1).remaining,
      (ledger.offered clock bucket).reset⟩ := by
  rw [← liveOrFresh_fst, ← (liveOrFresh_alike ledger clock bucket).limit]
  rfl

theorem report_peek :
    (ledger.peek clock bucket).1 = ⟨ledger.limit, (ledger.offered clock bucket).remaining,
      (ledger.offered clock bucket).reset⟩ := by
  rw [← liveOrFresh_fst, ← (liveOrFresh_alike ledger clock bucket).limit]
  rfl

theorem ahead_of_offered : now clock < (ledger.offered clock bucket).reset := by
  rw [offered]
  cases held : ledger.held clock bucket with
  | none => exact ahead_of_opening ledger clock
  | some window => exact (current_eq_some.mp held).2

theorem offered_putWindow {window : Window} (ahead : now clock < window.reset) (other : String) :
    (ledger.putWindow bucket window).offered clock other =
      if other = bucket then window else ledger.offered clock other := by
  rw [offered, held_putWindow, current_of_ahead ahead]
  split
  · rfl
  · rfl

theorem offered_count (other : String) :
    (ledger.count clock bucket).2.offered clock other =
      if other = bucket then (ledger.offered clock bucket).spend 1
        else ledger.offered clock other := by
  have ahead : now clock < ((ledger.offered clock bucket).spend 1).reset :=
    ahead_of_offered ledger clock bucket
  change ((ledger.liveOrFresh clock bucket).2.putWindow bucket
    ((ledger.liveOrFresh clock bucket).1.spend 1)).offered clock other = _
  rw [liveOrFresh_fst,
    offered_putWindow _ _ _ ahead, (liveOrFresh_alike ledger clock bucket).offered]

theorem limit_count : (ledger.count clock bucket).2.limit = ledger.limit :=
  (liveOrFresh_alike ledger clock bucket).limit

theorem peek_alike : Alike clock ledger (ledger.peek clock bucket).2 :=
  liveOrFresh_alike ledger clock bucket

theorem held_setBudget_token (token : String) (remaining reset : Option Int) :
    (ledger.setBudget clock (some token) remaining reset).held clock bucket =
      if bucket = token then current clock
        (some ((ledger.offered clock token).apply remaining reset))
      else ledger.held clock bucket := by
  change ((ledger.liveOrFresh clock token).2.putWindow token
    ((ledger.liveOrFresh clock token).1.apply remaining reset)).held clock bucket = _
  rw [held_putWindow, (liveOrFresh_alike ledger clock token).held, liveOrFresh_fst]

theorem offered_setBudget_token {token : String} (apart : bucket ≠ token)
    (remaining reset : Option Int) :
    (ledger.setBudget clock (some token) remaining reset).offered clock bucket =
      ledger.offered clock bucket := by
  have opening : (ledger.setBudget clock (some token) remaining reset).opening clock =
      ledger.opening clock := (liveOrFresh_alike ledger clock token).opening
  rw [offered, held_setBudget_token, if_neg apart, opening, offered]

variable {ledger clock bucket} in
theorem held_applyLive {remaining reset : Option Int} {other : String}
    (none : ledger.held clock bucket = none) :
    (applyLive clock remaining reset ledger other).held clock bucket = .none := by
  have held := live_fst ledger clock other
  have alike := live_alike ledger clock other
  rw [applyLive]
  generalize ledger.live clock other = read at held alike
  obtain ⟨window, after⟩ := read
  dsimp only at held alike
  cases window with
  | none => exact (alike.held bucket).trans none
  | some window =>
    dsimp only
    rw [held_putWindow]
    split
    case isTrue same =>
      rw [same, ← held] at none
      cases none
    case isFalse => exact (alike.held bucket).trans none

variable {ledger clock bucket} in
theorem held_setBudget_all {remaining reset : Option Int} (none : ledger.held clock bucket = none)
    (named : bucket ≠ anonymousBucket) :
    (ledger.setBudget clock .none remaining reset).held clock bucket = .none := by
  have turns (keys : List String) {ledger : InMemoryRateLedger}
      (none : ledger.held clock bucket = .none) :
      (keys.foldl (applyLive clock remaining reset) ledger).held clock bucket = .none := by
    induction keys generalizing ledger with
    | nil => exact none
    | cons key keys ih => exact ih (held_applyLive none)
  have unopened : (ledger.fresh clock).2.held clock bucket = .none :=
    ((fresh_alike ledger clock).held bucket).trans none
  apply turns
  simp only [held] at unopened ⊢
  rw [Dict.get?_setdefault, if_neg named]
  exact unopened

theorem limit_setBudget (token : Option String) (remaining reset : Option Int) :
    (ledger.setBudget clock token remaining reset).limit = ledger.limit := by
  have turn (ledger : InMemoryRateLedger) (key : String) :
      (applyLive clock remaining reset ledger key).limit = ledger.limit := by
    have alike := live_alike ledger clock key
    rw [applyLive]
    generalize ledger.live clock key = read at alike
    obtain ⟨window, after⟩ := read
    cases window <;> exact alike.limit
  have turns (keys : List String) (ledger : InMemoryRateLedger) :
      (keys.foldl (applyLive clock remaining reset) ledger).limit = ledger.limit := by
    induction keys generalizing ledger with
    | nil => rfl
    | cons key keys ih => exact (ih _).trans (turn ledger key)
  cases token with
  | some token => exact (liveOrFresh_alike ledger clock token).limit
  | none => exact (turns _ _).trans (fresh_alike ledger clock).limit

/-- No window holds less than nothing, and none is opened with less. -/
structure Sound (ledger : InMemoryRateLedger) : Prop where
  limit : 0 ≤ ledger.limit
  windows : ∀ bucket window, ledger.windows.get? bucket = some window → 0 ≤ window.remaining
  template : ∀ window, ledger.template = some window → 0 ≤ window.remaining

variable {ledger clock bucket}

theorem Sound.putWindow {window : Window} (h : ledger.Sound) (held : 0 ≤ window.remaining) :
    (ledger.putWindow bucket window).Sound where
  limit := h.limit
  windows other stored found := by
    simp only [InMemoryRateLedger.putWindow, Dict.get?_set] at found
    split at found
    · cases found
      exact held
    · exact h.windows other stored found
  template := h.template

theorem Sound.live (h : ledger.Sound) (clock : Instant) (bucket : String) :
    (ledger.live clock bucket).2.Sound := by
  rw [InMemoryRateLedger.live]
  split
  · exact h
  · split
    case isFalse => exact h
    case isTrue =>
      refine ⟨h.limit, ?_, h.template⟩
      intro other stored found
      simp only [Dict.get?_erase] at found
      split at found
      · cases found
      · exact h.windows other stored found

theorem Sound.fresh (h : ledger.Sound) (clock : Instant) : (ledger.fresh clock).2.Sound := by
  rw [InMemoryRateLedger.fresh]
  split
  · exact h
  · exact ⟨h.limit, h.windows, fun _ none => nomatch none⟩

theorem Sound.opening (h : ledger.Sound) (clock : Instant) :
    0 ≤ (ledger.opening clock).remaining := by
  rw [InMemoryRateLedger.opening]
  cases standing : ledger.standing clock with
  | none => exact h.limit
  | some window => exact h.template window (current_eq_some.mp standing).1

theorem Sound.offered (h : ledger.Sound) (clock : Instant) (bucket : String) :
    0 ≤ (ledger.offered clock bucket).remaining := by
  rw [InMemoryRateLedger.offered]
  cases held : ledger.held clock bucket with
  | none => exact h.opening clock
  | some window => exact h.windows bucket window (current_eq_some.mp held).1

theorem Sound.liveOrFresh (h : ledger.Sound) (clock : Instant) (bucket : String) :
    (ledger.liveOrFresh clock bucket).2.Sound := by
  have sound := h.live clock bucket
  rw [InMemoryRateLedger.liveOrFresh]
  generalize ledger.live clock bucket = read at sound
  obtain ⟨window, after⟩ := read
  cases window with
  | some window => exact sound
  | none => exact sound.fresh clock

theorem Sound.applyLive {remaining reset : Option Int} (h : ledger.Sound)
    (enough : ∀ r, remaining = some r → 0 ≤ r) (clock : Instant) (bucket : String) :
    (InMemoryRateLedger.applyLive clock remaining reset ledger bucket).Sound := by
  have held := live_fst ledger clock bucket
  have sound := h.live clock bucket
  rw [InMemoryRateLedger.applyLive]
  generalize ledger.live clock bucket = read at held sound
  obtain ⟨window, after⟩ := read
  cases window with
  | none => exact sound
  | some window =>
    have stored := (current_eq_some.mp held.symm).1
    exact sound.putWindow (Window.apply_remaining (h.windows bucket window stored) enough)

theorem Sound.setBudget {token : Option String} {remaining reset : Option Int} (h : ledger.Sound)
    (enough : ∀ r, remaining = some r → 0 ≤ r) (clock : Instant) :
    (ledger.setBudget clock token remaining reset).Sound := by
  cases token with
  | some token =>
    have first : 0 ≤ (ledger.liveOrFresh clock token).1.remaining := by
      rw [liveOrFresh_fst]
      exact h.offered clock token
    exact (h.liveOrFresh clock token).putWindow (Window.apply_remaining first enough)
  | none =>
    have turns (keys : List String) {ledger : InMemoryRateLedger} (h : ledger.Sound) :
        (keys.foldl (InMemoryRateLedger.applyLive clock remaining reset) ledger).Sound := by
      induction keys generalizing ledger with
      | nil => exact h
      | cons key keys ih => exact ih (h.applyLive enough clock key)
    have fresh := h.fresh clock
    have opened : ∀ bucket window, ((ledger.fresh clock).2.windows.setdefault anonymousBucket
        (ledger.fresh clock).1).get? bucket = some window → 0 ≤ window.remaining := by
      intro bucket window found
      rw [Dict.get?_setdefault] at found
      split at found
      · cases stored : (ledger.fresh clock).2.windows.get? anonymousBucket with
        | none =>
          rw [stored] at found
          cases found
          rw [fresh_fst]
          exact h.opening clock
        | some other =>
          rw [stored] at found
          cases found
          exact fresh.windows _ _ stored
      · exact fresh.windows bucket window found
    let ledger' : InMemoryRateLedger := { (ledger.fresh clock).2 with
      windows := (ledger.fresh clock).2.windows.setdefault anonymousBucket (ledger.fresh clock).1 }
    have sound : ledger'.Sound := ⟨fresh.limit, opened, fresh.template⟩
    have turned := turns ledger'.windows.keys sound
    refine ⟨turned.limit, turned.windows, ?_⟩
    intro window made
    cases made
    cases remaining with
    | none => exact turned.limit
    | some r => exact enough r rfl

end InMemoryRateLedger

namespace RateOp

def spends (bucket : String) : RateOp → Nat
  | .count other => if other = bucket then 1 else 0
  | _ => 0

/-- No budget is set for the bucket. -/
def Spares (bucket : String) : RateOp → Prop
  | .setBudget token _ _ => token ≠ none ∧ token ≠ some bucket
  | _ => True

/-- No budget is set below zero. -/
def Enough : RateOp → Prop
  | .setBudget _ remaining _ => ∀ r, remaining = some r → 0 ≤ r
  | _ => True

end RateOp

namespace RateMeter

open InMemoryRateLedger (Alike)

def now (meter : RateMeter) : Int := InMemoryRateLedger.now meter.clock

def held (meter : RateMeter) (bucket : String) : Option Window :=
  meter.ledger.held meter.clock bucket

/-- Nothing is counted for the bucket and no budget set for it, nor one for every bucket before its
window is over. -/
def Rests (bucket : String) : RateOp → RateMeter → Prop
  | .count other, _ => other ≠ bucket
  | .setBudget (some token) _ _, _ => token ≠ bucket
  | .setBudget none _ _, meter => meter.held bucket = none ∧ bucket ≠ anonymousBucket
  | _, _ => True

def Restores (meter : RateMeter) : Prop :=
  ∀ budget, meter.ledger.standing meter.clock = some budget →
    max (budget.remaining - 1) 0 = meter.ledger.limit - 1 ∧
      budget.reset = meter.now + rateWindowSeconds

variable {meter : RateMeter} {bucket : String}

theorem now_next (op : RateOp) (meter : RateMeter) : meter.now ≤ (op.next meter).now := by
  cases op with
  | advance micros =>
    apply Int.tdiv_le_tdiv (by decide)
    exact Int.le_add_of_nonneg_right (Int.natCast_nonneg micros)
  | _ => exact Int.le_refl _

theorem now_after (ops : List RateOp) (meter : RateMeter) :
    meter.now ≤ (Machine.after RateOp.next ops meter).now :=
  Machine.invariant_always (I := fun later => meter.now ≤ later.now)
    (fun op later before => Int.le_trans before (now_next op later)) ops (Int.le_refl _)

theorem limit_next (op : RateOp) (meter : RateMeter) :
    (op.next meter).ledger.limit = meter.ledger.limit := by
  cases op with
  | count other => exact (InMemoryRateLedger.liveOrFresh_alike _ _ _).limit
  | peek other => exact (InMemoryRateLedger.liveOrFresh_alike _ _ _).limit
  | setBudget token remaining reset =>
    exact InMemoryRateLedger.limit_setBudget _ _ token remaining reset
  | advance micros => rfl

theorem sound_next {op : RateOp} (h : meter.ledger.Sound) (enough : op.Enough) :
    (op.next meter).ledger.Sound := by
  cases op with
  | count other =>
    refine (h.liveOrFresh meter.clock other).putWindow ?_
    exact Int.le_max_right _ _
  | peek other => exact h.liveOrFresh meter.clock other
  | setBudget token remaining reset => exact h.setBudget enough meter.clock
  | advance micros => exact h

theorem held_next {op : RateOp} {window : Window} (held : meter.held bucket = some window)
    (enough : 0 ≤ window.remaining) (spares : op.Spares bucket)
    (ahead : (op.next meter).now < window.reset) :
    (op.next meter).held bucket = some (window.spend (op.spends bucket)) := by
  have kept := Window.spend_zero enough
  cases op with
  | count other =>
    change (meter.ledger.count meter.clock other).2.held meter.clock bucket = _
    rw [InMemoryRateLedger.held_count, RateOp.spends]
    split
    case isTrue same =>
      subst same
      have offered : meter.ledger.offered meter.clock bucket = window := by
        rw [InMemoryRateLedger.offered, show meter.ledger.held meter.clock bucket = _ from held]
        rfl
      rw [if_pos rfl, offered]
      exact InMemoryRateLedger.current_of_ahead ahead
    case isFalse apart =>
      rw [if_neg (Ne.symm apart), kept]
      exact held
  | peek other =>
    change (meter.ledger.peek meter.clock other).2.held meter.clock bucket = _
    simp only [(InMemoryRateLedger.peek_alike _ _ _).held, RateOp.spends, kept]
    exact held
  | setBudget token remaining reset =>
    cases token with
    | none => exact absurd rfl spares.1
    | some token =>
      change (meter.ledger.setBudget meter.clock (some token) remaining reset).held
        meter.clock bucket = _
      rw [InMemoryRateLedger.held_setBudget_token,
        if_neg fun same => spares.2 (congrArg some same.symm)]
      simp only [RateOp.spends, kept]
      exact held
  | advance micros =>
    have stored := (InMemoryRateLedger.current_eq_some.mp held).1
    simp only [RateOp.spends, kept]
    exact InMemoryRateLedger.current_eq_some.mpr ⟨stored, ahead⟩

def spent (bucket : String) (ops : List RateOp) : Nat := (ops.map (·.spends bucket)).sum

theorem held_after {ops : List RateOp} {window : Window} (held : meter.held bucket = some window)
    (enough : 0 ≤ window.remaining)
    (spares : Machine.Meets RateOp.next (fun op _ => op.Spares bucket) ops meter)
    (ahead : (Machine.after RateOp.next ops meter).now < window.reset) :
    (Machine.after RateOp.next ops meter).held bucket = some (window.spend (spent bucket ops)) := by
  induction ops generalizing meter window with
  | nil =>
    rw [spent, List.map_nil, List.sum_nil, Window.spend_zero enough]
    exact held
  | cons op ops ih =>
    have still : (op.next meter).now < window.reset := Int.lt_of_le_of_lt (now_after ops _) ahead
    have first := held_next held enough spares.1 still
    have rest := ih first (Int.le_max_right _ _) spares.2 ahead
    rw [Window.spend_spend] at rest
    exact rest

theorem held_of_rests {op : RateOp} (rests : meter.Rests bucket op)
    (stands : ∀ micros, op ≠ .advance micros) : (op.next meter).held bucket =
      meter.held bucket := by
  cases op with
  | count other =>
    change (meter.ledger.count meter.clock other).2.held meter.clock bucket = _
    rw [InMemoryRateLedger.held_count, if_neg (Ne.symm rests)]
    rfl
  | peek other => exact (InMemoryRateLedger.peek_alike _ _ _).held bucket
  | setBudget token remaining reset =>
    cases token with
    | none => exact (InMemoryRateLedger.held_setBudget_all rests.1 rests.2).trans rests.1.symm
    | some token =>
      change (meter.ledger.setBudget meter.clock (some token) remaining reset).held
        meter.clock bucket = _
      rw [InMemoryRateLedger.held_setBudget_token, if_neg (Ne.symm rests)]
      rfl
  | advance micros => exact absurd rfl (stands micros)

theorem rests_next {op : RateOp} {window : Window}
    (h : meter.held bucket = some window ∨ (meter.held bucket = none ∧ window.reset ≤ meter.now))
    (rests : meter.Rests bucket op) :
    (op.next meter).held bucket = some window ∨
      ((op.next meter).held bucket = none ∧ window.reset ≤ (op.next meter).now) := by
  cases op with
  | advance micros =>
    have later : meter.now ≤ ((RateOp.advance micros).next meter).now :=
      now_next (.advance micros) meter
    cases h with
    | inl held =>
      have stored := (InMemoryRateLedger.current_eq_some.mp held).1
      by_cases past : window.reset ≤ ((RateOp.advance micros).next meter).now
      · refine .inr ⟨?_, past⟩
        rw [RateMeter.held, InMemoryRateLedger.held]
        exact stored ▸ InMemoryRateLedger.current_of_over past
      · exact .inl (InMemoryRateLedger.current_eq_some.mpr ⟨stored, Int.not_le.mp past⟩)
    | inr past =>
      refine .inr ⟨?_, Int.le_trans past.2 later⟩
      apply InMemoryRateLedger.current_eq_none.mpr
      intro stored found
      exact Int.le_trans (InMemoryRateLedger.current_eq_none.mp past.1 stored found) later
  | _ =>
    rw [held_of_rests rests (by nofun)]
    exact h

theorem rests_after {ops : List RateOp} {window : Window} (held : meter.held bucket = some window)
    (rests : Machine.Meets RateOp.next (fun op meter => meter.Rests bucket op) ops meter)
    (past : window.reset ≤ (Machine.after RateOp.next ops meter).now) :
    (Machine.after RateOp.next ops meter).held bucket = none := by
  have along := Machine.invariant (I := fun later : RateMeter =>
    later.held bucket = some window ∨ (later.held bucket = none ∧ window.reset ≤ later.now))
    (fun _ _ => rests_next) rests (.inl held)
  cases along with
  | inl held =>
    have ahead := (InMemoryRateLedger.current_eq_some.mp held).2
    exact absurd past (Int.not_le.mpr ahead)
  | inr none => exact none.1

def counted (meter : RateMeter) (bucket : String) : RateWindow :=
  (meter.ledger.count meter.clock bucket).1

def peeked (meter : RateMeter) (bucket : String) : RateWindow :=
  (meter.ledger.peek meter.clock bucket).1

theorem offered_of_held {window : Window} (held : meter.held bucket = some window) :
    meter.ledger.offered meter.clock bucket = window := by
  rw [InMemoryRateLedger.offered, show meter.ledger.held meter.clock bucket = _ from held]
  rfl

theorem offered_of_none (none : meter.held bucket = none) :
    meter.ledger.offered meter.clock bucket = meter.ledger.opening meter.clock := by
  rw [InMemoryRateLedger.offered, show meter.ledger.held meter.clock bucket = _ from none]
  rfl

theorem restores_iff (positive : 0 < meter.ledger.limit) (none : meter.held bucket = none) :
    meter.counted bucket =
      ⟨meter.ledger.limit, meter.ledger.limit - 1, meter.now + rateWindowSeconds⟩ ↔
      meter.Restores := by
  rw [counted, InMemoryRateLedger.report_count, offered_of_none none,
    InMemoryRateLedger.opening, Restores]
  cases meter.ledger.standing meter.clock with
  | none => 
    simp [Window.spend, now]
    omega
  | some budget => simp [Window.spend]

/-- What a ledger made with a limit reports. -/
structure Accounts (limit : Int) (meter : RateMeter) : Prop where
  nonneg : ∀ bucket, 0 ≤ (meter.counted bucket).remaining ∧ 0 ≤ (meter.peeked bucket).remaining
  spends : ∀ bucket window ops, meter.held bucket = some window →
    Machine.Meets RateOp.next (fun op _ => op.Spares bucket) ops meter →
    (Machine.after RateOp.next ops meter).now < window.reset →
      (Machine.after RateOp.next ops meter).peeked bucket =
        ⟨limit, max (window.remaining - spent bucket ops) 0, window.reset⟩ ∧
      (Machine.after RateOp.next ops meter).counted bucket =
        ⟨limit, max (window.remaining - (spent bucket ops + 1)) 0, window.reset⟩
  opens : ∀ bucket, ((RateOp.count bucket).next meter).held bucket =
    some ⟨(meter.counted bucket).remaining, (meter.counted bucket).reset⟩
  peeks : ∀ bucket other, ((RateOp.peek bucket).next meter).peeked other = meter.peeked other ∧
    ((RateOp.peek bucket).next meter).counted other = meter.counted other
  /-- The first request at a window's reset or later is counted from a full window, an hour on. -/
  restores : ∀ bucket window ops, meter.held bucket = some window →
    Machine.Meets RateOp.next (fun op meter => meter.Rests bucket op) ops meter →
    window.reset ≤ (Machine.after RateOp.next ops meter).now →
      ((Machine.after RateOp.next ops meter).counted bucket =
        ⟨limit, limit - 1, (Machine.after RateOp.next ops meter).now + rateWindowSeconds⟩ ↔
          (Machine.after RateOp.next ops meter).Restores)

theorem Accounts.of_sound {limit : Int} (positive : 0 < limit) (same : meter.ledger.limit = limit)
    (sound : meter.ledger.Sound) : meter.Accounts limit := by
  subst same
  have kept (ops : List RateOp) :
      (Machine.after RateOp.next ops meter).ledger.limit = meter.ledger.limit :=
    Machine.invariant_always (I := fun later => later.ledger.limit = meter.ledger.limit)
      (fun op later same => (limit_next op later).trans same) ops rfl
  constructor
  · intro bucket
    rw [counted, peeked, InMemoryRateLedger.report_count, InMemoryRateLedger.report_peek]
    exact ⟨Int.le_max_right _ _, sound.offered meter.clock bucket⟩
  · intro bucket window ops held spares ahead
    have enough := sound.windows bucket window (InMemoryRateLedger.current_eq_some.mp held).1
    have offered := offered_of_held (held_after held enough spares ahead)
    rw [peeked, counted, InMemoryRateLedger.report_peek, InMemoryRateLedger.report_count, offered,
      Window.spend_spend, kept]
    exact ⟨rfl, rfl⟩
  · intro bucket
    change (meter.ledger.count meter.clock bucket).2.held meter.clock bucket = _
    rw [InMemoryRateLedger.held_count, if_pos rfl, counted, InMemoryRateLedger.report_count]
    apply InMemoryRateLedger.current_of_ahead
    cases held : meter.held bucket with
    | some window =>
      rw [offered_of_held held]
      exact (InMemoryRateLedger.current_eq_some.mp held).2
    | none =>
      rw [offered_of_none held]
      exact InMemoryRateLedger.ahead_of_opening meter.ledger meter.clock
  · intro bucket other
    have alike := InMemoryRateLedger.peek_alike meter.ledger meter.clock bucket
    have offered := alike.offered other
    constructor
    · rw [peeked, peeked, InMemoryRateLedger.report_peek, InMemoryRateLedger.report_peek]
      exact congrArg₂ (fun limit (window : Window) =>
        RateWindow.mk limit window.remaining window.reset)
        alike.limit offered
    · rw [counted, counted, InMemoryRateLedger.report_count, InMemoryRateLedger.report_count]
      exact congrArg₂ (fun limit (window : Window) =>
        RateWindow.mk limit (window.spend 1).remaining window.reset) alike.limit offered
  · intro bucket window ops held rests past
    rw [← kept ops] at positive ⊢
    exact restores_iff positive (rests_after held rests past)

def made (limit : Int) (clock : Instant) : RateMeter := ⟨{ limit }, clock⟩

theorem rate_accounts {limit : Int} {clock : Instant} {ops : List RateOp} (positive : 0 < limit)
    (enough : Machine.Meets RateOp.next (fun op _ => op.Enough) ops (made limit clock)) :
    (Machine.after RateOp.next ops (made limit clock)).Accounts limit := by
  have fresh : (made limit clock).ledger.Sound :=
    ⟨Int.le_of_lt positive, fun _ _ found => (nomatch found), fun _ found => (nomatch found)⟩
  have sound := Machine.invariant (I := fun meter => meter.ledger.Sound)
    (fun _ _ sound enough => sound_next sound enough) enough fresh
  have same : (Machine.after RateOp.next ops (made limit clock)).ledger.limit = limit :=
    Machine.invariant_always (I := fun meter => meter.ledger.limit = limit)
      (fun op meter same => (limit_next op meter).trans same) ops rfl
  exact .of_sound positive same sound

def budgeted : RateMeter :=
  Machine.after RateOp.next [.count "t1", .advance 1800000000, .setBudget none (some 10) none]
    (made defaultRateLimit 0)

def overdrawn : RateMeter :=
  Machine.after RateOp.next [.setBudget (some "t1") (some (-1)) none] (made defaultRateLimit 0)

/-- The window reports its reset at 3600 all along, and yet the request there is counted from what
the budget of every bucket has left. -/
theorem budget_outlives_window :
    (made defaultRateLimit 0).counted "t1" = ⟨5000, 4999, 3600⟩ ∧
      budgeted.peeked "t1" = ⟨5000, 10, 3600⟩ ∧
      ((RateOp.advance 1800000000).next budgeted).now = 3600 ∧
      ((RateOp.advance 1800000000).next budgeted).counted "t1" = ⟨5000, 9, 5400⟩ ∧
      (overdrawn.peeked "t1").remaining = -1 := by
  decide

theorem rate_accounts_hourly :
    (Machine.after RateOp.next
      [.count "t1", .setBudget (some "t1") (some 10) none, .count "t1", .peek "t2",
        .advance 3600000000]
      (made defaultRateLimit 0)).Accounts defaultRateLimit := by
  refine rate_accounts (by decide) ⟨trivial, ?_, trivial, trivial, trivial, trivial⟩
  intro remaining same
  cases same
  decide

end RateMeter

end BlizzardMock.Forge
