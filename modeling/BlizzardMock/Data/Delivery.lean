import Mathlib.Order.Lattice
import Mathlib.Data.Int.Order.Basic

/-! Delivery over lost acknowledgements.  A sender pushes slices of one outbox, each from no later
than the first item above the last mark it saw, to a receiver that takes an item at or under its
own mark for a replay. -/

universe u v

namespace BlizzardMock.Delivery

structure Receiver (σ : Type u) (φ : Type v) where
  seq : φ → Int
  mark : σ → Int
  take : φ → σ → σ
  raises : ∀ x s, mark (take x s) = max (mark s) (seq x)
  replays : ∀ x s, seq x ≤ mark s → take x s = s

/-- A slice of an outbox, and whether its acknowledgement came back. -/
structure Slice where
  start : Nat
  length : Nat
  acked : Bool
  deriving DecidableEq

namespace Slice

variable {φ : Type v} (slice : Slice)

def stop : Nat := slice.start + slice.length

def cut (outbox : List φ) : List φ := (outbox.drop slice.start).take slice.length

/-- The last mark the sender saw, after a slice whose receiver acknowledges `mark`. -/
def sees (mark : Int) (seen : Option Int) : Option Int := if slice.acked then some mark else seen

theorem cut_sublist (outbox : List φ) : (slice.cut outbox).Sublist outbox :=
  (List.take_sublist _ _).trans (List.drop_sublist _ _)

theorem take_stop (outbox : List φ) :
    outbox.take slice.stop = outbox.take slice.start ++ slice.cut outbox := List.take_add

end Slice

def reach : List Slice → Nat
  | [] => 0
  | slice :: rest => max slice.stop (reach rest)

section

variable {φ : Type v}

def firstAbove (seq : φ → Int) (outbox : List φ) : Option Int → Nat
  | none => 0
  | some mark => outbox.findIdx fun x => mark < seq x

theorem seq_le_of_firstAbove {seq : φ → Int} {outbox : List φ} {seen : Option Int} {n : Nat}
    {bound : Int} (early : n ≤ firstAbove seq outbox seen) (genuine : ∀ mark ∈ seen, mark ≤ bound) :
    ∀ x ∈ outbox.take n, seq x ≤ bound := by
  intro x mem
  cases seen with
  | none =>
    cases Nat.le_zero.mp early
    cases mem
  | some mark =>
    obtain ⟨i, short, found⟩ := List.mem_take_iff_getElem.mp mem
    have under := List.not_of_lt_findIdx ((Nat.lt_min.mp short).1.trans_le early)
    rw [found] at under
    exact (not_lt.mp (of_decide_eq_false under)).trans (genuine mark rfl)

end

namespace Receiver

variable {σ : Type u} {φ : Type v} (recv : Receiver σ φ)

def takeAll (items : List φ) (s : σ) : σ := items.foldl (fun s x => recv.take x s) s

@[simp] theorem takeAll_nil (s : σ) : recv.takeAll [] s = s := rfl

@[simp] theorem takeAll_cons (x : φ) (items : List φ) (s : σ) :
    recv.takeAll (x :: items) s = recv.takeAll items (recv.take x s) := rfl

theorem takeAll_append (xs ys : List φ) (s : σ) :
    recv.takeAll (xs ++ ys) s = recv.takeAll ys (recv.takeAll xs s) :=
  List.foldl_append

theorem mark_le_takeAll (items : List φ) (s : σ) :
    recv.mark s ≤ recv.mark (recv.takeAll items s) := by
  induction items generalizing s with
  | nil => exact le_refl _
  | cons x rest ih =>
    calc
      recv.mark s ≤ recv.mark (recv.take x s) := by
        rw [recv.raises]
        exact le_max_left _ _
      _ ≤ recv.mark (recv.takeAll rest (recv.take x s)) := ih _

theorem seq_le_takeAll {items : List φ} {x : φ} (mem : x ∈ items) (s : σ) :
    recv.seq x ≤ recv.mark (recv.takeAll items s) := by
  induction mem generalizing s with
  | head rest =>
    calc
      recv.seq x ≤ recv.mark (recv.take x s) := by
        rw [recv.raises]
        exact le_max_right _ _
      _ ≤ recv.mark (recv.takeAll rest (recv.take x s)) := recv.mark_le_takeAll _ _
  | tail _ _ ih => exact ih _

theorem takeAll_replays {items : List φ} {s : σ} (old : ∀ x ∈ items, recv.seq x ≤ recv.mark s) :
    recv.takeAll items s = s := by
  induction items with
  | nil => rfl
  | cons x rest ih =>
    rw [takeAll_cons, recv.replays x s (old x List.mem_cons_self)]
    exact ih fun y mem => old y (List.mem_cons_of_mem x mem)

theorem takeAll_twice (items : List φ) (s : σ) :
    recv.takeAll items (recv.takeAll items s) = recv.takeAll items s :=
  recv.takeAll_replays fun _ mem => recv.seq_le_takeAll mem s

theorem takeAll_prefixes (outbox : List φ) (m n : Nat) (s : σ) :
    recv.takeAll (outbox.take n) (recv.takeAll (outbox.take m) s) =
      recv.takeAll (outbox.take (max m n)) s := by
  cases Nat.le_total n m with
  | inl shorter =>
    rw [max_eq_left shorter]
    apply recv.takeAll_replays
    intro x mem
    exact recv.seq_le_takeAll ((List.take_sublist_take_left shorter).subset mem) s
  | inr longer =>
    obtain ⟨k, rfl⟩ := Nat.exists_eq_add_of_le longer
    rw [max_eq_right longer, List.take_add, recv.takeAll_append, recv.takeAll_append,
      recv.takeAll_twice]

/-- Each slice starts no later than the first item above the last mark the sender saw. -/
def Ships (outbox : List φ) : List Slice → Option Int → σ → Prop
  | [], _, _ => True
  | slice :: rest, seen, s => slice.start ≤ firstAbove recv.seq outbox seen ∧
      let t := recv.takeAll (slice.cut outbox) s
      Ships outbox rest (slice.sees (recv.mark t) seen) t

def deliver (outbox : List φ) : List Slice → σ → σ
  | [], s => s
  | slice :: rest, s => deliver outbox rest (recv.takeAll (slice.cut outbox) s)

theorem deliver_eq {outbox : List φ} {slices : List Slice} {seen : Option Int} {s : σ}
    (ships : recv.Ships outbox slices seen s) (genuine : ∀ mark ∈ seen, mark ≤ recv.mark s) :
    recv.deliver outbox slices s = recv.takeAll (outbox.take (reach slices)) s := by
  induction slices generalizing seen s with
  | nil => rfl
  | cons slice rest ih =>
    have old := seq_le_of_firstAbove ships.1 genuine
    have whole : recv.takeAll (slice.cut outbox) s = recv.takeAll (outbox.take slice.stop) s := by
      rw [slice.take_stop, recv.takeAll_append, recv.takeAll_replays old]
    have seen' : ∀ mark ∈ slice.sees (recv.mark (recv.takeAll (slice.cut outbox) s)) seen,
        mark ≤ recv.mark (recv.takeAll (slice.cut outbox) s) := by
      intro mark saw
      simp only [Slice.sees] at saw
      split at saw
      case isTrue =>
        cases saw
        exact le_refl _
      case isFalse => exact (genuine mark saw).trans (recv.mark_le_takeAll _ s)
    calc
      recv.deliver outbox (slice :: rest) s =
          recv.takeAll (outbox.take (reach rest)) (recv.takeAll (slice.cut outbox) s) :=
        ih ships.2 seen'
      _ = recv.takeAll (outbox.take (reach rest)) (recv.takeAll (outbox.take slice.stop) s) := by
        rw [whole]
      _ = recv.takeAll (outbox.take (reach (slice :: rest))) s := recv.takeAll_prefixes _ _ _ s

end Receiver

end BlizzardMock.Delivery
