import Mathlib.Data.List.TakeWhile

/-! Patterns that are sequences of character classes, each taken once or as often as it can be: the
regular expressions that need no second try, since nothing that repeats can be what follows. -/

universe u v

namespace BlizzardMock.Greedy

variable {α : Type u}

inductive Item (α : Type u)
  | one (takes : α → Bool)
  | many (takes : α → Bool)

def run : List (Item α) → List α → Option (List (List α) × List α)
  | [], text => some ([], text)
  | .one _ :: _, [] => none
  | .one p :: items, a :: text =>
    if p a then (run items text).map fun m => ([a] :: m.1, m.2) else none
  | .many p :: items, text =>
    (run items (text.dropWhile p)).map fun m => (text.takeWhile p :: m.1, m.2)

inductive Fits : List (Item α) → List (List α) → Prop
  | nil : Fits [] []
  | one {p : α → Bool} {a : α} {items : List (Item α)} {pieces : List (List α)} (fits : p a = true)
      (rest : Fits items pieces) : Fits (.one p :: items) ([a] :: pieces)
  | many {p : α → Bool} {piece : List α} {items : List (Item α)} {pieces : List (List α)}
      (fits : ∀ a ∈ piece, p a = true) (rest : Fits items pieces) :
        Fits (.many p :: items) (piece :: pieces)

def Begins : List (Item α) → α → Prop
  | [], _ => True
  | .one p :: _, a => p a = true
  | .many p :: items, a => p a = true ∨ Begins items a

def Apart : List (Item α) → Prop
  | [] => True
  | .one _ :: items => Apart items
  | .many p :: items => (∀ a, p a = true → ¬ Begins items a) ∧ Apart items

def stuck : List (Item α) → List α → Bool
  | [], _ => false
  | .one _ :: _, [] => false
  | .one p :: items, a :: text => !p a || stuck items text
  | .many p :: items, text => stuck items (text.dropWhile p)

def quiet (items : List (Item α)) : List α → Bool
  | [] => true
  | a :: text => stuck items (a :: text) && quiet items text

variable {items : List (Item α)} {pieces : List (List α)} {text rest : List α}

theorem Fits.begins (fits : Fits items pieces) : ∀ a ∈ (pieces.flatten ++ rest).head?,
      Begins items a := by
  induction fits with
  | nil => exact fun _ _ => trivial
  | one fits => simpa [Begins] using fits
  | @many p piece items pieces fits _ ih =>
    intro a first
    cases piece with
    | nil => exact .inr (ih a first)
    | cons b piece =>
      obtain rfl : b = a := by simpa using first
      exact .inl (fits b List.mem_cons_self)

theorem run_iff (apart : Apart items) :
    run items text = some (pieces, rest) ↔ Fits items pieces ∧ text = pieces.flatten ++ rest := by
  constructor
  · intro found
    clear apart
    induction items generalizing text pieces with
    | nil =>
      cases found
      exact ⟨.nil, rfl⟩
    | cons item items ih =>
      cases item with
      | one p =>
        cases text with
        | nil => cases found
        | cons a text =>
          simp only [run] at found
          split at found
          case isFalse => cases found
          case isTrue fits =>
            obtain ⟨m, later, same⟩ := Option.map_eq_some_iff.mp found
            cases same
            obtain ⟨pieces, text⟩ := ih later
            exact ⟨.one fits pieces, congrArg (a :: ·) text⟩
      | many p =>
        obtain ⟨m, later, same⟩ := Option.map_eq_some_iff.mp found
        cases same
        obtain ⟨pieces, behind⟩ := ih later
        refine ⟨.many (fun a mem => List.mem_takeWhile_imp mem) pieces, ?_⟩
        rw [List.flatten_cons, List.append_assoc, ← behind, List.takeWhile_append_dropWhile]
  · rintro ⟨fits, rfl⟩
    induction fits with
    | nil => rfl
    | one fits _ ih => simp [run, fits, ih apart]
    | @many p piece items pieces fits later ih =>
      have stops : ∀ a ∈ (pieces.flatten ++ rest).head?, p a = false := fun a first =>
        Bool.eq_false_iff.mpr fun more => apart.1 a more (later.begins a first)
      have taken : (pieces.flatten ++ rest).takeWhile p = [] ∧
          (pieces.flatten ++ rest).dropWhile p = pieces.flatten ++ rest := by
        cases behind : pieces.flatten ++ rest with
        | nil => exact ⟨rfl, rfl⟩
        | cons a others =>
          rw [behind] at stops
          have stop := stops a rfl
          simp [stop]
      rw [run, List.flatten_cons, List.append_assoc, List.dropWhile_append_of_pos fits,
        List.takeWhile_append_of_pos fits, taken.1, taken.2, ih apart.2, List.append_nil]
      rfl

theorem stuck_nil (items : List (Item α)) : stuck items [] = false := by
  induction items with
  | nil => rfl
  | cons item items ih =>
    cases item with
    | one p => rfl
    | many p => exact ih

theorem run_of_stuck (h : stuck items text = true) (rest : List α) :
    run items (text ++ rest) = none := by
  induction items generalizing text with
  | nil => cases h
  | cons item items ih =>
    cases item with
    | one p =>
      cases text with
      | nil => cases h
      | cons a text =>
        rw [List.cons_append, run]
        split
        case isFalse => rfl
        case isTrue fits =>
          have later : stuck items text = true := by simpa [stuck, fits] using h
          rw [ih later, Option.map_none]
    | many p =>
      have some : text.dropWhile p ≠ [] := by
        intro none
        rw [stuck, none, stuck_nil] at h
        cases h
      have behind : (text ++ rest).dropWhile p = text.dropWhile p ++ rest := by
        rw [List.dropWhile_append, if_neg (by simpa using some)]
      rw [run, behind, ih h, Option.map_none]

section Hits

variable {ρ : Type v} (find : List α → Option (ρ × Nat))

def hitsGo : List α → Nat → List ρ
  | [], _ => []
  | _ :: rest, skip + 1 => hitsGo rest skip
  | a :: rest, 0 =>
    match find (a :: rest) with
    | none => hitsGo rest 0
    | some (r, len) => r :: hitsGo rest (len - 1)

/-- `re.findall`: the leftmost matches, one after another. -/
def hits (text : List α) : List ρ := hitsGo find text 0

variable {find}

theorem hitsGo_skip (text : List α) (skip : Nat) :
    hitsGo find text skip = hits find (text.drop skip) := by
  induction text generalizing skip with
  | nil => cases skip <;> simp [hits, hitsGo]
  | cons a text ih =>
    cases skip with
    | zero => rfl
    | succ skip => exact ih skip

theorem hits_match {r : ρ} {len : Nat} (found : find text = some (r, len)) (some : text ≠ [])
    (positive : 0 < len) :
    hits find text = r :: hits find (text.drop len) := by
  cases text with
  | nil => exact absurd rfl some
  | cons a rest =>
    obtain ⟨n, rfl⟩ := Nat.exists_eq_add_of_lt positive
    rw [hits, hitsGo, found]
    dsimp only
    rw [hitsGo_skip, Nat.zero_add, Nat.add_sub_cancel, List.drop_succ_cons]

theorem hits_append (misses : ∀ text, run items text = none → find text = none)
    (silent : quiet items text = true) (rest : List α) :
    hits find (text ++ rest) = hits find rest := by
  induction text with
  | nil => rfl
  | cons a text ih =>
    obtain ⟨here, later⟩ := Bool.and_eq_true_iff.mp silent
    have none := misses _ (run_of_stuck here rest)
    rw [List.cons_append] at none
    rw [← ih later, hits, List.cons_append, hitsGo, none]
    rfl

end Hits

end BlizzardMock.Greedy
