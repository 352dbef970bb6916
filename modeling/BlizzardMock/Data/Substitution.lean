import Mathlib.Data.List.Basic

universe u v w

namespace BlizzardMock.Substitution

variable {α : Type u} {ρ : Type v} (find : List α → Option (ρ × Nat)) (replace : ρ → List α)

def go : List α → Nat → List α
  | [], _ => []
  | _ :: rest, skip + 1 => go rest skip
  | a :: rest, 0 =>
    match find (a :: rest) with
    | none => a :: go rest 0
    | some (r, len) => replace r ++ go rest (len - 1)

def sub (text : List α) : List α := go find replace text 0

/-- Whether each character passed over, before what follows it, meets one condition, and each match
another. -/
def allGo (passes : α → List α → Bool) (fits : ρ → List α → Bool) : List α → Nat → Bool
  | [], _ => true
  | _ :: rest, skip + 1 => allGo passes fits rest skip
  | a :: rest, 0 =>
    match find (a :: rest) with
    | none => passes a rest && allGo passes fits rest 0
    | some (r, len) => fits r (rest.drop (len - 1)) && allGo passes fits rest (len - 1)

def all (passes : α → List α → Bool) (fits : ρ → List α → Bool) (text : List α) : Bool :=
  allGo find passes fits text 0

variable {find replace} {a : α} {text rest : List α}

@[simp] theorem sub_nil : sub find replace [] = [] := rfl

theorem go_skip (text : List α) (skip : Nat) :
    go find replace text skip = sub find replace (text.drop skip) := by
  induction text generalizing skip with
  | nil =>
    rw [List.drop_nil]
    cases skip <;> rfl
  | cons a rest ih =>
    cases skip with
    | zero => rfl
    | succ skip => exact ih skip

theorem sub_cons (none : find (a :: rest) = none) :
    sub find replace (a :: rest) = a :: sub find replace rest := by
  rw [sub, go, none]
  rfl

theorem sub_match {r : ρ} {len : Nat} (found : find text = some (r, len)) (some : text ≠ [])
    (positive : 0 < len) :
    sub find replace text = replace r ++ sub find replace (text.drop len) := by
  cases text with
  | nil => exact absurd rfl some
  | cons a rest =>
    obtain ⟨n, rfl⟩ := Nat.exists_eq_add_of_lt positive
    rw [sub, go, found]
    dsimp only
    rw [go_skip, Nat.zero_add, Nat.add_sub_cancel, List.drop_succ_cons]

theorem sub_append {xs : List α} (none : ∀ a ∈ xs, ∀ rest, find (a :: rest) = none) (ys : List α) :
    sub find replace (xs ++ ys) = xs ++ sub find replace ys := by
  induction xs with
  | nil => rfl
  | cons a rest ih =>
    have first := none a List.mem_cons_self (rest ++ ys)
    rw [List.cons_append, sub_cons first, ih fun b mem =>
      none b (List.mem_cons_of_mem _ mem), List.cons_append]

theorem sub_self {xs : List α} (none : ∀ a ∈ xs, ∀ rest, find (a :: rest) = none) :
    sub find replace xs = xs := by
  have whole : sub find replace (xs ++ []) = xs ++ sub find replace [] := sub_append none []
  rwa [List.append_nil, sub_nil, List.append_nil] at whole

theorem mem_sub {b : α} (h : b ∈ sub find replace text) : b ∈ text ∨ ∃ r, b ∈ replace r := by
  suffices ∀ skip, b ∈ go find replace text skip → b ∈ text ∨ ∃ r, b ∈ replace r from this 0 h
  clear h
  induction text with
  | nil => exact fun skip h => by cases skip <;> exact .inl h
  | cons a rest ih =>
    have behind : ∀ skip, b ∈ go find replace rest skip → b ∈ a :: rest ∨ ∃ r, b ∈ replace r :=
      fun skip h => (ih skip h).imp_left (List.mem_cons_of_mem a)
    rintro (_ | skip) h
    · rw [go] at h
      split at h
      · obtain rfl | mem := List.mem_cons.mp h
        · exact .inl List.mem_cons_self
        · exact behind 0 mem
      · obtain mem | mem := List.mem_append.mp h
        · exact .inr ⟨_, mem⟩
        · exact behind _ mem
    · exact behind skip h

theorem sub_congr {find' : List α → Option (ρ × Nat)} {replace' : ρ → List α}
    (same : ∀ suffix, suffix <:+ text → find suffix = find' suffix)
    (alike : ∀ suffix r len, find' suffix = some (r, len) → replace r = replace' r) :
    sub find replace text = sub find' replace' text := by
  suffices ∀ skip, go find replace text skip = go find' replace' text skip from this 0
  induction text with
  | nil => exact fun skip => by cases skip <;> rfl
  | cons a rest ih =>
    have behind := ih fun suffix h => same suffix (h.trans (List.suffix_cons a rest))
    rintro (_ | skip)
    · rw [go, go, same _ List.suffix_rfl]
      split
      · rw [behind]
      · next here => rw [behind, alike _ _ _ here]
    · exact behind skip

theorem scan {motive : List α → Prop} (positive : ∀ text r len, find text = some (r, len) → 0 < len)
    (nil : motive []) (cons : ∀ a rest, find (a :: rest) = none → motive rest → motive (a :: rest))
    (found : ∀ text r len, find text = some (r, len) → text ≠ [] → motive (text.drop len) →
      motive text) :
    ∀ text, motive text := by
  intro text
  induction n : text.length using Nat.strongRecOn generalizing text with
  | _ n ih =>
    subst n
    cases text with
    | nil => exact nil
    | cons a rest =>
      cases here : find (a :: rest) with
      | none => exact cons a rest here (ih _ (Nat.lt_succ_self _) rest rfl)
      | some m =>
        have shorter : ((a :: rest).drop m.2).length < (a :: rest).length := by
          have := positive _ _ _ here
          simp only [List.length_drop, List.length_cons]
          omega
        exact found _ m.1 m.2 here (List.cons_ne_nil a rest) (ih _ shorter _ rfl)

section All

variable {passes : α → List α → Bool} {fits : ρ → List α → Bool}

theorem allGo_skip (text : List α) (skip : Nat) :
    allGo find passes fits text skip = all find passes fits (text.drop skip) := by
  induction text generalizing skip with
  | nil =>
    rw [List.drop_nil]
    cases skip <;> rfl
  | cons a rest ih =>
    cases skip with
    | zero => rfl
    | succ skip => exact ih skip

theorem all_cons (none : find (a :: rest) = none) (h : all find passes fits (a :: rest) = true) :
    passes a rest = true ∧ all find passes fits rest = true := by
  rw [all, allGo, none] at h
  exact Bool.and_eq_true_iff.mp h

theorem all_match {r : ρ} {len : Nat} (found : find text = some (r, len)) (some : text ≠ [])
    (positive : 0 < len)
    (h : all find passes fits text = true) :
    fits r (text.drop len) = true ∧ all find passes fits (text.drop len) = true := by
  cases text with
  | nil => exact absurd rfl some
  | cons a rest =>
    obtain ⟨n, rfl⟩ := Nat.exists_eq_add_of_lt positive
    rw [all, allGo, found] at h
    dsimp only at h
    rw [allGo_skip, Nat.zero_add, Nat.add_sub_cancel] at h
    rw [Nat.zero_add, List.drop_succ_cons]
    exact Bool.and_eq_true_iff.mp h

theorem sub_of_all (positive : ∀ text r len, find text = some (r, len) → 0 < len)
    (h : all find passes (fun _ _ => false) text = true) : sub find replace text = text := by
  induction text using scan positive with
  | nil => rfl
  | cons a rest none ih => rw [sub_cons none, ih (all_cons none h).2]
  | found text r len found some ih => cases (all_match found some (positive _ _ _ found) h).1

theorem sub_sub {σ : Type w} {again : List α → Option (σ × Nat)} {outer : σ → List α}
    {value : ρ → List α}
    (positive : ∀ text r len, find text = some (r, len) → 0 < len)
    (passed : ∀ a rest, find (a :: rest) = none → again (a :: sub find replace rest) = none)
    (put : ∀ text r len, find text = some (r, len) → fits r (text.drop len) = true →
      sub again outer (replace r ++ sub find replace (text.drop len)) =
        value r ++ sub again outer (sub find replace (text.drop len)))
    (h : all find passes fits text = true) :
    sub again outer (sub find replace text) = sub find value text := by
  induction text using scan positive with
  | nil => rfl
  | cons a rest none ih =>
    rw [sub_cons none, sub_cons (passed a rest none), sub_cons none, ih (all_cons none h).2]
  | found text r len found some ih =>
    have length := positive _ _ _ found
    obtain ⟨fit, behind⟩ := all_match found some length h
    rw [sub_match found some length, put _ _ _ found fit, ih behind, sub_match found some length]

end All

end BlizzardMock.Substitution
