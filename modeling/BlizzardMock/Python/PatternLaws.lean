import Mathlib.Data.List.Infix
import BlizzardMock.Python.Fnmatch

namespace BlizzardMock

theorem anyTail_iff {p : List Char → Bool} {cs : List Char} :
    anyTail p cs = true ↔ ∃ tail, tail <:+ cs ∧ p tail = true := by
  induction cs with
  | nil => simp [anyTail]
  | cons c cs ih =>
    rw [anyTail, Bool.or_eq_true, ih]
    constructor
    · rintro (whole | ⟨tail, below, met⟩)
      · exact ⟨c :: cs, List.suffix_refl _, whole⟩
      · exact ⟨tail, below.trans (List.suffix_cons c cs), met⟩
    · rintro ⟨tail, below, met⟩
      obtain rfl | below := List.suffix_cons_iff.mp below
      · exact .inl met
      · exact .inr ⟨tail, below, met⟩

theorem matchItems_append {items more : List PatternItem} {cs ds : List Char}
    (h : matchItems items cs = true) (h' : matchItems more ds = true) :
    matchItems (items ++ more) (cs ++ ds) = true := by
  induction items generalizing cs with
  | nil =>
    cases cs with
    | nil => exact h'
    | cons c cs => cases h
  | cons item items ih =>
    cases item with
    | star =>
      rw [matchItems, anyTail_iff] at h
      obtain ⟨tail, ⟨lead, rfl⟩, met⟩ := h
      rw [List.cons_append, matchItems, anyTail_iff]
      exact ⟨tail ++ ds, ⟨lead, (List.append_assoc lead tail ds).symm⟩, ih met⟩
    | any =>
      cases cs with
      | nil => cases h
      | cons c cs => exact ih h
    | one d =>
      cases cs with
      | nil => cases h
      | cons c cs =>
        simp only [matchItems, Bool.and_eq_true, List.cons_append] at h ⊢
        exact ⟨h.1, ih h.2⟩
    | bracket negated ranges =>
      cases cs with
      | nil => cases h
      | cons c cs =>
        simp only [matchItems, Bool.and_eq_true, List.cons_append] at h ⊢
        exact ⟨h.1, ih h.2⟩

theorem mem_of_matchItems {items : List PatternItem} {cs : List Char} {d : Char}
    (h : matchItems items cs = true) (named : .one d ∈ items) : d ∈ cs := by
  induction items generalizing cs with
  | nil => cases named
  | cons item items ih =>
    cases item with
    | star =>
      rw [matchItems, anyTail_iff] at h
      obtain ⟨tail, below, met⟩ := h
      exact below.mem (ih met (by simpa using named))
    | any =>
      cases cs with
      | nil => cases h
      | cons c cs => exact List.mem_cons_of_mem c (ih h (by simpa using named))
    | one e =>
      cases cs with
      | nil => cases h
      | cons c cs =>
        simp only [matchItems, Bool.and_eq_true, decide_eq_true_eq] at h
        simp only [List.mem_cons, PatternItem.one.injEq] at named
        obtain rfl | named := named
        · rw [h.1]
          exact List.mem_cons_self
        · exact List.mem_cons_of_mem c (ih h.2 named)
    | bracket negated ranges =>
      cases cs with
      | nil => cases h
      | cons c cs =>
        simp only [matchItems, Bool.and_eq_true] at h
        exact List.mem_cons_of_mem c (ih h.2 (by simpa using named))

end BlizzardMock
