import BlizzardMock.Data.Machine

/-! Cells of a machine: a place of its state that some operations write and the others leave alone
holds what was written to it last. -/

universe u v w

namespace BlizzardMock.Machine

variable {σ : Type u} {ω : Type v} {α : Type w} {next : ω → σ → σ}

theorem cell_iff {g : σ → α} {writes : ω → σ → Option α}
    (step : ∀ op s, g (next op s) = (writes op s).getD (g s)) {ops : List ω} {s : σ} {a : α} :
    g (after next ops s) = a ↔
      (∃ xs op ys, ops = xs ++ op :: ys ∧ writes op (after next xs s) = some a ∧
        Meets next (fun op s => writes op s = none) ys (next op (after next xs s))) ∨
      (g s = a ∧ Meets next (fun op s => writes op s = none) ops s) := by
  induction ops generalizing s with
  | nil => simp [Meets]
  | cons first rest ih =>
    rw [after_cons, ih, step]
    constructor
    · rintro (⟨xs, op, ys, rfl, written, left⟩ | ⟨held, left⟩)
      · exact .inl ⟨first :: xs, op, ys, rfl, written, left⟩
      · cases written : writes first s with
        | some b =>
          rw [written] at held
          exact .inl ⟨[], first, rest, rfl, written.trans (congrArg some held), left⟩
        | none =>
          rw [written] at held
          exact .inr ⟨held, written, left⟩
    · rintro (⟨xs, op, ys, split, written, left⟩ | ⟨held, written, left⟩)
      · cases xs with
        | nil =>
          obtain ⟨rfl, rfl⟩ := List.cons.inj split
          rw [after_nil] at written left
          exact .inr ⟨by rw [written]; rfl, left⟩
        | cons x xs =>
          obtain ⟨rfl, rfl⟩ := List.cons.inj split
          exact .inl ⟨xs, op, ys, rfl, written, left⟩
      · exact .inr ⟨by rw [written]; exact held, left⟩

end BlizzardMock.Machine
