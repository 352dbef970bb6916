import BlizzardMock.Data.Method

universe u v w

namespace BlizzardMock.Machine

variable {σ : Type u} {ω : Type v} (next : ω → σ → σ)

def after : List ω → σ → σ
  | [], s => s
  | op :: ops, s => after ops (next op s)

/-- Each operation of a run meets a condition in the state it starts from. -/
def Meets (C : ω → σ → Prop) : List ω → σ → Prop
  | [], _ => True
  | op :: ops, s => C op s ∧ Meets C ops (next op s)

/-- Some operation of a run meets a condition in the state it starts from. -/
def Occurs (C : ω → σ → Prop) : List ω → σ → Prop
  | [], _ => False
  | op :: ops, s => C op s ∨ Occurs C ops (next op s)

def times (test : ω → σ → Bool) : List ω → σ → Nat
  | [], _ => 0
  | op :: ops, s => (test op s).toNat + times test ops (next op s)

variable {next}

@[simp] theorem after_nil (s : σ) : after next [] s = s := rfl

@[simp] theorem after_cons (op : ω) (ops : List ω) (s : σ) :
    after next (op :: ops) s = after next ops (next op s) := rfl

theorem after_append (xs ys : List ω) (s : σ) :
    after next (xs ++ ys) s = after next ys (after next xs s) := by
  induction xs generalizing s with
  | nil => rfl
  | cons op ops ih => exact ih (next op s)

theorem meets_append {C : ω → σ → Prop} (xs ys : List ω) (s : σ) :
    Meets next C (xs ++ ys) s ↔ Meets next C xs s ∧ Meets next C ys (after next xs s) := by
  induction xs generalizing s with
  | nil => simp [Meets]
  | cons op ops ih =>
    simp only [List.cons_append, Meets, after_cons, ih]
    rw [and_assoc]

theorem Meets.mono {C D : ω → σ → Prop} (h : ∀ op s, C op s → D op s) {ops : List ω} {s : σ}
    (hC : Meets next C ops s) : Meets next D ops s := by
  induction ops generalizing s with
  | nil => trivial
  | cons op ops ih => exact ⟨h op s hC.1, ih hC.2⟩

theorem Meets.of_mem {C D : ω → σ → Prop} {ops : List ω} {s : σ}
    (h : ∀ op ∈ ops, ∀ s, C op s → D op s) (hC : Meets next C ops s) : Meets next D ops s := by
  induction ops generalizing s with
  | nil => trivial
  | cons op rest ih =>
    exact ⟨h op List.mem_cons_self s hC.1,
      ih (fun other mem => h other (List.mem_cons_of_mem _ mem)) hC.2⟩

theorem meets_of_mem {C : ω → σ → Prop} {ops : List ω} (h : ∀ op ∈ ops, ∀ s, C op s) (s : σ) :
    Meets next C ops s := by
  induction ops generalizing s with
  | nil => trivial
  | cons op rest ih =>
    exact ⟨h op List.mem_cons_self s, ih (fun other mem => h other (List.mem_cons_of_mem _ mem)) _⟩

theorem invariant {C : ω → σ → Prop} {I : σ → Prop}
    (step : ∀ op s, I s → C op s → I (next op s)) {ops : List ω} {s : σ}
    (hC : Meets next C ops s) (hI : I s) : I (after next ops s) := by
  induction ops generalizing s with
  | nil => exact hI
  | cons op ops ih => exact ih hC.2 (step op s hI hC.1)

theorem invariant_always {I : σ → Prop} (step : ∀ op s, I s → I (next op s)) (ops : List ω)
    {s : σ} (hI : I s) : I (after next ops s) := by
  induction ops generalizing s with
  | nil => exact hI
  | cons op ops ih => exact ih (step op s hI)

theorem occurs_or {C D : ω → σ → Prop} {I : σ → Prop}
    (step : ∀ op s, I s → C op s → D op s ∨ I (next op s)) {ops : List ω} {s : σ}
    (hC : Meets next C ops s) (hI : I s) : Occurs next D ops s ∨ I (after next ops s) := by
  induction ops generalizing s with
  | nil => exact .inr hI
  | cons op ops ih =>
    cases step op s hI hC.1 with
    | inl met => exact .inl (.inl met)
    | inr kept => exact (ih hC.2 kept).imp_left .inr

theorem times_le {C : ω → σ → Prop} {I : σ → Prop} {uses adds : ω → σ → Bool}
    (measure : σ → Nat) {k : Nat}
    (keeps : ∀ op s, I s → I (next op s))
    (step : ∀ op s, I s → C op s →
      (uses op s).toNat + measure (next op s) ≤ measure s + k * (adds op s).toNat)
    {ops : List ω} {s : σ} (hC : Meets next C ops s) (hI : I s) :
    times next uses ops s + measure (after next ops s) ≤ measure s + k * times next adds ops s := by
  induction ops generalizing s with
  | nil => simp [times]
  | cons op ops ih =>
    have first := step op s hI hC.1
    have rest := ih hC.2 (keeps op s hI)
    simp only [times, after_cons, Nat.mul_add]
    omega

theorem related {C : ω → σ → Prop} {I : σ → Prop} {R : σ → σ → Prop} (refl : ∀ s, R s s)
    (trans : ∀ {s t u}, R s t → R t u → R s u) (keeps : ∀ op s, I s → I (next op s))
    (step : ∀ op s, I s → C op s → R s (next op s)) {ops : List ω} {s : σ}
    (hI : I s) (hC : Meets next C ops s) : R s (after next ops s) := by
  induction ops generalizing s with
  | nil => exact refl s
  | cons op ops ih => exact trans (step op s hI hC.1) (ih (keeps op s hI) hC.2)

end BlizzardMock.Machine
