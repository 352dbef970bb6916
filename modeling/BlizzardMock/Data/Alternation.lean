import BlizzardMock.Data.Blocks

universe u

namespace BlizzardMock.Blocks

variable {α : Type u} (opens closes : α → Bool)

def delimiters (l : List α) : List α := l.filter fun a => opens a || closes a

/-- The delimiters alternate, up to a closing one; within a block, from a closing one. -/
def Alternate : Bool → List α → Prop
  | inside, [] => inside = false
  | false, a :: rest => opens a = true ∧ Alternate true rest
  | true, a :: rest => closes a = true ∧ Alternate false rest

instance decidableAlternate : (inside : Bool) → (l : List α) →
      Decidable (Alternate opens closes inside l)
  | inside, [] => inferInstanceAs (Decidable (inside = false))
  | false, a :: rest =>
    have := decidableAlternate true rest
    inferInstanceAs (Decidable (opens a = true ∧ Alternate opens closes true rest))
  | true, a :: rest =>
    have := decidableAlternate false rest
    inferInstanceAs (Decidable (closes a = true ∧ Alternate opens closes false rest))

variable {opens closes}

theorem delimiters_append (l l' : List α) :
    delimiters opens closes (l ++ l') = delimiters opens closes l ++ delimiters opens closes l' :=
  List.filter_append l l'

theorem delimiters_opens {a : α} (h : opens a = true) (rest : List α) :
    delimiters opens closes (a :: rest) = a :: delimiters opens closes rest :=
  List.filter_cons_of_pos (by rw [h]; rfl)

theorem delimiters_closes {a : α} (h : closes a = true) (rest : List α) :
    delimiters opens closes (a :: rest) = a :: delimiters opens closes rest :=
  List.filter_cons_of_pos (by rw [h, Bool.or_true])

theorem delimiters_other {a : α} (opened : opens a = false) (closed : closes a = false)
    (rest : List α) :
    delimiters opens closes (a :: rest) = delimiters opens closes rest :=
  List.filter_cons_of_neg (by rw [opened, closed]; nofun)

theorem delimiters_eq_nil {l : List α} :
    delimiters opens closes l = [] ↔ ∀ a ∈ l, opens a = false ∧ closes a = false := by
  rw [delimiters, List.filter_eq_nil_iff]
  exact forall₂_congr fun a _ => by rw [Bool.not_eq_true, Bool.or_eq_false_iff]

theorem Alternate.before {inside : Bool} {l rest : List α} {a : α} (other : closes a = false)
    (h : Alternate opens closes inside (l ++ a :: rest)) : Alternate opens closes inside l := by
  induction l generalizing inside with
  | nil =>
    cases inside with
    | false => rfl
    | true => cases other.symm.trans h.1
  | cons b l ih =>
    cases inside with
    | false => exact ⟨h.1, ih h.2⟩
    | true => exact ⟨h.1, ih h.2⟩

theorem Alternate.scan {l : List α} {scan : Scan α}
    (h : Alternate opens closes scan.body.isSome (delimiters opens closes l)) :
    (l.foldl (Scan.step opens closes) scan).body = none ∧
      2 * (l.foldl (Scan.step opens closes) scan).blocks.length =
        2 * scan.blocks.length + scan.body.isSome.toNat + (delimiters opens closes l).length := by
  induction l generalizing scan with
  | nil =>
    have none := Option.isSome_eq_false_iff.mp h
    rw [List.foldl_nil, Option.isNone_iff_eq_none.mp none]
    exact ⟨rfl, rfl⟩
  | cons a l ih =>
    rw [List.foldl_cons]
    cases body : scan.body with
    | none =>
      rw [body] at h
      cases opened : opens a with
      | true =>
        rw [delimiters_opens opened] at h ⊢
        rw [step_opens body opened]
        obtain ⟨shut, count⟩ := @ih { scan with body := some [] } h.2
        refine ⟨shut, count.trans ?_⟩
        simp only [Option.isSome_some, Option.isSome_none, Bool.toNat_true, Bool.toNat_false,
          List.length_cons]
        omega
      | false =>
        rw [step_skips body opened]
        cases closed : closes a with
        | true =>
          rw [delimiters_closes closed] at h
          cases opened.symm.trans h.1
        | false =>
          rw [delimiters_other opened closed] at h ⊢
          have next := @ih scan (by rw [body]; exact h)
          rw [body] at next
          exact next
    | some block =>
      rw [body] at h
      cases closed : closes a with
      | true =>
        rw [delimiters_closes closed] at h ⊢
        rw [step_closes body closed]
        obtain ⟨shut, count⟩ := @ih { blocks := scan.blocks ++ [block] } h.2
        refine ⟨shut, count.trans ?_⟩
        simp only [Option.isSome_some, Option.isSome_none, Bool.toNat_true, Bool.toNat_false,
          List.length_append,
          List.length_cons, List.length_nil]
        omega
      | false =>
        rw [step_takes body closed]
        cases opened : opens a with
        | true =>
          rw [delimiters_opens opened] at h
          cases closed.symm.trans h.1
        | false =>
          rw [delimiters_other opened closed] at h ⊢
          exact @ih { scan with body := some (block ++ [a]) } h

theorem Alternate.shut {l : List α} (h : Alternate opens closes false (delimiters opens closes l)) :
    (Blocks.scan opens closes l).body = none := by
  have run : Alternate opens closes (Scan.mk (α := α) [] none).body.isSome
    (delimiters opens closes l) := h
  exact run.scan.1

theorem Alternate.length_blocks {l : List α}
    (h : Alternate opens closes false (delimiters opens closes l)) :
    2 * (blocks opens closes l).length = (delimiters opens closes l).length := by
  have run : Alternate opens closes (Scan.mk (α := α) [] none).body.isSome
    (delimiters opens closes l) := h
  exact run.scan.2.trans (Nat.zero_add _)

theorem foldl_blocks (l : List α) (done : List (List α)) (body : Option (List α)) :
    l.foldl (Scan.step opens closes) ⟨done, body⟩ =
      ⟨done ++ (l.foldl (Scan.step opens closes) ⟨[], body⟩).blocks,
        (l.foldl (Scan.step opens closes) ⟨[], body⟩).body⟩ := by
  induction l generalizing done body with
  | nil => rw [List.foldl_nil, List.foldl_nil, List.append_nil]
  | cons a l ih =>
    rw [List.foldl_cons, List.foldl_cons]
    cases body with
    | none =>
      cases opened : opens a with
      | true => rw [step_opens rfl opened, step_opens rfl opened, ih]
      | false => rw [step_skips rfl opened, step_skips rfl opened, ih]
    | some block =>
      cases closed : closes a with
      | true =>
        rw [step_closes rfl closed, step_closes rfl closed, ih, List.nil_append, ih [block],
          List.append_assoc]
      | false => rw [step_takes rfl closed, step_takes rfl closed, ih]

theorem foldl_takes {inner : List α} (plain : ∀ a ∈ inner, closes a = false) (done : List (List α))
    (body : List α) :
    inner.foldl (Scan.step opens closes) ⟨done, some body⟩ = ⟨done, some (body ++ inner)⟩ := by
  induction inner generalizing body with
  | nil => rw [List.foldl_nil, List.append_nil]
  | cons a inner ih =>
    rw [List.foldl_cons, step_takes rfl (plain a List.mem_cons_self), ih fun b mem =>
      plain b (List.mem_cons_of_mem _ mem),
      List.append_assoc, List.singleton_append]

theorem blocks_enclosed {before inner after : List α} {opener closer : α}
    (shut : (scan opens closes before).body = none) (opened : opens opener = true)
    (plain : ∀ a ∈ inner, closes a = false) (closed : closes closer = true) :
    blocks opens closes (before ++ opener :: (inner ++ closer :: after)) =
      blocks opens closes before ++ inner :: blocks opens closes after := by
  have first : before.foldl (Scan.step opens closes) {} = ⟨blocks opens closes before, none⟩ :=
    congrArg (Scan.mk (blocks opens closes before)) shut
  rw [blocks, scan, List.foldl_append, first, List.foldl_cons, step_opens rfl opened,
    List.foldl_append,
    foldl_takes plain, List.foldl_cons, step_closes rfl closed, foldl_blocks, List.nil_append,
      List.append_assoc]
  rfl

end BlizzardMock.Blocks
