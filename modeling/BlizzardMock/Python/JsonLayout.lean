import BlizzardMock.Python.JsonRound

namespace BlizzardMock.JsonText

def newline (indent depth : Nat) : List Char := '\n' :: List.replicate (indent * depth) ' '

mutual

def layout (indent depth : Nat) : Json → List Char
  | .arr [] => ['[', ']']
  | .arr (v :: vs) =>
    '[' :: newline indent (depth + 1) ++ layout indent (depth + 1) v ++ layoutItems indent
      (depth + 1) vs ++
      newline indent depth ++ [']']
  | .obj [] => ['\x7b', '\x7d']
  | .obj ((k, v) :: fs) =>
    '\x7b' :: newline indent (depth + 1) ++ (dumpsStr k).toList ++ ':' :: ' ' :: layout indent
      (depth + 1) v ++
      layoutFields indent (depth + 1) fs ++ newline indent depth ++ ['\x7d']
  | v => v.dumps.toList

def layoutItems (indent depth : Nat) : List Json → List Char
  | [] => []
  | v :: vs => ',' :: newline indent depth ++ layout indent depth v ++ layoutItems indent depth vs

def layoutFields (indent depth : Nat) : List (String × Json) → List Char
  | [] => []
  | (k, v) :: fs =>
    ',' :: newline indent depth ++ (dumpsStr k).toList ++ ':' :: ' ' :: layout indent depth v ++
      layoutFields indent depth fs

end

variable [Codecs] {indent depth : Nat} {rest : List Char}

omit [Codecs] in
@[simp] theorem blank_newline (cs : List Char) : blank (newline indent depth ++ cs) = blank cs := by
  rw [blank, blank, List.dropWhile_append_of_pos]
  simpa [newline, isBlank] using fun c _ _ space => .inl space

theorem first_layout (indent depth : Nat) {v : Json} (readable : Readable v) :
    ∃ c cs, layout indent depth v = c :: cs ∧ c ≠ ']' ∧ isBlank c = false := by
  cases v with
  | arr l => cases l <;> exact ⟨_, _, rfl, by decide, rfl⟩
  | obj l => cases l <;> exact ⟨_, _, rfl, by decide, rfl⟩
  | _ => simpa [layout] using first_dumps readable

theorem blank_layout (indent depth : Nat) {v : Json} (readable : Readable v) (cs : List Char) :
    blank (layout indent depth v ++ cs) = layout indent depth v ++ cs := by
  obtain ⟨c, _, first, _, ink⟩ := first_layout indent depth readable
  rw [first, List.cons_append, blank_cons ink]

omit [Codecs] in
theorem ends_items (indent depth depth' : Nat) (vs : List Json) (rest : List Char) :
    Ends (layoutItems indent depth vs ++ (newline indent depth' ++ ']' :: rest)) := by
  cases vs with
  | nil => exact .inr (.inr (.inr rfl))
  | cons v vs => exact .inl rfl

omit [Codecs] in
theorem ends_fields (indent depth depth' : Nat) (fs : List (String × Json)) (rest : List Char) :
    Ends (layoutFields indent depth fs ++ (newline indent depth' ++ '\x7d' :: rest)) := by
  cases fs with
  | nil => exact .inr (.inr (.inr rfl))
  | cons f fs => exact .inl rfl

theorem value_items {c : Char} (fuel : Nat) {cs tail : List Char} (start : blank cs = c :: tail)
    (open' : c ≠ ']') :
    value (fuel + 1) ('[' :: cs) = do
      let (read, rest) ← items fuel (c :: tail)
      return (.arr read, rest) := by
  rw [value.eq_def]
  simp only [start]
  split
  · rename_i same
    exact absurd (List.cons.inj same).1 open'
  · rfl

theorem value_fields (fuel : Nat) {cs tail : List Char} (start : blank cs = '"' :: tail) :
    value (fuel + 1) ('\x7b' :: cs) = do
      let (read, rest) ← fields fuel ('"' :: tail)
      return (.obj (distinct read), rest) := by
  rw [value.eq_def]
  simp only [start]
  rfl

/-! The three readers again, of what is written over several lines. -/

def ReadsLayouts (indent fuel : Nat) : Prop :=
  ∀ depth v rest, Readable v → Ends rest → 2 * (layout indent depth v ++ rest).length < fuel →
    value fuel (layout indent depth v ++ rest) = .ok (v, rest)

def ReadsLayoutItems (indent fuel : Nat) : Prop :=
  ∀ depth depth' v vs rest, ReadableItems (v :: vs) →
    2 * (layout indent depth v ++
      (layoutItems indent depth vs ++ (newline indent depth' ++ ']' :: rest))).length + 1 < fuel →
    items fuel (layout indent depth v ++
      (layoutItems indent depth vs ++ (newline indent depth' ++ ']' :: rest))) = .ok (v :: vs, rest)

def ReadsLayoutFields (indent fuel : Nat) : Prop :=
  ∀ depth depth' k v fs rest, ReadableFields ((k, v) :: fs) →
    2 * ((dumpsStr k).toList ++ ':' :: ' ' :: (layout indent depth v ++
      (layoutFields indent depth fs ++ (newline indent depth' ++ '\x7d' :: rest)))).length + 1 < fuel →
    fields fuel ((dumpsStr k).toList ++ ':' :: ' ' :: (layout indent depth v ++
      (layoutFields indent depth fs ++ (newline indent depth' ++ '\x7d' :: rest)))) =
        .ok ((k, v) :: fs, rest)

section Readers

variable {indent fuel : Nat}

theorem reads_layouts (many : ReadsLayoutItems indent fuel) (named : ReadsLayoutFields indent fuel) :
    ReadsLayouts indent (fuel + 1) := by
  intro depth v rest readable ends enough
  cases v with
  | arr l =>
    cases l with
    | nil => rfl
    | cons v vs =>
      obtain ⟨c, cs, first, open', ink⟩ := first_layout indent (depth + 1) readable.1
      simp only [layout, List.cons_append, List.append_assoc, List.nil_append] at enough ⊢
      have read := many (depth + 1) depth v vs rest readable (by simp at enough ⊢; omega)
      have start := blank_layout indent (depth + 1) readable.1
        (layoutItems indent (depth + 1) vs ++ (newline indent depth ++ ']' :: rest))
      rw [first, List.cons_append] at read start ⊢
      rw [value_items fuel ((blank_newline _).trans start) open', read]
      rfl
  | obj l =>
    cases l with
    | nil => rfl
    | cons f fs =>
      obtain ⟨k, v⟩ := f
      simp only [layout, List.cons_append, List.append_assoc, List.nil_append] at enough ⊢
      have read := named (depth + 1) depth k v fs rest readable.2 (by simp at enough ⊢; omega)
      have start := blank_dumpsStr k (':' :: ' ' :: (layout indent (depth + 1) v ++
        (layoutFields indent (depth + 1) fs ++ (newline indent depth ++ '\x7d' :: rest))))
      rw [toList_dumpsStr, List.cons_append] at read start ⊢
      rw [value_fields fuel ((blank_newline _).trans start), read]
      change Except.ok (Json.obj (distinct ((k, v) :: fs)), rest) = _
      rw [distinct_of_nodup readable.1]
  | _ =>
    have dumped := (reads_dumps (fuel + 1)).1 _ rest readable ends
    simpa [layout] using dumped (by simpa [layout] using enough)

variable (one : ReadsLayouts indent fuel)

include one

theorem reads_layoutItems (many : ReadsLayoutItems indent fuel) :
    ReadsLayoutItems indent (fuel + 1) := by
  intro depth depth' v vs rest readable enough
  have read := one depth v _ readable.1 (ends_items indent depth depth' vs rest) (by omega)
  rw [items_value read]
  cases vs with
  | nil =>
    rw [layoutItems, List.nil_append, blank_newline]
    rfl
  | cons w vs =>
    simp only [layoutItems, List.cons_append, List.append_assoc] at enough ⊢
    have others := many depth depth' w vs rest readable.2 (by simp at enough ⊢; omega)
    rw [blank_cons rfl]
    change (do
      let (read, rest) ← items fuel (blank (newline indent depth ++ _))
      return (v :: read, rest)) = _
    rw [blank_newline, blank_layout indent depth readable.2.1, others]
    rfl

theorem reads_layoutFields (named : ReadsLayoutFields indent fuel) :
    ReadsLayoutFields indent (fuel + 1) := by
  intro depth depth' k v fs rest readable enough
  have read := one depth v _ readable.1 (ends_fields indent depth depth' fs rest)
    (by simp at enough ⊢; omega)
  rw [← blank_layout indent depth readable.1, ← blank_space] at read
  rw [fields_value read]
  cases fs with
  | nil =>
    rw [layoutFields, List.nil_append, blank_newline]
    rfl
  | cons f fs =>
    obtain ⟨k', w⟩ := f
    simp only [layoutFields, List.cons_append, List.append_assoc] at enough ⊢
    have others := named depth depth' k' w fs rest readable.2 (by simp at enough ⊢; omega)
    rw [blank_cons rfl]
    change (do
      let (others, rest) ← fields fuel (blank (newline indent depth ++ _))
      return ((k, v) :: others, rest)) = _
    rw [blank_newline, blank_dumpsStr, others]
    rfl

end Readers

theorem reads_layout (indent fuel : Nat) :
    ReadsLayouts indent fuel ∧ ReadsLayoutItems indent fuel ∧ ReadsLayoutFields indent fuel := by
  induction fuel with
  | zero => simp [ReadsLayouts, ReadsLayoutItems, ReadsLayoutFields]
  | succ fuel ih =>
    obtain ⟨one, many, named⟩ := ih
    exact ⟨reads_layouts many named, reads_layoutItems one many, reads_layoutFields one named⟩

theorem parse_layout {v : Json} (readable : Readable v) : parse (layout indent 0 v) = .ok v := by
  have read := (reads_layout indent (2 * (layout indent 0 v).length + 1)).1 0 v
    [] readable trivial (by simp)
  have unblank := blank_layout indent 0 readable []
  rw [List.append_nil] at read unblank
  rw [parse, unblank, read]
  rfl

end BlizzardMock.JsonText
