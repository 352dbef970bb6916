import Mathlib.Data.List.Basic

/-! Delimited blocks: what stands between an opening item and the next closing one.  Two readings of
one list, by delimiters of which one pair takes in the other, are compared by what they spell. -/

universe u v

namespace BlizzardMock.Blocks

variable {α : Type u} {β : Type v}

structure Scan (α : Type u) where
  blocks : List (List α) := []
  body : Option (List α) := none

def Scan.step (opens closes : α → Bool) (scan : Scan α) (a : α) : Scan α :=
  match scan.body with
  | none => if opens a then { scan with body := some [] } else scan
  | some body =>
    if closes a then { blocks := scan.blocks ++ [body] }
    else { scan with body := some (body ++ [a]) }

def scan (opens closes : α → Bool) (l : List α) : Scan α := l.foldl (Scan.step opens closes) {}

def blocks (opens closes : α → Bool) (l : List α) : List (List α) := (scan opens closes l).blocks

def Past (xs ys : List β) : Prop := xs.length < ys.length ∨ (xs.length = ys.length ∧ xs ≠ ys)

theorem Past.ne {xs ys : List β} (h : Past xs ys) : xs ≠ ys := by
  intro same
  cases h with
  | inl shorter => exact absurd (congrArg List.length same) (Nat.ne_of_lt shorter)
  | inr apart => exact apart.2 same

theorem Past.length_le {xs ys : List β} (h : Past xs ys) : xs.length ≤ ys.length := by
  cases h with
  | inl shorter => exact Nat.le_of_lt shorter
  | inr apart => exact Nat.le_of_eq apart.1

theorem Past.append {xs ys xs' ys' : List β} (h : Past xs ys) (longer : xs'.length ≤ ys'.length) :
    Past (xs ++ xs') (ys ++ ys') := by
  simp only [Past, List.length_append]
  cases h with
  | inl shorter => omega
  | inr apart =>
    rcases Nat.lt_or_eq_of_le longer with less | equal
    · omega
    · refine .inr ⟨by omega, ?_⟩
      intro same
      exact apart.2 (List.append_inj same apart.1).1

theorem past_append_self {xs xs' ys' : List β} (h : Past xs' ys') :
    Past (xs ++ xs') (xs ++ ys') := by
  simp only [Past, List.length_append]
  cases h with
  | inl shorter => omega
  | inr apart => exact .inr ⟨by omega, fun same => apart.2 (List.append_cancel_left same)⟩

/-- How a block is spelled: in as many items as it has, an empty one in one, so that closing items
are seen in the spelling and a lone opening item is not spelled like nothing. -/
structure Spelling (opens closes : α → Bool) (closing : β → Prop) (spell : List α → List β) :
    Prop where
  length : ∀ block, (spell block).length = max block.length 1
  closing : ∀ block, (∃ b ∈ spell block, closing b) ↔ ∃ a ∈ block, closes a = true
  opening : ∀ a, opens a = true → spell [a] ≠ spell []

section Steps

variable {opens closes opens' closes' : α → Bool} {scan : Scan α} {a : α}

theorem step_opens (none : scan.body = none) (h : opens a = true) :
    scan.step opens closes a = { scan with body := some [] } := by
  simp [Scan.step, none, h]

theorem step_skips (none : scan.body = none) (h : opens a = false) :
    scan.step opens closes a = scan := by
  simp [Scan.step, none, h]

theorem step_closes {body : List α} (some : scan.body = some body) (h : closes a = true) :
    scan.step opens closes a = { blocks := scan.blocks ++ [body] } := by
  simp [Scan.step, some, h]

theorem step_takes {body : List α} (some : scan.body = some body) (h : closes a = false) :
    scan.step opens closes a = { scan with body := .some (body ++ [a]) } := by
  simp [Scan.step, some, h]

theorem step_body_ne_none : (scan.step opens closes a).body ≠ none ↔
    (scan.body = none ∧ opens a = true) ∨ (scan.body ≠ none ∧ closes a = false) := by
  cases body : scan.body with
  | none => cases opened : opens a <;> simp [Scan.step, body, opened]
  | some block => cases closed : closes a <;> simp [Scan.step, body, closed]

theorem step_blocks_ne_nil : (scan.step opens closes a).blocks ≠ [] ↔
    scan.blocks ≠ [] ∨ (scan.body ≠ none ∧ closes a = true) := by
  cases body : scan.body with
  | none => cases opened : opens a <;> simp [Scan.step, body, opened]
  | some block => cases closed : closes a <;> simp [Scan.step, body, closed]

def Scan.all (scan : Scan α) : List (List α) := scan.blocks ++ scan.body.toList

theorem mem_step {block : List α} {item : α} (mem : block ∈ (scan.step opens closes a).all)
    (held : item ∈ block) : item = a ∨ ∃ block ∈ scan.all, item ∈ block := by
  cases body : scan.body with
  | none =>
    cases opened : opens a with
    | false =>
      rw [step_skips body opened] at mem
      exact .inr ⟨block, mem, held⟩
    | true =>
      rw [step_opens body opened] at mem
      rcases List.mem_append.mp mem with done | new
      · exact .inr ⟨block, List.mem_append_left _ done, held⟩
      · rw [List.mem_singleton.mp new] at held
        cases held
  | some inner =>
    cases closed : closes a with
    | true =>
      rw [step_closes body closed] at mem
      refine .inr ⟨block, ?_, held⟩
      simpa [Scan.all, body] using mem
    | false =>
      rw [step_takes body closed] at mem
      rcases List.mem_append.mp mem with done | last
      · exact .inr ⟨block, List.mem_append_left _ done, held⟩
      · rw [List.mem_singleton.mp last] at held
        rcases List.mem_append.mp held with before | new
        · exact .inr ⟨inner, by simp [Scan.all, body], before⟩
        · exact .inl (List.mem_singleton.mp new)

theorem mem_of_mem_blocks {l : List α} {block : List α} {item : α}
    (mem : block ∈ blocks opens closes l)
    (held : item ∈ block) : item ∈ l := by
  have along (l : List α) {scan : Scan α} {block : List α}
      (mem : block ∈ (l.foldl (Scan.step opens closes) scan).all) (held : item ∈ block) :
      item ∈ l ∨ ∃ block ∈ scan.all, item ∈ block := by
    induction l generalizing scan with
    | nil => exact .inr ⟨block, mem, held⟩
    | cons a l ih =>
      rcases ih mem with later | ⟨block, mem, held⟩
      · exact .inl (List.mem_cons_of_mem a later)
      · rcases mem_step mem held with rfl | before
        · exact .inl List.mem_cons_self
        · exact .inr before
  rcases along l (List.mem_append_left _ mem) held with there | ⟨_, none, _⟩
  · exact there
  · cases none

def Scan.Clean (closes : α → Bool) (scan : Scan α) : Prop :=
  ∀ block ∈ scan.all, ∀ a ∈ block, closes a = false

theorem Scan.Clean.step (h : scan.Clean closes) (a : α) :
    (scan.step opens closes a).Clean closes := by
  cases body : scan.body with
  | none =>
    cases opened : opens a with
    | false =>
      rw [step_skips body opened]
      exact h
    | true =>
      rw [step_opens body opened]
      simpa [Clean, all, body, or_imp, forall_and] using h
  | some block =>
    cases closed : closes a with
    | true =>
      rw [step_closes body closed]
      simpa [Clean, all, body] using h
    | false =>
      rw [step_takes body closed]
      simp only [Clean, all, body, Option.toList_some, List.mem_append, List.mem_singleton] at h ⊢
      rintro other (done | rfl) item mem
      · exact h other (.inl done) item mem
      · rcases List.mem_append.mp mem with before | last
        · exact h block (.inr rfl) item before
        · rw [List.mem_singleton.mp last]
          exact closed

theorem clean_foldl {l : List α} (h : scan.Clean closes) :
    (l.foldl (Scan.step opens closes) scan).Clean closes := by
  induction l generalizing scan with
  | nil => exact h
  | cons a l ih => exact ih (h.step a)

theorem not_closes_of_mem_blocks {l : List α} {block : List α} {item : α}
    (mem : block ∈ blocks opens closes l) (held : item ∈ block) : closes item = false := by
  have clean : (Blocks.scan opens closes l).Clean closes :=
    clean_foldl (by simp [Scan.Clean, Scan.all])
  exact clean block (List.mem_append_left _ mem) item held

theorem closes_of_blocks {l : List α} (some : blocks opens closes l ≠ []) :
    ∃ a ∈ l, closes a = true := by
  have along (l : List α) {scan : Scan α}
    (some : (l.foldl (Scan.step opens closes) scan).blocks ≠ []) :
      scan.blocks ≠ [] ∨ ∃ a ∈ l, closes a = true := by
    induction l generalizing scan with
    | nil => exact .inl some
    | cons a l ih =>
      rcases ih some with first | ⟨item, mem, closed⟩
      · rcases step_blocks_ne_nil.mp first with before | ⟨-, closed⟩
        · exact .inl before
        · exact .inr ⟨a, List.mem_cons_self, closed⟩
      · exact .inr ⟨item, List.mem_cons_of_mem a mem, closed⟩
  exact (along l some).resolve_left fun none => none rfl

theorem blocks_ne_nil_of_opens {l : List α} (closed : (Blocks.scan opens closes l).body = none)
    (some : ∃ a ∈ l, opens a = true) : blocks opens closes l ≠ [] := by
  have along (l : List α) {scan : Scan α}
      (some : (∃ a ∈ l, opens a = true) ∨ scan.body ≠ none ∨ scan.blocks ≠ []) :
      (l.foldl (Scan.step opens closes) scan).body ≠ none ∨
        (l.foldl (Scan.step opens closes) scan).blocks ≠ [] := by
    induction l generalizing scan with
    | nil =>
      rcases some with ⟨a, mem, -⟩ | held
      · cases mem
      · exact held
    | cons a l ih =>
      apply ih
      rw [step_body_ne_none, step_blocks_ne_nil]
      rcases some with ⟨b, mem, opened⟩ | held
      · rcases List.mem_cons.mp mem with rfl | mem
        · grind
        · exact .inl ⟨b, mem, opened⟩
      · grind
  exact (along l (.inl some)).resolve_left (not_not.mpr closed)

def Clash (closes : α → Bool) (narrow : Scan α) : Prop :=
  ∃ block ∈ narrow.all, ∃ a ∈ block, closes a = true

theorem Clash.step (h : Clash closes scan) (a : α) : Clash closes (scan.step opens' closes' a) := by
  obtain ⟨block, mem, item, held, closing⟩ := h
  cases body : scan.body with
  | none =>
    cases opened : opens' a with
    | false =>
      rw [step_skips body opened]
      exact ⟨block, mem, item, held, closing⟩
    | true =>
      rw [step_opens body opened]
      refine ⟨block, ?_, item, held, closing⟩
      simp only [Scan.all, body, Option.toList_none, List.append_nil] at mem
      exact List.mem_append_left _ mem
  | some inner =>
    cases closed : closes' a with
    | true =>
      rw [step_closes body closed]
      refine ⟨block, ?_, item, held, closing⟩
      simpa [Scan.all, body] using mem
    | false =>
      rw [step_takes body closed]
      simp only [Scan.all, body, Option.toList_some, List.mem_append, List.mem_singleton] at mem
      rcases mem with done | rfl
      · exact ⟨block, List.mem_append_left _ done, item, held, closing⟩
      · refine ⟨block ++ [a], ?_, item, List.mem_append_left _ held, closing⟩
        simp [Scan.all]

theorem clash_foldl {l : List α} (h : Clash closes scan) :
    Clash closes (l.foldl (Scan.step opens' closes') scan) := by
  induction l generalizing scan with
  | nil => exact h
  | cons a l ih => exact ih (h.step a)

end Steps

section Readings

variable {opens closes opens' closes' : α → Bool} {closing : β → Prop} {spell : List α → List β}

/-- The wide reading has the open narrow block at the end of its own, and its blocks are the narrow
ones or are spelled past them. -/
structure Abreast (opens' : α → Bool) (spell : List α → List β) (narrow wide : Scan α) : Prop where
  body : ∀ block, narrow.body = some block → ∃ lead, wide.body = some (lead ++ block) ∧
    (lead = [] ∨ ∃ a ∈ lead, opens' a = true)
  blocks : wide.blocks = narrow.blocks ∨
    Past (narrow.blocks.flatMap spell) (wide.blocks.flatMap spell)

theorem Spelling.past (spelling : Spelling opens' closes closing spell)
    {lead block : List α} {a : α}
    (mem : a ∈ lead) (opened : opens' a = true) : Past (spell block) (spell (lead ++ block)) := by
  rw [Past, spelling.length, spelling.length, List.length_append]
  have nonempty := List.length_pos_of_mem mem
  cases block with
  | cons b rest =>
    rw [List.length_cons]
    omega
  | nil =>
    match lead, nonempty with
    | [only], _ =>
      rw [List.mem_singleton.mp mem] at opened
      exact .inr ⟨rfl, (spelling.opening only opened).symm⟩
    | _ :: _ :: rest, _ =>
      simp only [List.length_cons, List.length_nil]
      omega

section Step

variable (spelling : Spelling opens' closes closing spell)
  (opensIn : ∀ a, opens' a = true → opens a = true)
    (closesIn : ∀ a, closes' a = true → closes a = true)
  (apart : ∀ a, opens a = true → closes a = false)

include spelling in
theorem Abreast.closed {narrow wide : Scan α} {lead block : List α}
    (h : Abreast opens' spell narrow wide)
    (led : lead = [] ∨ ∃ a ∈ lead, opens' a = true) :
    wide.blocks ++ [lead ++ block] = narrow.blocks ++ [block] ∨
      Past ((narrow.blocks ++ [block]).flatMap spell)
        ((wide.blocks ++ [lead ++ block]).flatMap spell) := by
  simp only [List.flatMap_append, List.flatMap_singleton]
  rcases led with rfl | ⟨a, mem, opened⟩
  · rcases h.blocks with same | past
    · rw [same]
      exact .inl rfl
    · exact .inr (past.append (Nat.le_refl _))
  · have longer : Past (spell block) (spell (lead ++ block)) := spelling.past mem opened
    rcases h.blocks with same | past
    · rw [same]
      exact .inr (past_append_self longer)
    · apply Or.inr (past.append _)
      rw [spelling.length, spelling.length, List.length_append]
      omega

include spelling opensIn closesIn apart in
theorem Abreast.step {narrow wide : Scan α} {a : α} (h : Abreast opens' spell narrow wide) :
    Clash closes (narrow.step opens' closes' a) ∨
      Abreast opens' spell (narrow.step opens' closes' a) (wide.step opens closes a) := by
  cases body : narrow.body with
  | none =>
    cases opened : opens' a with
    | false =>
      rw [step_skips body opened]
      refine .inr ⟨fun block some => ?_, ?_⟩
      · rw [body] at some
        cases some
      cases held : wide.body with
      | none =>
        cases wider : opens a with
        | false =>
          rw [step_skips held wider]
          exact h.blocks
        | true =>
          rw [step_opens held wider]
          exact h.blocks
      | some block =>
        cases closed : closes a with
        | false =>
          rw [step_takes held closed]
          exact h.blocks
        | true =>
          rw [step_closes held closed]
          have some_spelled : 0 < (spell block).length := by
            rw [spelling.length]
            omega
          simp only [List.flatMap_append, List.flatMap_singleton]
          rcases h.blocks with same | past
          · rw [same]
            refine .inr (.inl ?_)
            rw [List.length_append]
            omega
          · have longer : Past (narrow.blocks.flatMap spell ++ [])
                (wide.blocks.flatMap spell ++ spell block) := past.append (Nat.zero_le _)
            rw [List.append_nil] at longer
            exact .inr longer
    | true =>
      have wider := opensIn a opened
      rw [step_opens body opened]
      cases held : wide.body with
      | none =>
        rw [step_opens held wider]
        exact .inr ⟨fun block same => ⟨[], by simpa using same, .inl rfl⟩, h.blocks⟩
      | some outer =>
        rw [step_takes held (apart a wider)]
        refine .inr ⟨fun block same => ⟨outer ++ [a], ?_, .inr ⟨a, by simp, opened⟩⟩, h.blocks⟩
        cases same
        simp
  | some block =>
    obtain ⟨lead, held, led⟩ := h.body block body
    cases closed : closes' a with
    | true =>
      rw [step_closes body closed, step_closes held (closesIn a closed)]
      exact .inr ⟨nofun, h.closed spelling led⟩
    | false =>
      rw [step_takes body closed]
      cases wider : closes a with
      | true => exact .inl ⟨block ++ [a], by simp [Scan.all], a, by simp, wider⟩
      | false =>
        rw [step_takes held wider]
        refine .inr ⟨fun taken same => ⟨lead, ?_, led⟩, h.blocks⟩
        cases same
        rw [List.append_assoc]

include spelling opensIn closesIn apart in
theorem abreast_foldl {l : List α} {narrow wide : Scan α}
    (h : Clash closes narrow ∨ Abreast opens' spell narrow wide) :
    Clash closes (l.foldl (Scan.step opens' closes') narrow) ∨
      Abreast opens' spell (l.foldl (Scan.step opens' closes') narrow)
        (l.foldl (Scan.step opens closes) wide) := by
  induction l generalizing narrow wide with
  | nil => exact h
  | cons a l ih =>
    apply ih
    rcases h with clash | abreast
    · exact .inl (clash.step a)
    · exact abreast.step spelling opensIn closesIn apart

end Step

/-- The wide reading has a block, or has one open, wherever the narrow one does. -/
structure Reaches (narrow wide : Scan α) : Prop where
  body : narrow.body ≠ none → wide.body ≠ none ∨ wide.blocks ≠ []
  blocks : narrow.blocks ≠ [] → wide.blocks ≠ []

theorem Reaches.step (opensIn : ∀ a, opens' a = true → opens a = true)
    (closesIn : ∀ a, closes' a = true → closes a = true) {narrow wide : Scan α}
    (h : Reaches narrow wide) (a : α) :
    Reaches (narrow.step opens' closes' a) (wide.step opens closes a) := by
  have opened := opensIn a
  have closed := closesIn a
  obtain ⟨inside, done⟩ := h
  constructor
  · simp only [step_body_ne_none, step_blocks_ne_nil]
    grind
  · simp only [step_blocks_ne_nil]
    grind

theorem blocks_ne_nil (opensIn : ∀ a, opens' a = true → opens a = true)
    (closesIn : ∀ a, closes' a = true → closes a = true) {l : List α}
    (some : blocks opens' closes' l ≠ []) : blocks opens closes l ≠ [] := by
  have along (l : List α) {narrow wide : Scan α} (h : Reaches narrow wide) :
      Reaches (l.foldl (Scan.step opens' closes') narrow)
        (l.foldl (Scan.step opens closes) wide) := by
    induction l generalizing narrow wide with
    | nil => exact h
    | cons a l ih => exact ih (h.step opensIn closesIn a)
  exact (along l ⟨fun none => absurd rfl none, id⟩).blocks some

section Inert

variable (opens closes opens' closes') in
/-- No wide delimiter that is no narrow one takes effect: it closes nothing, and opens what nothing
closes.  The flag tells whether a block is open. -/
def inert : Bool → List α → Bool
  | _, [] => true
  | false, a :: rest =>
    if opens' a then inert true rest else if opens a then rest.all fun b =>
      !closes b else inert false rest
  | true, a :: rest => if closes' a then inert false rest else !closes a && inert true rest

def Scan.behind (ahead : List (List α)) (scan : Scan α) : Scan α :=
  { scan with blocks := ahead ++ scan.blocks }

theorem step_behind (ahead : List (List α)) (scan : Scan α) (a : α) :
    (scan.behind ahead).step opens closes a = (scan.step opens closes a).behind ahead := by
  cases body : scan.body with
  | none => cases opened : opens a <;> simp [Scan.behind, Scan.step, body, opened]
  | some block => cases closed : closes a <;> simp [Scan.behind, Scan.step, body, closed]

theorem foldl_behind (ahead : List (List α)) (l : List α) (scan : Scan α) :
    l.foldl (Scan.step opens closes) (scan.behind ahead) =
      (l.foldl (Scan.step opens closes) scan).behind ahead := by
  induction l generalizing scan with
  | nil => rfl
  | cons a l ih => rw [List.foldl_cons, List.foldl_cons, step_behind, ih]

theorem Clash.behind {scan : Scan α} (h : Clash closes scan) (ahead : List (List α)) :
    Clash closes (scan.behind ahead) := by
  obtain ⟨block, mem, held⟩ := h
  refine ⟨block, ?_, held⟩
  rw [Scan.behind, Scan.all, List.append_assoc]
  exact List.mem_append_right ahead mem

theorem blocks_foldl_of_not_closes {l : List α} (none : ∀ a ∈ l, closes a = false) (scan : Scan α) :
    (l.foldl (Scan.step opens closes) scan).blocks = scan.blocks := by
  induction l generalizing scan with
  | nil => rfl
  | cons a l ih =>
    rw [List.foldl_cons, ih fun b mem => none b (List.mem_cons_of_mem a mem)]
    have open' := none a List.mem_cons_self
    cases body : scan.body with
    | none => cases opened : opens a <;> simp [Scan.step, body, opened]
    | some block => simp [Scan.step, body, open']

variable (opensIn : ∀ a, opens' a = true → opens a = true)
    (closesIn : ∀ a, closes' a = true → closes a = true)
  (apart : ∀ a, opens a = true → closes a = false)

include opensIn closesIn in
theorem blocks_of_inert {l : List α} {scan : Scan α}
    (idle : inert opens closes opens' closes' scan.body.isSome l = true) :
    (l.foldl (Scan.step opens closes) scan).blocks =
      (l.foldl (Scan.step opens' closes') scan).blocks := by
  induction l generalizing scan with
  | nil => rfl
  | cons a l ih =>
    rw [List.foldl_cons, List.foldl_cons]
    cases body : scan.body with
    | none =>
      rw [body] at idle
      simp only [Option.isSome_none, inert] at idle
      cases opened : opens' a with
      | true =>
        rw [if_pos opened] at idle
        rw [step_opens body opened, step_opens body (opensIn a opened)]
        exact ih idle
      | false =>
        rw [if_neg (Bool.eq_false_iff.mp opened)] at idle
        rw [step_skips body opened]
        cases wider : opens a with
        | false =>
          rw [if_neg (Bool.eq_false_iff.mp wider)] at idle
          rw [step_skips body wider]
          exact ih (by rw [body]; exact idle)
        | true =>
          rw [if_pos wider, List.all_eq_true] at idle
          have shut (b : α) (mem : b ∈ l) : closes b = false := by simpa using idle b mem
          have shut' (b : α) (mem : b ∈ l) : closes' b = false :=
            Bool.eq_false_iff.mpr fun closed =>
              Bool.eq_false_iff.mp (shut b mem) (closesIn b closed)
          rw [step_opens body wider, blocks_foldl_of_not_closes shut,
            blocks_foldl_of_not_closes shut']
    | some block =>
      rw [body] at idle
      simp only [Option.isSome_some, inert] at idle
      cases closed : closes' a with
      | true =>
        rw [if_pos closed] at idle
        rw [step_closes body closed, step_closes body (closesIn a closed)]
        exact ih idle
      | false =>
        rw [if_neg (Bool.eq_false_iff.mp closed), Bool.and_eq_true, Bool.not_eq_true'] at idle
        rw [step_takes body closed, step_takes body idle.1]
        exact ih idle.2

variable (spelling : Spelling opens' closes closing spell)

include spelling opensIn closesIn apart in
theorem past_foldl {l : List α} {narrow wide : Scan α} (h : Abreast opens' spell narrow wide)
    (past : Past (narrow.blocks.flatMap spell) (wide.blocks.flatMap spell)) :
    Clash closes (l.foldl (Scan.step opens' closes') narrow) ∨
      Past ((l.foldl (Scan.step opens' closes') narrow).blocks.flatMap spell)
        ((l.foldl (Scan.step opens closes) wide).blocks.flatMap spell) := by
  have split (scan : Scan α) : scan = (Scan.mk [] scan.body).behind scan.blocks := by
    rw [Scan.behind, List.append_nil]
  have along := abreast_foldl spelling opensIn closesIn apart (l := l)
    (.inr (⟨h.body, .inl rfl⟩ : Abreast opens' spell ⟨[], narrow.body⟩ ⟨[], wide.body⟩))
  rw [split narrow, split wide, foldl_behind, foldl_behind]
  rcases along with clash | abreast
  · exact .inl (clash.behind _)
  · simp only [Scan.behind, List.flatMap_append]
    refine .inr (past.append ?_)
    rcases abreast.blocks with same | later
    · exact Nat.le_of_eq (congrArg (fun blocks => (blocks.flatMap spell).length) same.symm)
    · exact later.length_le

structure Leads (opens' : α → Bool) (narrow wide : Scan α) : Prop where
  blocks : wide.blocks = narrow.blocks
  open' : wide.body ≠ none
  body : ∀ block, narrow.body = some block → ∃ lead, wide.body = some (lead ++ block) ∧ ∃ a ∈ lead,
    opens' a = true

theorem Leads.abreast {narrow wide : Scan α} (h : Leads opens' narrow wide) :
    Abreast opens' spell narrow wide := by
  refine ⟨fun block same => ?_, .inl h.blocks⟩
  obtain ⟨lead, held, led⟩ := h.body block same
  exact ⟨lead, held, .inr led⟩

include closesIn in
theorem Leads.step {narrow wide : Scan α} {a : α} (h : Leads opens' narrow wide)
    (held : closes a = false) :
    Leads opens' (narrow.step opens' closes' a) (wide.step opens closes a) := by
  obtain ⟨outer, some⟩ := Option.ne_none_iff_exists'.mp h.open'
  have narrower : closes' a = false := Bool.eq_false_iff.mpr fun closed =>
    Bool.eq_false_iff.mp held (closesIn a closed)
  rw [step_takes some held]
  cases body : narrow.body with
  | none =>
    cases opened : opens' a with
    | false =>
      rw [step_skips body opened]
      refine ⟨h.blocks, nofun, fun block same => ?_⟩
      rw [body] at same
      cases same
    | true =>
      rw [step_opens body opened]
      refine ⟨h.blocks, nofun, fun block same => ⟨outer ++ [a], ?_, a, by simp, opened⟩⟩
      cases same
      simp
  | some block =>
    obtain ⟨lead, led, opening⟩ := h.body block body
    rw [step_takes body narrower]
    refine ⟨h.blocks, nofun, fun taken same => ⟨lead, ?_, opening⟩⟩
    cases same
    rw [some] at led
    cases led
    rw [List.append_assoc]

include spelling opensIn apart in
theorem Leads.close {narrow wide : Scan α} {a : α} (h : Leads opens' narrow wide)
    (closed : closes a = true) :
    Clash closes (narrow.step opens' closes' a) ∨
      Past ((narrow.step opens' closes' a).blocks.flatMap spell)
        ((wide.step opens closes a).blocks.flatMap spell) := by
  obtain ⟨outer, some⟩ := Option.ne_none_iff_exists'.mp h.open'
  have unopened : opens' a = false := by
    refine Bool.eq_false_iff.mpr fun opened => ?_
    rw [apart a (opensIn a opened)] at closed
    cases closed
  rw [step_closes some closed, h.blocks, List.flatMap_append, List.flatMap_singleton]
  cases body : narrow.body with
  | none =>
    rw [step_skips body unopened]
    refine .inr (.inl ?_)
    rw [List.length_append, spelling.length]
    omega
  | some block =>
    obtain ⟨lead, led, item, mem, opening⟩ := h.body block body
    rw [some] at led
    cases led
    cases narrower : closes' a with
    | true =>
      rw [step_closes body narrower, List.flatMap_append, List.flatMap_singleton]
      exact .inr (past_append_self (spelling.past mem opening))
    | false =>
      rw [step_takes body narrower]
      exact .inl ⟨block ++ [a], by simp [Scan.all], a, by simp, closed⟩

include spelling opensIn closesIn apart in
theorem Leads.past {l : List α} {narrow wide : Scan α} (h : Leads opens' narrow wide)
    (shut : ∃ a ∈ l, closes a = true) :
    Clash closes (l.foldl (Scan.step opens' closes') narrow) ∨
      Past ((l.foldl (Scan.step opens' closes') narrow).blocks.flatMap spell)
        ((l.foldl (Scan.step opens closes) wide).blocks.flatMap spell) := by
  induction l generalizing narrow wide with
  | nil =>
    obtain ⟨a, mem, -⟩ := shut
    cases mem
  | cons a l ih =>
    rw [List.foldl_cons, List.foldl_cons]
    cases held : closes a with
    | false =>
      apply ih (h.step closesIn held)
      obtain ⟨b, mem, closed⟩ := shut
      rcases List.mem_cons.mp mem with rfl | mem
      · rw [held] at closed
        cases closed
      · exact ⟨b, mem, closed⟩
    | true =>
      rcases h.close opensIn apart spelling held with clash | past
      · exact .inl (clash_foldl clash)
      · rcases h.abreast.step spelling opensIn closesIn apart with clash | abreast
        · exact .inl (clash_foldl clash)
        · exact past_foldl opensIn closesIn apart spelling abreast past

include spelling opensIn closesIn apart in
theorem past_of_not_inert {l : List α} {scan : Scan α}
    (busy : inert opens closes opens' closes' scan.body.isSome l = false) :
    Clash closes (l.foldl (Scan.step opens' closes') scan) ∨
      Past ((l.foldl (Scan.step opens' closes') scan).blocks.flatMap spell)
        ((l.foldl (Scan.step opens closes) scan).blocks.flatMap spell) := by
  induction l generalizing scan with
  | nil => cases busy
  | cons a l ih =>
    rw [List.foldl_cons, List.foldl_cons]
    cases body : scan.body with
    | none =>
      rw [body] at busy
      simp only [Option.isSome_none, inert] at busy
      cases opened : opens' a with
      | true =>
        rw [if_pos opened] at busy
        rw [step_opens body opened, step_opens body (opensIn a opened)]
        exact ih busy
      | false =>
        rw [if_neg (Bool.eq_false_iff.mp opened)] at busy
        rw [step_skips body opened]
        cases wider : opens a with
        | false =>
          rw [if_neg (Bool.eq_false_iff.mp wider)] at busy
          rw [step_skips body wider]
          exact ih (by rw [body]; exact busy)
        | true =>
          rw [if_pos wider, List.all_eq_false] at busy
          obtain ⟨b, mem, closed⟩ := busy
          rw [step_opens body wider]
          have leads : Leads opens' scan { scan with body := some [] } :=
            ⟨rfl, nofun, fun block same => by rw [body] at same; cases same⟩
          exact leads.past opensIn closesIn apart spelling ⟨b, mem, by simpa using closed⟩
    | some block =>
      rw [body] at busy
      simp only [Option.isSome_some, inert] at busy
      cases closed : closes' a with
      | true =>
        rw [if_pos closed] at busy
        rw [step_closes body closed, step_closes body (closesIn a closed)]
        exact ih busy
      | false =>
        rw [if_neg (Bool.eq_false_iff.mp closed), Bool.and_eq_false_iff, Bool.not_eq_false'] at busy
        rw [step_takes body closed]
        cases wider : closes a with
        | true => exact .inl (clash_foldl ⟨block ++ [a], by simp [Scan.all], a, by simp, wider⟩)
        | false =>
          rw [wider] at busy
          rw [step_takes body wider]
          exact ih (busy.resolve_left Bool.false_ne_true)

include spelling opensIn closesIn apart in
theorem inert_of_spelled {l : List α} (closed : (scan opens' closes' l).body = none)
    (same : (blocks opens closes l).flatMap spell = (blocks opens' closes' l).flatMap spell) :
    inert opens closes opens' closes' false l = true := by
  by_contra busy
  have along : Clash closes (l.foldl (Scan.step opens' closes') {}) ∨ _ :=
    past_of_not_inert opensIn closesIn apart spelling (Bool.eq_false_iff.mpr busy)
  rcases along with ⟨block, mem, item, held, closing⟩ | past
  · change block ∈ (Blocks.scan opens' closes' l).all at mem
    rw [Scan.all, closed, Option.toList_none, List.append_nil] at mem
    obtain ⟨b, spelled, shut⟩ := (spelling.closing block).mpr ⟨item, held, closing⟩
    have there := List.mem_flatMap.mpr ⟨block, mem, spelled⟩
    rw [show (Blocks.scan opens' closes' l).blocks.flatMap spell = _ from same.symm] at there
    obtain ⟨other, mem, spelled⟩ := List.mem_flatMap.mp there
    obtain ⟨item, held, closing⟩ := (spelling.closing other).mp ⟨b, spelled, shut⟩
    rw [not_closes_of_mem_blocks mem held] at closing
    cases closing
  · exact past.ne same.symm

end Inert

end Readings

end BlizzardMock.Blocks
