import Mathlib.Data.List.Basic
import BlizzardMock.Python.Lines

namespace BlizzardMock

theorem not_isLineBreak_of_mem {text line : Text} (mem : line ∈ splitlines text) :
    ∀ c ∈ line, isLineBreak c = false := by
  induction text generalizing line with
  | nil => cases mem
  | cons c rest ih =>
    rw [splitlines] at mem
    split at mem
    · exact ih mem
    split at mem
    · rcases List.mem_cons.mp mem with rfl | later
      · nofun
      · exact ih later
    case isFalse inside =>
      have plain : isLineBreak c = false := Bool.eq_false_iff.mpr inside
      split at mem
      · rw [List.mem_singleton.mp mem]
        simpa using plain
      case h_2 first lines split =>
        rcases List.mem_cons.mp mem with rfl | later
        · have held := ih (split ▸ List.mem_cons_self)
          simpa [plain] using held
        · exact ih (split ▸ List.mem_cons_of_mem first later)

theorem newline_notMem {text line : Text} (mem : line ∈ splitlines text) : '\n' ∉ line := by
  intro held
  have := not_isLineBreak_of_mem mem '\n' held
  revert this
  decide

theorem splitlines_line {line : Text} (plain : ∀ c ∈ line, isLineBreak c = false) (text : Text) :
    splitlines (line ++ '\n' :: text) = line :: splitlines text := by
  induction line with
  | nil =>
    rw [List.nil_append, splitlines, if_neg (by simp), if_pos (by decide)]
  | cons c line ih =>
    have first := plain c List.mem_cons_self
    have other : c ≠ '\r' := by
      rintro rfl
      cases first
    have rest := ih fun c mem => plain c (List.mem_cons_of_mem _ mem)
    rw [List.cons_append, splitlines, if_neg fun h =>
      other h.1, if_neg (by rw [first]; nofun), rest]

theorem splitlines_last {line : Text} (plain : ∀ c ∈ line, isLineBreak c = false) :
    splitlines line = if line = [] then [] else [line] := by
  induction line with
  | nil => rfl
  | cons c line ih =>
    have first := plain c List.mem_cons_self
    have other : c ≠ '\r' := by
      rintro rfl
      cases first
    have rest := ih fun c mem => plain c (List.mem_cons_of_mem _ mem)
    rw [splitlines, if_neg fun h => other h.1, if_neg (by rw [first]; nofun), rest]
    cases line with
    | nil => rfl
    | cons next line => rfl

theorem splitlines_eq_nil {text : Text} : splitlines text = [] ↔ text = [] := by
  constructor
  · intro none
    induction text with
    | nil => rfl
    | cons c rest ih =>
      rw [splitlines] at none
      split at none
      case isTrue carriage =>
        rw [ih none] at carriage
        cases carriage.2
      case isFalse =>
        split at none
        · cases none
        · split at none
          · cases none
          · cases none
  · rintro rfl
    rfl

theorem splitlines_break {c : Char} (broken : isLineBreak c = true) (other : c ≠ '\r')
    (rest : Text) :
    splitlines (c :: rest) = [] :: splitlines rest := by
  rw [splitlines, if_neg fun h => other h.1, if_pos broken]

theorem splitlines_newline (text rest : Text) :
    splitlines (text ++ '\n' :: rest) = splitlines (text ++ ['\n']) ++ splitlines rest := by
  induction text with
  | nil => rfl
  | cons c text ih =>
    have next : (text ++ '\n' :: rest).head? = (text ++ ['\n']).head? := by cases text <;> rfl
    rw [List.cons_append, List.cons_append, splitlines, splitlines, next, ih]
    split
    · rfl
    split
    · rfl
    · have some : splitlines (text ++ ['\n']) ≠ [] := fun none => by
        cases text with
        | nil => cases none
        | cons c text => cases splitlines_eq_nil.mp none
      obtain ⟨line, lines, split⟩ := List.exists_cons_of_ne_nil some
      rw [split]
      rfl

theorem splitlines_ended (text : Text) : splitlines (text ++ ['\n']) = splitlines text ∨
    splitlines (text ++ ['\n']) = splitlines text ++ [[]] := by
  induction text with
  | nil => exact .inr rfl
  | cons c text ih =>
    cases text with
    | nil =>
      cases broken : isLineBreak c with
      | false =>
        have plain : ∀ d ∈ [c], isLineBreak d = false := fun d mem =>
          List.mem_singleton.mp mem ▸ broken
        exact .inl ((splitlines_line plain []).trans (splitlines_last plain).symm)
      | true =>
        by_cases carriage : c = '\r'
        · subst carriage
          exact .inl rfl
        · rw [List.singleton_append, splitlines_break broken carriage,
            splitlines_break broken carriage]
          exact .inr rfl
    | cons d text =>
      have next : (d :: text ++ ['\n']).head? = (d :: text).head? := rfl
      have some : splitlines (d :: text) ≠ [] := fun none => by cases splitlines_eq_nil.mp none
      rw [List.cons_append, splitlines, splitlines, next]
      split
      · exact ih
      split
      · exact ih.imp (congrArg (List.cons [])) (congrArg (List.cons []))
      · obtain ⟨line, lines, split⟩ := List.exists_cons_of_ne_nil some
        rw [split] at ih ⊢
        obtain same | longer := ih
        · rw [same]
          exact .inl rfl
        · rw [longer]
          exact .inr rfl

theorem splitOn_joinLines {lines : List Text} (plain : ∀ line ∈ lines, '\n' ∉ line)
    (some : lines ≠ []) :
    (joinLines lines).splitOn '\n' = lines :=
  List.splitOn_intercalate '\n' plain some

theorem joinLines_splitOn (text : Text) : joinLines (text.splitOn '\n') = text :=
  List.intercalate_splitOn '\n'

theorem notMem_splitOn (text : Text) : ∀ line ∈ text.splitOn '\n', '\n' ∉ line := by
  induction text with
  | nil =>
    intro line mem
    rw [List.splitOn_nil, List.mem_singleton] at mem
    rw [mem]
    exact List.not_mem_nil
  | cons c text ih =>
    rw [List.splitOn_cons_eq_if_modifyHead]
    split
    · intro line mem
      obtain rfl | later := List.mem_cons.mp mem
      · exact List.not_mem_nil
      · exact ih line later
    case isFalse other =>
      obtain ⟨first, lines, split⟩ := List.exists_cons_of_ne_nil (List.splitOn_ne_nil '\n' text)
      rw [split] at ih ⊢
      intro line mem
      obtain rfl | later := List.mem_cons.mp mem
      · rw [List.mem_cons, not_or]
        exact ⟨fun same => other (beq_iff_eq.mpr same.symm), ih first List.mem_cons_self⟩
      · exact ih line (List.mem_cons_of_mem _ later)

theorem joinLines_inj {lines lines' : List Text} (plain : ∀ line ∈ lines, '\n' ∉ line)
    (plain' : ∀ line ∈ lines', '\n' ∉ line) (some : lines ≠ []) (some' : lines' ≠ [])
    (same : joinLines lines = joinLines lines') : lines = lines' := by
  rw [← splitOn_joinLines plain some, same, splitOn_joinLines plain' some']

@[simp] theorem joinLines_singleton (line : Text) : joinLines [line] = line :=
  List.intercalate_singleton

theorem joinLines_cons {lines : List Text} (some : lines ≠ []) (line : Text) :
    joinLines (line :: lines) = line ++ '\n' :: joinLines lines := by
  rw [joinLines, List.intercalate_cons_of_ne_nil some, List.append_assoc, List.singleton_append]
  rfl

theorem joinLines_append {lines lines' : List Text} (some : lines ≠ []) (some' : lines' ≠ []) :
    joinLines (lines ++ lines') = joinLines lines ++ '\n' :: joinLines lines' := by
  induction lines with
  | nil => exact absurd rfl some
  | cons line rest ih =>
    cases rest with
    | nil =>
      rw [joinLines, List.singleton_append, List.intercalate_cons_of_ne_nil some']
      simp [joinLines]
    | cons next rest =>
      have tail := ih (List.cons_ne_nil _ _)
      simp only [joinLines, List.cons_append, List.intercalate_cons_cons] at tail ⊢
      simp [tail]

theorem joinLines_flatten {blocks : List (List Text)} (some : ∀ block ∈ blocks, block ≠ []) :
    joinLines (blocks.map joinLines) = joinLines blocks.flatten := by
  induction blocks with
  | nil => rfl
  | cons block rest ih =>
    cases rest with
    | nil => simp [joinLines]
    | cons next rest =>
      have tail := ih fun block mem => some block (List.mem_cons_of_mem _ mem)
      have first := some block List.mem_cons_self
      have second := some next (List.mem_cons_of_mem _ List.mem_cons_self)
      rw [List.map_cons, List.flatten_cons, joinLines_append first (by simp [second]), ← tail]
      simp [joinLines]

theorem splitlines_lines {lines : List Text}
    (plain : ∀ line ∈ lines, ∀ c ∈ line, isLineBreak c = false)
    (some : lines ≠ []) : splitlines (joinLines lines ++ ['\n']) = lines := by
  induction lines with
  | nil => exact absurd rfl some
  | cons line rest ih =>
    have first := plain line List.mem_cons_self
    cases rest with
    | nil =>
      rw [joinLines_singleton, splitlines_line first]
      rfl
    | cons next rest =>
      have later := ih (fun line mem => plain line (List.mem_cons_of_mem _ mem))
        (List.cons_ne_nil _ _)
      rw [joinLines_cons (List.cons_ne_nil _ _), List.append_assoc, List.cons_append,
        splitlines_line first, later]

theorem mem_joinLines {lines : List Text} {c : Char} :
    c ∈ joinLines lines → c = '\n' ∨ ∃ line ∈ lines, c ∈ line := by
  induction lines with
  | nil => nofun
  | cons line rest ih =>
    intro mem
    cases rest with
    | nil =>
      rw [joinLines_singleton] at mem
      exact .inr ⟨line, List.mem_cons_self, mem⟩
    | cons next rest =>
      rw [joinLines_cons (List.cons_ne_nil _ _), List.mem_append, List.mem_cons] at mem
      obtain first | newline | later := mem
      · exact .inr ⟨line, List.mem_cons_self, first⟩
      · exact .inl newline
      · exact (ih later).imp_right fun ⟨line, mem, held⟩ => ⟨line, List.mem_cons_of_mem _ mem, held⟩

theorem mem_joinLines_of_mem {lines : List Text} {line : Text} {c : Char} (mem : line ∈ lines)
    (held : c ∈ line) :
    c ∈ joinLines lines := by
  induction lines with
  | nil => cases mem
  | cons first rest ih =>
    cases rest with
    | nil =>
      rw [joinLines_singleton, ← List.mem_singleton.mp mem]
      exact held
    | cons next rest =>
      rw [joinLines_cons (List.cons_ne_nil _ _), List.mem_append, List.mem_cons]
      obtain rfl | later := List.mem_cons.mp mem
      · exact .inl held
      · exact .inr (.inr (ih later))

theorem splitlines_joinLines {lines : List Text}
    (plain : ∀ line ∈ lines, ∀ c ∈ line, isLineBreak c = false) :
    splitlines (joinLines lines) ⊆ lines := by
  induction lines with
  | nil => nofun
  | cons line rest ih =>
    have first := plain line List.mem_cons_self
    cases rest with
    | nil =>
      rw [joinLines, List.intercalate_singleton, splitlines_last first]
      split
      · nofun
      · exact List.Subset.refl _
    | cons next rest =>
      have later := ih fun line mem => plain line (List.mem_cons_of_mem _ mem)
      rw [joinLines_cons (List.cons_ne_nil _ _), splitlines_line first]
      exact List.cons_subset_cons line later

theorem alone_iff {blank : Char → Bool} {c : Char} {tag line : Text} (ink : blank c = false) :
    alone blank (c :: tag) line = true ↔ ∃ before after, line = before ++ c :: tag ++ after ∧
      before.all blank = true ∧ after.all blank = true := by
  simp only [alone, Bool.and_eq_true, List.isPrefixOf_iff_prefix]
  constructor
  · rintro ⟨⟨after, same⟩, trailing⟩
    refine ⟨line.takeWhile blank, after, ?_, ?_, ?_⟩
    · rw [List.append_assoc, same, List.takeWhile_append_dropWhile]
    · exact List.all_takeWhile
    · rw [← same, List.drop_left] at trailing
      exact trailing
  · rintro ⟨before, after, rfl, leading, trailing⟩
    have skipped : (before ++ c :: tag ++ after).dropWhile blank = c :: tag ++ after := by
      rw [List.append_assoc, List.dropWhile_append_of_pos (by simpa using leading)]
      simp [ink]
    rw [skipped, List.drop_left]
    exact ⟨List.prefix_append _ _, trailing⟩

theorem alone_mono {blank wider : Char → Bool} {c : Char} {tag line : Text}
    (h : ∀ c, blank c = true → wider c = true) (ink : wider c = false)
    (matched : alone blank (c :: tag) line = true) : alone wider (c :: tag) line = true := by
  have narrow : blank c = false := by
    cases held : blank c with
    | false => rfl
    | true => rw [h c held] at ink; cases ink
  obtain ⟨before, after, same, leading, trailing⟩ := (alone_iff narrow).mp matched
  refine (alone_iff ink).mpr ⟨before, after, same, ?_, ?_⟩
  · exact List.all_eq_true.mpr fun c mem => h c (List.all_eq_true.mp leading c mem)
  · exact List.all_eq_true.mpr fun c mem => h c (List.all_eq_true.mp trailing c mem)

theorem not_alone_both {blank : Char → Bool} {tag other line : Text} (apart : ¬ tag <+: other)
    (apart' : ¬ other <+: tag) (matched : alone blank tag line = true) :
    alone blank other line = false := by
  apply Bool.eq_false_iff.mpr
  intro matched'
  simp only [alone, Bool.and_eq_true, List.isPrefixOf_iff_prefix] at matched matched'
  rcases List.prefix_or_prefix_of_prefix matched.1 matched'.1 with first | second
  · exact apart first
  · exact apart' second

theorem isSpace_of_isBlank {c : Char} (h : isBlank c = true) : isSpace c = true := by
  simp only [isBlank, decide_eq_true_eq] at h
  rcases h with rfl | rfl <;> decide

theorem commonPrefix_prefix (a b : Text) : commonPrefix a b <+: a ∧ commonPrefix a b <+: b := by
  induction a generalizing b with
  | nil => exact ⟨List.nil_prefix, List.nil_prefix⟩
  | cons x a ih =>
    cases b with
    | nil => exact ⟨List.nil_prefix, List.nil_prefix⟩
    | cons y b =>
      rw [commonPrefix]
      split
      case isTrue same =>
        subst same
        exact ⟨List.cons_prefix_cons.mpr ⟨rfl, (ih b).1⟩, List.cons_prefix_cons.mpr ⟨rfl, (ih b).2⟩⟩
      case isFalse => exact ⟨List.nil_prefix, List.nil_prefix⟩

theorem foldl_commonPrefix (first : Text) (rest : List Text) :
    rest.foldl commonPrefix first <+: first ∧ ∀ text ∈ rest,
      rest.foldl commonPrefix first <+: text := by
  induction rest generalizing first with
  | nil => exact ⟨List.prefix_rfl, nofun⟩
  | cons next rest ih =>
    have shared := commonPrefix_prefix first next
    have later := ih (commonPrefix first next)
    refine ⟨later.1.trans shared.1, ?_⟩
    intro text mem
    rcases List.mem_cons.mp mem with rfl | mem
    · exact later.1.trans shared.2
    · exact later.2 text mem

theorem margin_prefix {lines : List Text} {line : Text} (mem : line ∈ lines)
    (ink : line.all isBlank = false) : margin lines <+: line.takeWhile isBlank := by
  have held : line.takeWhile isBlank ∈
      (lines.filter fun line => !line.all isBlank).map (·.takeWhile isBlank) :=
    List.mem_map_of_mem (List.mem_filter.mpr ⟨mem, by rw [ink]; rfl⟩)
  rw [margin]
  generalize (lines.filter fun line => !line.all isBlank).map (·.takeWhile isBlank) =
    indents at held
  cases indents with
  | nil => cases held
  | cons first rest =>
    have shared := foldl_commonPrefix first rest
    rcases List.mem_cons.mp held with same | later
    · rw [same]
      exact shared.1
    · exact shared.2 _ later

theorem dropWhile_of_all {wide : Char → Bool} {before : Text} (h : before.all wide = true)
    (rest : Text) :
    (before ++ rest).dropWhile wide = rest.dropWhile wide :=
  List.dropWhile_append_of_pos (by simpa using h)

theorem all_isSpace {text : Text} (h : text.all isBlank = true) : text.all isSpace = true :=
  List.all_eq_true.mpr fun c mem => isSpace_of_isBlank (List.all_eq_true.mp h c mem)

theorem dropWhile_dedented {lines : List Text} {line : Text} (mem : line ∈ lines) :
    (if line.all isBlank then [] else line.drop (margin lines).length).dropWhile isSpace =
      line.dropWhile isSpace := by
  split
  case isTrue blank =>
    have skipped := dropWhile_of_all (all_isSpace blank) []
    rw [List.append_nil] at skipped
    exact skipped.symm
  case isFalse ink =>
    obtain ⟨rest, same⟩ := margin_prefix mem (Bool.eq_false_iff.mpr ink)
    have leading : (margin lines ++ rest).all isBlank = true := same ▸ List.all_takeWhile
    rw [List.all_append, Bool.and_eq_true] at leading
    have whole : line = margin lines ++ (rest ++ line.dropWhile isBlank) := by
      rw [← List.append_assoc, same, List.takeWhile_append_dropWhile]
    rw [whole, List.drop_left, dropWhile_of_all (all_isSpace leading.1)]

theorem alone_dedented {lines : List Text} {line : Text} (mem : line ∈ lines) (tag : Text) :
    alone isSpace tag (if line.all isBlank then [] else line.drop (margin lines).length) =
      alone isSpace tag line := by
  rw [alone, alone, dropWhile_dedented mem]

theorem length_dedentLines (lines : List Text) : (dedentLines lines).length = lines.length :=
  List.length_map ..

theorem mem_of_mem_dedentLines {lines : List Text} {line : Text} {c : Char}
    (mem : line ∈ dedentLines lines)
    (held : c ∈ line) : ∃ whole ∈ lines, c ∈ whole := by
  obtain ⟨whole, there, same⟩ := List.mem_map.mp mem
  rw [← same] at held
  split at held
  · cases held
  · exact ⟨whole, there, List.mem_of_mem_drop held⟩

theorem mem_dedentLines {lines : List Text} {line : Text} {c : Char} (mem : line ∈ lines)
    (held : c ∈ line)
    (ink : isBlank c = false) : ∃ dedented ∈ dedentLines lines, c ∈ dedented := by
  have inked : line.all isBlank = false := by
    rw [List.all_eq_false]
    exact ⟨c, held, by rw [ink]; nofun⟩
  refine ⟨_, List.mem_map_of_mem mem, ?_⟩
  rw [if_neg (Bool.eq_false_iff.mp inked)]
  obtain ⟨rest, same⟩ := margin_prefix mem inked
  have whole : line = margin lines ++ (rest ++ line.dropWhile isBlank) := by
    rw [← List.append_assoc, same, List.takeWhile_append_dropWhile]
  have behind : line.drop (margin lines).length = rest ++ line.dropWhile isBlank :=
    (congrArg (List.drop _) whole).trans List.drop_left
  rw [behind]
  refine List.mem_append_right _ ?_
  rw [← List.takeWhile_append_dropWhile (p := isBlank) (l := line), List.mem_append] at held
  refine held.resolve_left fun leading => ?_
  cases ink.symm.trans (List.all_eq_true.mp List.all_takeWhile c leading)

theorem dedent_joinLines {lines : List Text} (plain : ∀ line ∈ lines, '\n' ∉ line)
    (some : lines ≠ []) :
    dedent (joinLines lines) = joinLines (dedentLines lines) := by
  rw [dedent, splitOn_joinLines plain some]

end BlizzardMock
