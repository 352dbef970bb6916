import BlizzardMock.Data.Alternation
import BlizzardMock.Harness.SplitLaws
import Mathlib.Data.List.TakeWhile

namespace BlizzardMock.Harness.Engine

open Blocks

theorem not_closeLine {line : Text} (h : openLine line = true) : closeLine line = false :=
  not_alone_both (by decide) (by decide) h

def tags (text : Text) : List Text := delimiters openLine closeLine (splitlines text)

theorem run_cons {line : Text} {lines : List Text} {number : Nat} {split : Split} :
    (∃ last, ((line :: lines).zipIdx number).foldlM Split.step split = .ok last ∧
      last.openLine = none) ↔
      ∃ next, split.step (line, number) = .ok next ∧
        ∃ last, (lines.zipIdx (number + 1)).foldlM Split.step next = .ok last ∧
          last.openLine = none := by
  rw [List.zipIdx_cons, List.foldlM_cons]
  constructor
  · rintro ⟨last, ran, shut⟩
    obtain ⟨next, stepped, later⟩ := Method.except_bind_ok ran
    exact ⟨next, stepped, last, later, shut⟩
  · rintro ⟨next, stepped, last, later, shut⟩
    rw [stepped]
    exact ⟨last, later, shut⟩

section Step

variable {split : Split} {line : Text} {number opener : Nat}

theorem step_opens (opened : openLine line = true) (shut : split.openLine = none) :
    split.step (line, number) = .ok { split with openLine := some number, body := [] } := by
  simp only [Split.step, opened, shut, if_true]

theorem step_nested (opened : openLine line = true) (within : split.openLine = some opener)
    (next : Split) :
    split.step (line, number) ≠ .ok next := by
  simp only [Split.step, opened, within, if_true]
  exact fun stepped => by cases stepped

theorem step_closes (closed : closeLine line = true) (within : split.openLine = some opener) :
    split.step (line, number) =
      .ok { split with
        blocks := split.blocks ++ [dedent (joinLines split.body)], openLine := none } := by
  have other : openLine line = false := not_alone_both (by decide) (by decide) closed
  simp only [Split.step, other, closed, within, if_true, Bool.false_eq_true, if_false]

theorem step_stray (closed : closeLine line = true) (shut : split.openLine = none) (next : Split) :
    split.step (line, number) ≠ .ok next := by
  have other : openLine line = false := not_alone_both (by decide) (by decide) closed
  simp only [Split.step, other, closed, shut, if_true, Bool.false_eq_true, if_false]
  exact fun stepped => by cases stepped

theorem step_other (opened : openLine line = false) (closed : closeLine line = false) :
    ∃ next, split.step (line, number) = .ok next ∧ next.openLine = split.openLine := by
  cases held : split.openLine with
  | none =>
    simp only [Split.step, opened, closed, held, Bool.false_eq_true, if_false]
    exact ⟨_, rfl, rfl⟩
  | some opener =>
    simp only [Split.step, opened, closed, held, Bool.false_eq_true, if_false]
    exact ⟨_, rfl, rfl⟩

end Step

theorem run_iff (lines : List Text) (number : Nat) (split : Split) :
    (∃ last, (lines.zipIdx number).foldlM Split.step split = .ok last ∧ last.openLine = none) ↔
      Alternate openLine closeLine split.openLine.isSome (delimiters openLine closeLine lines) := by
  induction lines generalizing number split with
  | nil =>
    constructor
    · rintro ⟨last, ran, shut⟩
      cases ran
      rw [shut]
      rfl
    · intro shut
      exact ⟨split, rfl, Option.isNone_iff_eq_none.mp (Option.isSome_eq_false_iff.mp shut)⟩
  | cons line lines ih =>
    have alone {next : Split} (stepped : split.step (line, number) = .ok next) :
        (∃ next, split.step (line, number) = .ok next ∧
          ∃ last, (lines.zipIdx (number + 1)).foldlM Split.step next = .ok last ∧
            last.openLine = none) ↔
        Alternate openLine closeLine next.openLine.isSome
          (delimiters openLine closeLine lines) := by
      rw [stepped, ← ih (number + 1) next]
      constructor
      · rintro ⟨_, ⟨⟩, ran⟩
        exact ran
      · exact fun ran => ⟨next, rfl, ran⟩
    rw [run_cons]
    cases opened : openLine line with
    | true =>
      rw [delimiters_opens opened]
      cases held : split.openLine with
      | some opener =>
        constructor
        · rintro ⟨next, stepped, -⟩
          exact absurd stepped (step_nested opened held next)
        · intro h
          cases (not_closeLine opened).symm.trans h.1
      | none => exact (alone (step_opens opened held)).trans (and_iff_right opened).symm
    | false =>
      cases closed : closeLine line with
      | true =>
        rw [delimiters_closes closed]
        cases held : split.openLine with
        | none =>
          constructor
          · rintro ⟨next, stepped, -⟩
            exact absurd stepped (step_stray closed held next)
          · intro h
            cases opened.symm.trans h.1
        | some opener => exact (alone (step_closes closed held)).trans (and_iff_right closed).symm
      | false =>
        obtain ⟨next, stepped, same⟩ := step_other opened closed
        rw [delimiters_other opened closed, ← same]
        exact alone stepped

/-- What a prompt's blocks enclose is blank. -/
def Blank (prompt : Text) : Prop := ∀ block ∈ plainBlocks prompt, ∀ line ∈ block,
      line.all isSpace = true

theorem refused_of_not_alternate {prompt : Text}
    (h : ¬ Alternate openLine closeLine false (tags prompt)) :
    ∃ e, splitBehaviorScript prompt = .error e := by
  cases taken : splitBehaviorScript prompt with
  | error e => exact ⟨e, rfl⟩
  | ok tagged =>
    obtain ⟨last, ran, answered⟩ := Method.except_bind_ok taken
    cases held : last.openLine with
    | none => exact absurd ((run_iff _ 1 {}).mp ⟨last, ran, held⟩) h
    | some opener =>
      rw [held] at answered
      cases answered

theorem all_joinLines {lines : List Text} :
    (joinLines lines).all isSpace = true ↔ ∀ line ∈ lines, line.all isSpace = true := by
  simp only [List.all_eq_true]
  constructor
  · exact fun all line mem c held => all c (mem_joinLines_of_mem mem held)
  · intro each c mem
    obtain rfl | ⟨line, mem, held⟩ := mem_joinLines mem
    · decide
    · exact each line mem c held

theorem all_iff_dropWhile {text : Text} : text.all isSpace = true ↔
      text.dropWhile isSpace = [] := by
  rw [List.all_eq_true, List.dropWhile_eq_nil_iff]

theorem stripBy_eq_nil {text : Text} : stripBy isSpace text = [] ↔ text.all isSpace = true := by
  have parts : text.all isSpace =
    ((text.takeWhile isSpace).all isSpace && (text.dropWhile isSpace).all isSpace) := by
    rw [← List.all_append, List.takeWhile_append_dropWhile]
  rw [List.all_takeWhile, Bool.true_and] at parts
  rw [stripBy, List.reverse_eq_nil_iff, ← all_iff_dropWhile, List.all_reverse, parts]

theorem all_spell {block : List Text} :
    (∀ line ∈ spell block, line.all isSpace = true) ↔ ∀ line ∈ block, line.all isSpace = true := by
  rw [spell]
  split
  case isTrue empty =>
    rw [empty]
    exact ⟨fun _ _ mem =>
      absurd mem List.not_mem_nil, fun _ line mem => by rw [List.mem_singleton.mp mem]; rfl⟩
  case isFalse =>
    rw [dedentLines, List.forall_mem_map]
    refine forall₂_congr fun line mem => ?_
    rw [all_iff_dropWhile, dropWhile_dedented mem, all_iff_dropWhile]

theorem blank_iff {prompt : Text} :
    stripBy isSpace (joinLines ((plainBlocks prompt).map dedented)) = [] ↔ Blank prompt := by
  rw [stripBy_eq_nil, plainBlocks, joinLines_dedented newline_notMem_blocks, all_joinLines,
    List.forall_mem_flatMap]
  exact forall₂_congr fun block mem => all_spell

theorem answer_of_run {prompt : Text} {last : Split}
    (ran : ((splitlines prompt).zipIdx 1).foldlM Split.step {} = .ok last)
    (shut : last.openLine = none) :
    splitBehaviorScript prompt = if last.blocks = [] then .ok none
      else if stripBy isSpace (joinLines last.blocks) = [] then
        .error ⟨"empty behavior-script block: the <behavior-script> block(s) enclose nothing to execute"⟩
      else .ok (some ⟨joinLines last.blocks,
        stripBy isSpace (squeeze 0 (joinLines last.prose))⟩) := by
  rw [splitBehaviorScript, ran]
  dsimp only [bind, Except.bind]
  rw [shut]
  rfl

theorem answer_of_alternate {prompt : Text} (h : Alternate openLine closeLine false (tags prompt)) :
    (plainBlocks prompt = [] ∧ splitBehaviorScript prompt = .ok none) ∨
      plainBlocks prompt ≠ [] ∧ (Blank prompt ∧ (∃ e, splitBehaviorScript prompt = .error e) ∨
        ¬ Blank prompt ∧ ∃ prose, splitBehaviorScript prompt =
          .ok (some ⟨joinLines ((plainBlocks prompt).map dedented), prose⟩)) := by
  obtain ⟨last, ran, shut⟩ := (run_iff _ 1 {}).mpr h
  have read : last.Reads (scan openLine closeLine (splitlines prompt)) :=
    Split.Reads.run ⟨rfl, rfl⟩ ran
  have held : last.blocks = (plainBlocks prompt).map dedented := read.blocks
  rw [answer_of_run ran shut, held]
  by_cases empty : plainBlocks prompt = []
  · rw [if_pos (List.map_eq_nil_iff.mpr empty)]
    exact .inl ⟨empty, rfl⟩
  · rw [if_neg fun none => empty (List.map_eq_nil_iff.mp none)]
    refine .inr ⟨empty, ?_⟩
    by_cases blank : Blank prompt
    · exact .inl ⟨blank, _, if_pos (blank_iff.mpr blank)⟩
    · exact .inr ⟨blank, _, if_neg fun stripped => blank (blank_iff.mp stripped)⟩

theorem blocks_eq_nil {prompt : Text} (h : Alternate openLine closeLine false (tags prompt)) :
    plainBlocks prompt = [] ↔ tags prompt = [] := by
  have count : 2 * (plainBlocks prompt).length = (tags prompt).length := h.length_blocks
  rw [← List.length_eq_zero_iff, ← List.length_eq_zero_iff]
  omega

theorem split_error_iff (prompt : Text) : (∃ e, splitBehaviorScript prompt = .error e) ↔
    ¬ Alternate openLine closeLine false (tags prompt) ∨ tags prompt ≠ [] ∧ Blank prompt := by
  by_cases h : Alternate openLine closeLine false (tags prompt)
  · rw [ne_eq, ← blocks_eq_nil h]
    obtain ⟨empty, same⟩ | ⟨some, ⟨blank, refused⟩ | ⟨ink, prose, same⟩⟩ := answer_of_alternate h
    · rw [same]
      exact ⟨nofun, fun refused => (refused.resolve_left (not_not.mpr h)).1.elim empty⟩
    · exact ⟨fun _ => .inr ⟨some, blank⟩, fun _ => refused⟩
    · rw [same]
      exact ⟨nofun, fun refused => (ink (refused.resolve_left (not_not.mpr h)).2).elim⟩
  · exact ⟨fun _ => .inl h, fun _ => refused_of_not_alternate h⟩

theorem split_none_iff (prompt : Text) : splitBehaviorScript prompt = .ok none ↔
      tags prompt = [] := by
  by_cases h : Alternate openLine closeLine false (tags prompt)
  · rw [← blocks_eq_nil h]
    obtain ⟨empty, same⟩ | ⟨some, ⟨blank, _, refused⟩ | ⟨ink, prose, same⟩⟩ := answer_of_alternate h
    · exact ⟨fun _ => empty, fun _ => same⟩
    · rw [refused]
      exact ⟨nofun, fun empty => absurd empty some⟩
    · rw [same]
      exact ⟨nofun, fun empty => absurd empty some⟩
  · obtain ⟨e, refused⟩ := refused_of_not_alternate h
    rw [refused]
    refine ⟨nofun, fun none => ?_⟩
    rw [none] at h
    exact absurd rfl h

theorem split_some_iff (prompt script : Text) :
    (∃ prose, splitBehaviorScript prompt = .ok (some ⟨script, prose⟩)) ↔
      Alternate openLine closeLine false (tags prompt) ∧ plainBlocks prompt ≠ [] ∧ ¬ Blank prompt ∧
        script = joinLines ((plainBlocks prompt).map dedented) := by
  by_cases h : Alternate openLine closeLine false (tags prompt)
  · rw [and_iff_right h]
    obtain ⟨empty, same⟩ | ⟨some, ⟨blank, _, refused⟩ | ⟨ink, prose, same⟩⟩ := answer_of_alternate h
    · rw [same]
      constructor
      · rintro ⟨_, ⟨⟩⟩
      · exact fun held => absurd empty held.1
    · rw [refused]
      constructor
      · rintro ⟨_, ⟨⟩⟩
      · exact fun held => absurd blank held.2.1
    · rw [same]
      constructor
      · rintro ⟨_, ⟨⟩⟩
        exact ⟨some, ink, rfl⟩
      · rintro ⟨-, -, rfl⟩
        exact ⟨prose, rfl⟩
  · obtain ⟨e, refused⟩ := refused_of_not_alternate h
    rw [refused]
    constructor
    · rintro ⟨_, ⟨⟩⟩
    · exact fun held => absurd held.1 h

def enclose (before : List Text) (opener program closer : Text) (after : List Text) : Text :=
  joinLines (before ++ opener :: program :: closer :: after)

theorem tags_newline (text rest : Text) : tags (text ++ '\n' :: rest) = tags text ++ tags rest := by
  rw [tags, tags, splitlines_newline, delimiters_append]
  obtain same | longer := splitlines_ended text
  · rw [same]
    rfl
  · rw [longer, delimiters_append]
    have blank : delimiters openLine closeLine [[]] = [] := rfl
    rw [blank, List.append_nil]
    rfl

theorem tags_joinLines (lines : List Text) : tags (joinLines lines) = lines.flatMap tags := by
  induction lines with
  | nil => rfl
  | cons line rest ih =>
    cases rest with
    | nil => rw [joinLines_singleton, List.flatMap_singleton]
    | cons next rest =>
      rw [joinLines_cons (List.cons_ne_nil _ _), tags_newline, ih]
      rfl

theorem not_isLineBreak_of_isBlank {c : Char} (h : isBlank c = true) : isLineBreak c = false := by
  rw [isBlank, decide_eq_true_eq] at h
  obtain rfl | rfl := h
  · decide
  · decide

theorem plain_of_alone {c : Char} {tag line : Text} (ink : isBlank c = false)
    (plain : (c :: tag).any isLineBreak = false) (h : alone isBlank (c :: tag) line = true) :
    ∀ d ∈ line, isLineBreak d = false := by
  obtain ⟨before, after, rfl, leading, trailing⟩ := (alone_iff ink).mp h
  intro d mem
  rw [List.mem_append, List.mem_append] at mem
  obtain (first | tagged) | last := mem
  · exact not_isLineBreak_of_isBlank (List.all_eq_true.mp leading d first)
  · exact Bool.eq_false_iff.mpr fun broken => List.any_eq_false.mp plain d tagged broken
  · exact not_isLineBreak_of_isBlank (List.all_eq_true.mp trailing d last)

theorem plain_opener {opener : Text} (h : openLine opener = true) :
    ∀ c ∈ opener, isLineBreak c = false :=
  plain_of_alone (by decide) rfl h

theorem plain_closer {closer : Text} (h : closeLine closer = true) :
    ∀ c ∈ closer, isLineBreak c = false :=
  plain_of_alone (by decide) rfl h

section Program

variable {before after : List Text} {opener program closer : Text}

theorem splitlines_enclose (opened : openLine opener = true) (closed : closeLine closer = true) :
    splitlines (enclose before opener program closer after) =
      before.flatMap (fun line => splitlines (line ++ ['\n'])) ++
        opener :: (splitlines (program ++ ['\n']) ++ closer :: splitlines (joinLines after)) := by
  have some : closer ≠ [] := by
    rintro rfl
    cases closed
  induction before with
  | nil =>
    have last : splitlines (joinLines (closer :: after)) = closer :: splitlines
      (joinLines after) := by
      cases after with
      | nil =>
        rw [joinLines_singleton, splitlines_last (plain_closer closed), if_neg some]
        rfl
      | cons next after =>
        rw [joinLines_cons (List.cons_ne_nil _ _), splitlines_line (plain_closer closed)]
    rw [enclose, List.nil_append, joinLines_cons (List.cons_ne_nil _ _),
      splitlines_line (plain_opener opened),
      joinLines_cons (List.cons_ne_nil _ _), splitlines_newline, last]
    rfl
  | cons line before ih =>
    have rest : before ++ opener :: program :: closer :: after ≠ [] := by simp
    rw [enclose, List.cons_append, joinLines_cons rest, splitlines_newline, List.flatMap_cons,
      List.append_assoc]
    exact congrArg _ ih

theorem tags_opener (opened : openLine opener = true) : tags opener = [opener] := by
  have some : opener ≠ [] := by
    rintro rfl
    cases opened
  rw [tags, splitlines_last (plain_opener opened), if_neg some]
  exact delimiters_opens opened []

theorem tags_closer (closed : closeLine closer = true) : tags closer = [closer] := by
  have some : closer ≠ [] := by
    rintro rfl
    cases closed
  rw [tags, splitlines_last (plain_closer closed), if_neg some]
  exact delimiters_closes closed []

theorem tags_enclose (opened : openLine opener = true) (closed : closeLine closer = true) :
    tags (enclose before opener program closer after) =
      before.flatMap tags ++ opener :: (tags program ++ closer :: after.flatMap tags) := by
  rw [enclose, tags_joinLines, List.flatMap_append, List.flatMap_cons, List.flatMap_cons,
    List.flatMap_cons,
    tags_opener opened, tags_closer closed, List.singleton_append, List.singleton_append]

variable (none : ∀ line ∈ program.splitOn '\n', openLine line = false ∧ closeLine line = false)
  (plain : ∀ c ∈ program, isLineBreak c = true → c = '\n')

include plain

theorem splitlines_program : splitlines (program ++ ['\n']) = program.splitOn '\n' := by
  have lines : ∀ line ∈ program.splitOn '\n', ∀ c ∈ line, isLineBreak c = false := by
    intro line mem c held
    cases broken : isLineBreak c with
    | false => rfl
    | true =>
      have whole := mem_joinLines_of_mem mem held
      rw [joinLines_splitOn] at whole
      exact absurd (plain c whole broken ▸ held) (notMem_splitOn program line mem)
  have whole := splitlines_lines lines (List.splitOn_ne_nil _ _)
  rw [joinLines_splitOn] at whole
  exact whole

include none in
theorem tags_program : tags program = [] := by
  have ended := tags_newline program []
  have blank : tags [] = [] := rfl
  rw [blank, List.append_nil, tags, splitlines_program plain] at ended
  exact ended.symm.trans (delimiters_eq_nil.mpr none)

include none in
theorem plainBlocks_enclose (opened : openLine opener = true) (closed : closeLine closer = true)
    (h : Alternate openLine closeLine false (tags (enclose before opener program closer after))) :
    2 * (plainBlocks (enclose before opener program closer after)).length =
      (before.flatMap tags).length + 2 + (after.flatMap tags).length ∧
    ∃ first last, plainBlocks (enclose before opener program closer after) = first ++
      program.splitOn '\n' :: last := by
  have count := h.length_blocks
  rw [tags, splitlines_enclose opened closed, delimiters_append, delimiters_opens opened] at h
  have shut := (h.before (not_closeLine opened)).shut
  constructor
  · refine count.trans ((congrArg List.length (tags_enclose opened closed)).trans ?_)
    rw [tags_program none plain, List.nil_append, List.length_append, List.length_cons,
      List.length_cons]
    omega
  · rw [plainBlocks, splitlines_enclose opened closed, splitlines_program plain,
      blocks_enclosed shut opened (fun line mem => (none line mem).2) closed]
    exact ⟨_, _, rfl⟩

end Program

theorem mem_dedent {program : Text} {c : Char} (mem : c ∈ program) (ink : isBlank c = false)
    (other : c ≠ '\n') :
    c ∈ dedent program := by
  rw [← joinLines_splitOn program] at mem
  obtain newline | ⟨line, mem, held⟩ := mem_joinLines mem
  · exact absurd newline other
  · obtain ⟨kept, mem, held⟩ := mem_dedentLines mem held ink
    exact mem_joinLines_of_mem mem held

theorem newline_of_spelled {prompt : Text} {c : Char}
    (mem : c ∈ joinLines ((plainBlocks prompt).flatMap spell)) (broken : isLineBreak c = true) :
    c = '\n' := by
  obtain newline | ⟨line, mem, held⟩ := mem_joinLines mem
  · exact newline
  · obtain ⟨block, there, mem⟩ := List.mem_flatMap.mp mem
    obtain ⟨whole, mem, held⟩ := mem_of_mem_spell mem held
    cases broken.symm.trans (not_isLineBreak_of_mem (mem_of_mem_blocks there mem) c held)

theorem notMem_dedentLines (program : Text) : ∀ line ∈ dedentLines (program.splitOn '\n'),
      '\n' ∉ line := by
  intro line mem held
  obtain ⟨whole, mem, held⟩ := mem_of_mem_dedentLines mem held
  exact notMem_splitOn program whole mem held

theorem spell_lines (program : Text) :
    spell (program.splitOn '\n') = dedentLines (program.splitOn '\n') := by
  rw [spell, if_neg (List.splitOn_ne_nil _ _)]

theorem blocks_of_spelled {program : Text} {first last : List (List Text)}
    (same : dedentLines (program.splitOn '\n') =
      (first ++ program.splitOn '\n' :: last).flatMap spell) :
    first = [] ∧ last = [] := by
  have count := congrArg List.length same
  rw [List.flatMap_append, List.flatMap_cons, spell_lines, List.length_append, List.length_append]
    at count
  constructor
  · by_contra some
    have := List.length_pos_of_ne_nil (spelled_ne_nil some)
    omega
  · by_contra some
    have := List.length_pos_of_ne_nil (spelled_ne_nil some)
    omega

/-- The split of a prompt refuses it just where its tags do not alternate or what they enclose is
blank, and answers none just where it has no tag; and it answers the dedented text of a program
between two tags just where newlines alone part the lines of the program, and no line of the prose
is parted further to hold a tag. -/
theorem split_behavior_script (prompt : Text) :
    ((∃ e, splitBehaviorScript prompt = .error e) ↔
      ¬ Alternate openLine closeLine false (tags prompt) ∨ tags prompt ≠ [] ∧ Blank prompt) ∧
    (splitBehaviorScript prompt = .ok none ↔ tags prompt = []) ∧
    ∀ (before after : List Text) (opener closer program : Text), openLine opener = true →
      closeLine closer = true →
      (∀ line ∈ before ++ after, '\n' ∉ line ∧ openLine line = false ∧ closeLine line = false) →
      (∀ line ∈ program.splitOn '\n', openLine line = false ∧ closeLine line = false) →
      program.all isSpace = false →
      ((∃ prose, splitBehaviorScript (enclose before opener program closer after) =
          .ok (some ⟨dedent program, prose⟩)) ↔
        (∀ c ∈ program, isLineBreak c = true → c = '\n') ∧ ∀ line ∈ before ++ after,
          tags line = []) := by
  refine ⟨split_error_iff prompt, split_none_iff prompt, ?_⟩
  intro before after opener closer program opened closed _ none ink
  have prose : (∀ line ∈ before ++ after, tags line = []) ↔ before.flatMap tags = [] ∧
    after.flatMap tags = [] := by
    rw [List.forall_mem_append, List.flatMap_eq_nil_iff, List.flatMap_eq_nil_iff]
  rw [split_some_iff, prose]
  constructor
  · rintro ⟨alternate, some, -, same⟩
    rw [plainBlocks, joinLines_dedented newline_notMem_blocks, ← plainBlocks] at same
    have plain : ∀ c ∈ program, isLineBreak c = true → c = '\n' := by
      intro c mem broken
      by_contra other
      have ink : isBlank c = false := by
        cases blank : isBlank c with
        | false => rfl
        | true => cases broken.symm.trans (not_isLineBreak_of_isBlank blank)
      exact other (newline_of_spelled (same ▸ mem_dedent mem ink other) broken)
    refine ⟨plain, ?_⟩
    have lines : dedentLines (program.splitOn '\n') ≠ [] := spell_lines program ▸ spell_ne_nil _
    have spelled := joinLines_inj (notMem_dedentLines program) newline_notMem_spelled lines
      (spelled_ne_nil some) same
    obtain ⟨count, first, last, blocks⟩ := plainBlocks_enclose none plain opened closed alternate
    rw [plainBlocks] at blocks
    rw [blocks] at spelled
    obtain ⟨rfl, rfl⟩ := blocks_of_spelled spelled
    rw [plainBlocks, blocks, List.nil_append, List.length_singleton] at count
    exact ⟨List.eq_nil_of_length_eq_zero (by omega), List.eq_nil_of_length_eq_zero (by omega)⟩
  · rintro ⟨plain, untagged⟩
    have pair : tags (enclose before opener program closer after) = [opener, closer] := by
      rw [tags_enclose opened closed, untagged.1, untagged.2, tags_program none plain]
      rfl
    have alternate : Alternate openLine closeLine false
      (tags (enclose before opener program closer after)) := by
      rw [pair]
      exact ⟨opened, closed, rfl⟩
    obtain ⟨count, first, last, blocks⟩ := plainBlocks_enclose none plain opened closed alternate
    rw [blocks, untagged.1, untagged.2, List.length_append, List.length_cons, List.length_nil]
      at count
    have alone : plainBlocks (enclose before opener program closer after) =
      [program.splitOn '\n'] := by
      have led : first = [] := List.eq_nil_of_length_eq_zero (by omega)
      have trailed : last = [] := List.eq_nil_of_length_eq_zero (by omega)
      rw [blocks, led, trailed, List.nil_append]
    refine ⟨alternate, ?_, ?_, ?_⟩
    · rw [alone]
      exact List.cons_ne_nil _ _
    · intro blank
      have lines := all_joinLines.mpr (blank _ (alone ▸ List.mem_singleton_self _))
      rw [joinLines_splitOn] at lines
      cases ink.symm.trans lines
    · rw [alone, List.map_singleton, joinLines_singleton, dedented, joinLines_splitOn]

theorem split_behavior_script_indented :
    ∃ prose, splitBehaviorScript
      (enclose ["Run this:".toList] behaviorScriptOpen "  a = 1\n\n  text(a)".toList
      behaviorScriptClose []) = .ok (some ⟨dedent "  a = 1\n\n  text(a)".toList, prose⟩) := by
  have lines : "  a = 1\n\n  text(a)".toList.splitOn '\n' =
    ["  a = 1".toList, [], "  text(a)".toList] := by decide
  have broken : "  a = 1\n\n  text(a)".toList.all (fun c =>
    decide (isLineBreak c = true → c = '\n')) = true := by
    decide
  refine ((split_behavior_script []).2.2 ["Run this:".toList]
    [] behaviorScriptOpen behaviorScriptClose
    "  a = 1\n\n  text(a)".toList rfl rfl ?_ ?_ rfl).mpr ⟨?_, ?_⟩
  · decide
  · rw [lines, List.forall_mem_cons, List.forall_mem_cons, List.forall_mem_singleton]
    exact ⟨⟨rfl, rfl⟩, ⟨rfl, rfl⟩, ⟨rfl, rfl⟩⟩
  · exact fun c mem => of_decide_eq_true (List.all_eq_true.mp broken c mem)
  · decide

def separated : Text := "text('a\u2028b')".toList

theorem line_separator_parted :
    (∀ line ∈ separated.splitOn '\n', openLine line = false ∧ closeLine line = false) ∧
      separated.all isSpace = false ∧ dedent separated = separated ∧
      splitBehaviorScript (enclose [] behaviorScriptOpen separated behaviorScriptClose []) =
        .ok (some ⟨"text('a\nb')".toList, []⟩) ∧
      ¬ ∃ prose, splitBehaviorScript
        (enclose [] behaviorScriptOpen separated behaviorScriptClose []) =
        .ok (some ⟨dedent separated, prose⟩) := by
  have parted : splitBehaviorScript
    (enclose [] behaviorScriptOpen separated behaviorScriptClose []) =
      .ok (some ⟨"text('a\nb')".toList, []⟩) := by decide
  refine ⟨by decide, by decide, by decide, parted, ?_⟩
  rw [parted]
  rintro ⟨_, same⟩
  have script : "text('a\nb')".toList = dedent separated :=
    congrArg TaggedPrompt.script (Option.some.inj (Except.ok.inj same))
  revert script
  decide

end BlizzardMock.Harness.Engine
