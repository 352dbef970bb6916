import BlizzardMock.Data.Blocks
import BlizzardMock.Data.Method
import BlizzardMock.Harness.Engine
import BlizzardMock.Harness.OpenCode2.Program
import BlizzardMock.Python.LineLaws
import Mathlib.Data.List.TakeWhile

namespace BlizzardMock.Harness

open Blocks

def dedented (block : List Text) : Text := dedent (joinLines block)

def spell (block : List Text) : List Text := dedentLines (if block = [] then [[]] else block)

theorem spell_ne_nil (block : List Text) : spell block ≠ [] := by
  apply List.ne_nil_of_length_pos
  rw [spell, length_dedentLines]
  split
  · exact Nat.one_pos
  case isFalse some => exact List.length_pos_of_ne_nil some

theorem mem_of_mem_spell {block : List Text} {line : Text} {c : Char} (mem : line ∈ spell block)
    (held : c ∈ line) : ∃ whole ∈ block, c ∈ whole := by
  obtain ⟨whole, there, held⟩ := mem_of_mem_dedentLines mem held
  split at there
  · rw [List.mem_singleton.mp there] at held
    cases held
  · exact ⟨whole, there, held⟩

theorem dedented_eq {block : List Text} (plain : ∀ line ∈ block, '\n' ∉ line) :
    dedented block = joinLines (spell block) := by
  rw [dedented, spell]
  split
  case isTrue empty =>
    rw [empty]
    rfl
  case isFalse some => exact dedent_joinLines plain some

theorem joinLines_dedented {blocks : List (List Text)}
    (plain : ∀ block ∈ blocks, ∀ line ∈ block, '\n' ∉ line) :
    joinLines (blocks.map dedented) = joinLines (blocks.flatMap spell) := by
  have spelled : blocks.map dedented = (blocks.map spell).map joinLines := by
    rw [List.map_map]
    exact List.map_congr_left fun block mem => dedented_eq (plain block mem)
  rw [spelled, joinLines_flatten, ← List.flatMap_def]
  intro lines mem
  obtain ⟨block, -, rfl⟩ := List.mem_map.mp mem
  exact spell_ne_nil block

open Harness.OpenCode2 (Program.opens Program.closes)

theorem opens_of_openLine (line : Text) (h : Engine.openLine line = true) :
    Program.opens line = true :=
  alone_mono (fun _ => isSpace_of_isBlank) (by decide) h

theorem closes_of_closeLine (line : Text) (h : Engine.closeLine line = true) :
    Program.closes line = true :=
  alone_mono (fun _ => isSpace_of_isBlank) (by decide) h

theorem not_closes_of_opens (line : Text) (h : Program.opens line = true) :
    Program.closes line = false :=
  not_alone_both (by decide) (by decide) h

theorem spelling : Spelling Engine.openLine Program.closes (Program.closes · = true) spell where
  length block := by
    rw [spell, length_dedentLines]
    split
    case isTrue empty =>
      rw [empty]
      rfl
    case isFalse some =>
      have := List.length_pos_of_ne_nil some
      omega
  closing block := by
    rw [spell]
    split
    case isTrue empty =>
      rw [empty]
      constructor
      · rintro ⟨line, mem, shut⟩
        rw [List.mem_singleton.mp mem] at shut
        cases shut
      · nofun
    case isFalse =>
      simp only [dedentLines, List.mem_map, exists_exists_and_eq_and]
      apply exists_congr
      intro line
      apply and_congr_right
      intro mem
      rw [Program.closes, alone_dedented mem, Program.closes]
  opening line opened same := by
    have wide := opens_of_openLine line opened
    have kept := alone_dedented (List.mem_singleton_self line) "<behavior-script>".toList
    have empty : (if line.all isBlank then [] else line.drop (margin [line]).length) = [] :=
      List.singleton_inj.mp same
    rw [empty] at kept
    rw [Program.opens, ← kept] at wide
    cases wide

def plainBlocks (prompt : Text) : List (List Text) :=
  blocks Engine.openLine Engine.closeLine (splitlines prompt)

def paddedBlocks (prompt : Text) : List (List Text) :=
  blocks Program.opens Program.closes (splitlines prompt)

namespace Engine

/-- The loop has read what a scan of the lines has. -/
structure Split.Reads (split : Split) (scan : Scan Text) : Prop where
  blocks : split.blocks = scan.blocks.map dedented
  body : scan.body = split.openLine.map fun _ => split.body

theorem Split.Reads.step {split next : Split} {scan : Scan Text} {line : Text} {number : Nat}
    (h : split.Reads scan) (stepped : split.step (line, number) = .ok next) :
    next.Reads (scan.step Engine.openLine closeLine line) := by
  have body := h.body
  rw [Split.step] at stepped
  cases opened : Engine.openLine line with
  | true =>
    rw [if_pos opened] at stepped
    cases held : split.openLine with
    | some number =>
      rw [held] at stepped
      cases stepped
    | none =>
      rw [held] at stepped body
      cases stepped
      rw [step_opens body opened]
      exact ⟨h.blocks, rfl⟩
  | false =>
    rw [if_neg (Bool.eq_false_iff.mp opened)] at stepped
    cases closed : closeLine line with
    | true =>
      rw [if_pos closed] at stepped
      cases held : split.openLine with
      | none =>
        rw [held] at stepped
        cases stepped
      | some number =>
        rw [held] at stepped body
        cases stepped
        rw [step_closes body closed]
        refine ⟨?_, rfl⟩
        rw [List.map_append, ← h.blocks]
        rfl
    | false =>
      rw [if_neg (Bool.eq_false_iff.mp closed)] at stepped
      cases held : split.openLine with
      | none =>
        rw [held] at stepped body
        cases stepped
        rw [step_skips body opened]
        exact ⟨h.blocks, body⟩
      | some number =>
        rw [held] at stepped body
        cases stepped
        rw [step_takes body closed]
        exact ⟨h.blocks, rfl⟩

theorem Split.Reads.run {lines : List Text} {number : Nat} {split last : Split} {scan : Scan Text}
    (h : split.Reads scan) (ran : (lines.zipIdx number).foldlM Split.step split = .ok last) :
    last.Reads (lines.foldl (Scan.step Engine.openLine closeLine) scan) := by
  induction lines generalizing number split scan with
  | nil =>
    cases ran
    exact h
  | cons line lines ih =>
    rw [List.zipIdx_cons, List.foldlM_cons] at ran
    obtain ⟨next, stepped, later⟩ := Method.except_bind_ok ran
    exact ih (h.step stepped) later

theorem splitBehaviorScript_ok {prompt : Text} {tagged : Option TaggedPrompt}
    (h : splitBehaviorScript prompt = .ok tagged) :
    (scan Engine.openLine closeLine (splitlines prompt)).body = none ∧
      tagged.map (·.script) =
        if plainBlocks prompt = [] then none
          else some (joinLines ((plainBlocks prompt).map dedented)) := by
  obtain ⟨last, ran, answered⟩ := Method.except_bind_ok h
  have read : last.Reads (scan Engine.openLine closeLine (splitlines prompt)) :=
    Split.Reads.run ⟨rfl, rfl⟩ ran
  have held : last.blocks = (plainBlocks prompt).map dedented := read.blocks
  cases opened : last.openLine with
  | some number =>
    rw [opened] at answered
    cases answered
  | none =>
    rw [opened] at answered
    refine ⟨by rw [read.body, opened]; rfl, ?_⟩
    dsimp only at answered
    split at answered
    case isTrue empty =>
      cases answered
      rw [if_pos (List.map_eq_nil_iff.mp (held.symm.trans empty))]
      rfl
    case isFalse some =>
      have nonempty : plainBlocks prompt ≠ [] := fun empty => some (by rw [held, empty]; rfl)
      rw [if_neg nonempty, ← held]
      split at answered
      · cases answered
      · cases answered
        rfl

end Engine

namespace OpenCode2.Program

theorem reading_step (blocks : List (List Text)) (body : Option (List Text)) (line : Text) :
    Reading.step ⟨blocks.map dedented, body⟩ line =
      ⟨((Scan.mk blocks body).step opens closes line).blocks.map dedented,
        ((Scan.mk blocks body).step opens closes line).body⟩ := by
  cases body with
  | none => cases opened : opens line <;> simp [Reading.step, Scan.step, opened]
  | some body => cases closed : closes line <;> simp [Reading.step, Scan.step, closed, dedented]

theorem reading_eq (prompt : Text) :
    ((splitlines prompt).foldl Reading.step {}).blocks = (paddedBlocks prompt).map dedented := by
  have along (lines : List Text) (scan : Scan Text) :
      lines.foldl Reading.step ⟨scan.blocks.map dedented, scan.body⟩ =
        ⟨(lines.foldl (Scan.step opens closes) scan).blocks.map dedented,
          (lines.foldl (Scan.step opens closes) scan).body⟩ := by
    induction lines generalizing scan with
    | nil => rfl
    | cons line lines ih =>
      rw [List.foldl_cons, List.foldl_cons, ← ih, reading_step]
  exact congrArg Reading.blocks (along (splitlines prompt) {})

theorem drop_length_takeWhile (p : Text → Bool) (lines : List Text) :
    lines.drop (lines.takeWhile p).length = lines.dropWhile p := by
  calc lines.drop (lines.takeWhile p).length
    _ = (lines.takeWhile p ++ lines.dropWhile p).drop (lines.takeWhile p).length := by
      rw [List.takeWhile_append_dropWhile]
    _ = lines.dropWhile p := List.drop_left

theorem program_eq (prompt : Text) :
    program prompt = if paddedBlocks prompt = [] then (Engine.splitWorkerPreamble prompt).2
      else joinLines ((paddedBlocks prompt).map dedented) := by
  rw [program]
  simp only [reading_eq, ne_eq, List.map_eq_nil_iff, ite_not]
  congr 1
  have header : preambleTableHeader = Harness.preambleTableHeader := rfl
  simp only [Engine.splitWorkerPreamble, drop_length_takeWhile, header]
  split
  case h_1 none => rw [none]
  case h_2 found =>
    rw [found]
    rfl

end OpenCode2.Program

def pastTable (lines : List Text) : Option (List Text) :=
  match lines.dropWhile (stripBy isSpace · ≠ preambleTableHeader) with
  | [] => none
  | _ :: rest => some (rest.dropWhile Engine.isRow)

theorem splitWorkerPreamble_eq (prompt : Text) : (Engine.splitWorkerPreamble prompt).2 =
    match pastTable (splitlines prompt) with
    | none => prompt
    | some after => (joinLines after).dropWhile (· = '\n') := by
  simp only [Engine.splitWorkerPreamble, pastTable, OpenCode2.Program.drop_length_takeWhile]
  cases (splitlines prompt).dropWhile _ <;> rfl

theorem pastTable_of_tableless {lines : List Text}
    (none : ∀ line ∈ lines, stripBy isSpace line ≠ preambleTableHeader) :
    pastTable lines = .none := by
  have all : lines.dropWhile (stripBy isSpace · ≠ preambleTableHeader) = [] :=
    List.dropWhile_eq_nil_iff.mpr fun line mem => decide_eq_true (none line mem)
  rw [pastTable, all]

section Blocks

variable {prompt : Text}

theorem plain_padded : ∀ line ∈ (paddedBlocks prompt).flatMap spell, ∀ c ∈ line,
      isLineBreak c = false := by
  intro line mem c held
  obtain ⟨block, there, mem⟩ := List.mem_flatMap.mp mem
  obtain ⟨whole, mem, held⟩ := mem_of_mem_spell mem held
  exact not_isLineBreak_of_mem (mem_of_mem_blocks there mem) c held

theorem newline_notMem_blocks {opens closes : Text → Bool} :
    ∀ block ∈ blocks opens closes (splitlines prompt), ∀ line ∈ block, '\n' ∉ line :=
  fun _ mem _ held => newline_notMem (mem_of_mem_blocks mem held)

theorem newline_notMem_spelled {opens closes : Text → Bool} :
    ∀ line ∈ (blocks opens closes (splitlines prompt)).flatMap spell, '\n' ∉ line := by
  intro line mem held
  obtain ⟨block, there, mem⟩ := List.mem_flatMap.mp mem
  obtain ⟨whole, mem, held⟩ := mem_of_mem_spell mem held
  exact newline_notMem_blocks block there whole mem held

theorem spelled_ne_nil {blocks : List (List Text)} (some : blocks ≠ []) :
    blocks.flatMap spell ≠ [] := by
  obtain ⟨block, rest, rfl⟩ := List.exists_cons_of_ne_nil some
  simp [spell_ne_nil]

theorem padded_ne_prompt (some : paddedBlocks prompt ≠ []) :
    joinLines ((paddedBlocks prompt).map dedented) ≠ prompt := by
  intro same
  have whole : joinLines ((paddedBlocks prompt).flatMap spell) = prompt :=
    (joinLines_dedented newline_notMem_blocks).symm.trans same
  obtain ⟨line, mem, closed⟩ := closes_of_blocks some
  have lines : splitlines (joinLines ((paddedBlocks prompt).flatMap spell)) ⊆ _ :=
    splitlines_joinLines plain_padded
  rw [whole] at lines
  obtain ⟨block, there, spelled⟩ := List.mem_flatMap.mp (lines mem)
  obtain ⟨item, held, closing⟩ := (spelling.closing block).mp ⟨line, spelled, closed⟩
  rw [not_closes_of_mem_blocks there held] at closing
  cases closing

end Blocks

def paddingInert (prompt : Text) : Bool :=
  inert Program.opens Program.closes Engine.openLine Engine.closeLine false (splitlines prompt)

theorem inert_iff {prompt : Text}
    (closed : (scan Engine.openLine Engine.closeLine (splitlines prompt)).body = none) :
    paddingInert prompt = true ↔ paddedBlocks prompt = plainBlocks prompt := by
  constructor
  · exact fun idle => blocks_of_inert opens_of_openLine closes_of_closeLine idle
  · intro same
    apply inert_of_spelled opens_of_openLine closes_of_closeLine not_closes_of_opens spelling closed
    exact congrArg (List.flatMap spell) same

theorem inert_of_joined {prompt : Text}
    (closed : (scan Engine.openLine Engine.closeLine (splitlines prompt)).body = none)
    (some : plainBlocks prompt ≠ []) (same : joinLines ((paddedBlocks prompt).map dedented) =
      joinLines ((plainBlocks prompt).map dedented)) : paddingInert prompt = true := by
  have padded : paddedBlocks prompt ≠ [] := blocks_ne_nil opens_of_openLine closes_of_closeLine some
  have spelled := calc joinLines ((paddedBlocks prompt).flatMap spell)
    _ = joinLines ((paddedBlocks prompt).map dedented) :=
      (joinLines_dedented newline_notMem_blocks).symm
    _ = joinLines ((plainBlocks prompt).map dedented) := same
    _ = joinLines ((plainBlocks prompt).flatMap spell) := joinLines_dedented newline_notMem_blocks
  have lines := joinLines_inj newline_notMem_spelled newline_notMem_spelled (spelled_ne_nil padded)
    (spelled_ne_nil some) spelled
  exact inert_of_spelled opens_of_openLine closes_of_closeLine not_closes_of_opens
    spelling closed lines

/-- The two splits run the same script of a prompt where padding its tags with other whitespace is
inert, and only there if a tag stands plainly in it or it has no preamble table. -/
theorem splits_agree {prompt : Text} {tagged : Option TaggedPrompt}
    (taken : Engine.splitBehaviorScript prompt = .ok tagged) :
    (paddingInert prompt = true →
      OpenCode2.Program.program prompt = Engine.scriptOf prompt tagged) ∧
    ((∃ line ∈ splitlines prompt, Engine.openLine line = true) ∨
        (∀ line ∈ splitlines prompt, stripBy isSpace line ≠ preambleTableHeader) →
      OpenCode2.Program.program prompt = Engine.scriptOf prompt tagged →
        paddingInert prompt = true) := by
  obtain ⟨closed, script⟩ := Engine.splitBehaviorScript_ok taken
  rw [OpenCode2.Program.program_eq]
  by_cases untagged : plainBlocks prompt = []
  · rw [if_pos untagged, Option.map_eq_none_iff] at script
    subst script
    refine ⟨fun idle => if_pos (((inert_iff closed).mp idle).trans untagged), fun bare same => ?_⟩
    have tableless := bare.resolve_left fun tags => blocks_ne_nil_of_opens closed tags untagged
    by_cases empty : paddedBlocks prompt = []
    · exact (inert_iff closed).mpr (empty.trans untagged.symm)
    · rw [if_neg empty, Engine.scriptOf, splitWorkerPreamble_eq, pastTable_of_tableless tableless]
        at same
      exact absurd same (padded_ne_prompt empty)
  · rw [if_neg untagged, Option.map_eq_some_iff] at script
    obtain ⟨split, rfl, same⟩ := script
    have some : paddedBlocks prompt ≠ [] :=
      blocks_ne_nil opens_of_openLine closes_of_closeLine untagged
    rw [if_neg some, show Engine.scriptOf prompt (.some split) = split.script from rfl, same]
    constructor
    · intro idle
      rw [(inert_iff closed).mp idle]
    · intro _ equal
      exact inert_of_joined closed untagged equal

def padded : Text := "<behavior-script>\u00a0\ntext('A')\n</behavior-script>\u00a0".toList

theorem padded_tags_split :
    Engine.splitBehaviorScript padded = .ok none ∧ Engine.scriptOf padded none = padded ∧
      OpenCode2.Program.program padded = "text('A')".toList := by
  decide

def indented : Text :=
  "prose\n<behavior-script>\n  text('A')\n</behavior-script>\nmore prose".toList

theorem splits_agree_indented :
    OpenCode2.Program.program indented = "text('A')".toList ∧ paddingInert indented = true := by
  have taken : Engine.splitBehaviorScript indented =
      .ok (some ⟨"text('A')".toList, "prose\nmore prose".toList⟩) := by decide
  exact ⟨(splits_agree taken).1 (by decide), (splits_agree taken).2 (.inl (by decide)) (by decide)⟩

end BlizzardMock.Harness
