import BlizzardMock.Data.LaneLaws

namespace BlizzardMock

open Method

section Idle

variable {ε σ α : Type}

def Idle (m : EStateM ε σ Bool) : Prop := ∀ s, answer m s = .ok false → after m s = s

theorem idle_pure (accepted : Bool) : Idle (pure accepted : EStateM ε σ Bool) := fun _ _ => rfl

theorem idle_bind {m : EStateM ε σ α} {g : α → EStateM ε σ Bool} [Keeps id m]
    (h : ∀ a, Idle (g a)) :
    Idle (m >>= g) := by
  intro s refused
  obtain ⟨a, answered, refused⟩ := answer_bind_ok refused
  have kept : after m s = s := Keeps.keeps (f := id) s
  rw [kept] at refused
  rw [after_bind_of_ok _ answered, kept]
  exact h a s refused

theorem idle_of_yields {m : EStateM ε σ Bool} (h : ∀ s, Yields m s true) : Idle m :=
  fun s refused => nomatch h s false refused

theorem idle_last {m : EStateM ε σ α} : Idle (m >>= fun _ => pure true) :=
  idle_of_yields fun _ => yields_last

theorem Idle.ite {c : Prop} [Decidable c] {m n : EStateM ε σ Bool} (hm : Idle m) (hn : Idle n) :
    Idle (if c then m else n) := by
  split
  · exact hm
  · exact hn

end Idle

/-- A lane, and where its mark is kept.  No judgement reads the mark or moves it, and one that
refuses an item writes nothing. -/
structure Intake (ε σ φ : Type) extends Lane.Rule ε σ φ where
  mark : σ → Int
  keep : Int → σ → σ
  rises : toRule.Rises
  mark_keep : ∀ n s, mark (keep n s) = n
  keep_keep : ∀ m n s, keep m (keep n s) = keep m s
  mark_judge : ∀ item s, mark (after (judge item) s) = mark s
  answer_judge : ∀ item n s, answer (judge item) (keep n s) = answer (judge item) s
  judge_keep : ∀ item n s, after (judge item) (keep n s) = keep n (after (judge item) s)
  idle : ∀ item, Idle (judge item)

namespace Intake

variable {ε σ φ : Type} (intake : Intake ε σ φ)

def ingest (items : List φ) : EStateM ε σ Lane := do
  let mark ← read intake.mark
  let lane ← intake.push items mark
  write (intake.keep lane.mark)
  return lane

def ingestEach : List φ → EStateM ε σ (List Lane)
  | [] => pure []
  | item :: rest => do
    let lane ← intake.ingest [item]
    let lanes ← ingestEach rest
    return lane :: lanes

variable {intake} {items : List φ} {s : σ} {lane out : Lane}

theorem run_ingest (swept : answer (intake.push items (intake.mark s)) s = .ok out) :
    (intake.ingest items).run s = .ok out
      (intake.keep out.mark (after (intake.push items (intake.mark s)) s)) := by
  have run : (intake.push items (intake.mark s)).run s =
      .ok out (after (intake.push items (intake.mark s)) s) := by
    rw [run_eq, swept]
  simp only [ingest]
  rw [run_read_bind, run_bind_of_run run]
  rfl

theorem push_of_ingest (ingested : answer (intake.ingest items) s = .ok out) :
    answer (intake.push items (intake.mark s)) s = .ok out := by
  simp only [ingest] at ingested
  rw [answer_bind_of_ok _ rfl] at ingested
  obtain ⟨lane, swept, rest⟩ := answer_bind_ok ingested
  cases rest
  exact swept

theorem after_loop_of_past (swept : answer (intake.loop items lane) s = .ok out)
    (past : ∀ item ∈ items, out.mark < intake.seq item) : after (intake.loop items lane) s = s := by
  induction items generalizing lane s with
  | nil => rfl
  | cons item rest ih =>
    have later : ∀ other ∈ rest, out.mark < intake.seq other :=
      fun other mem => past other (List.mem_cons_of_mem _ mem)
    simp only [Lane.Rule.loop, answer_ite, after_ite] at swept ⊢
    split
    case isTrue old =>
      rw [if_pos old] at swept
      exact ih swept later
    case isFalse new =>
      rw [if_neg new] at swept
      obtain ⟨accepted, judged, swept⟩ := answer_bind_ok swept
      rw [after_bind_of_ok _ judged, ih swept later]
      cases accepted with
      | false => exact intake.idle item s judged
      | true =>
        have reached := (Lane.Rule.sweep_of_answer swept).mark_le intake.rises
        change intake.advance lane.mark (intake.seq item) ≤ _ at reached
        rw [intake.rises _ _ (not_le.mp new)] at reached
        exact absurd (past item List.mem_cons_self) (not_lt.mpr reached)

theorem refused_of_past (swept : answer (intake.loop items lane) s = .ok out)
    (sorted : items.Pairwise fun a b => intake.seq a ≤ intake.seq b) {item : φ} (mem : item ∈ items)
    (past : out.mark < intake.seq item) :
    answer (intake.judge item) (after (intake.loop items lane) s) = .ok false := by
  induction items generalizing lane s with
  | nil => cases mem
  | cons first rest ih =>
    rw [List.pairwise_cons] at sorted
    simp only [Lane.Rule.loop, answer_ite, after_ite] at swept ⊢
    split
    case isTrue old =>
      rw [if_pos old] at swept
      cases mem with
      | head =>
        have reached := (Lane.Rule.sweep_of_answer swept).mark_le intake.rises
        exact absurd (past.trans_le old) (not_lt.mpr reached)
      | tail _ mem => exact ih swept sorted.2 mem
    case isFalse new =>
      rw [if_neg new] at swept
      obtain ⟨accepted, judged, swept⟩ := answer_bind_ok swept
      rw [after_bind_of_ok _ judged]
      cases mem with
      | tail _ mem => exact ih swept sorted.2 mem
      | head =>
        -- nothing behind it was accepted, so it meets the object it met
        have kept := after_loop_of_past swept fun other mem => past.trans_le (sorted.1 other mem)
        rw [kept]
        cases accepted with
        | false => rwa [intake.idle item s judged]
        | true =>
          have reached := (Lane.Rule.sweep_of_answer swept).mark_le intake.rises
          change intake.advance lane.mark (intake.seq item) ≤ _ at reached
          rw [intake.rises _ _ (not_le.mp new)] at reached
          exact absurd past (not_lt.mpr reached)

def settled (intake : Intake ε σ φ) (items : List φ) (lane : Lane) : Lane where
  mark := lane.mark
  applied := lane.applied
  alreadyApplied := lane.alreadyApplied ++ (items.map intake.seq).filter (· ≤ lane.mark)
  rejected := lane.rejected ++ (items.map intake.seq).filter (lane.mark < ·)

theorem run_loop_of_refused (lane : Lane) (refused : ∀ item ∈ items, lane.mark < intake.seq item →
      answer (intake.judge item) s = .ok false) :
    (intake.loop items lane).run s = .ok (intake.settled items lane) s := by
  induction items generalizing lane with
  | nil =>
    simp only [settled, List.map_nil, List.filter_nil, List.append_nil]
    rfl
  | cons item rest ih =>
    have later : ∀ other ∈ rest, lane.mark < intake.seq other →
      answer (intake.judge other) s = .ok false :=
      fun other mem => refused other (List.mem_cons_of_mem _ mem)
    simp only [Lane.Rule.loop]
    split
    case isTrue old =>
      rw [ih (lane.skip (intake.seq item)) later]
      simp only [settled, Lane.skip, List.map_cons, List.filter_cons, old,
        not_lt.mpr old, decide_true,
        decide_false, if_true, Bool.false_eq_true, if_false, List.append_assoc,
          List.singleton_append]
      rfl
    case isFalse new =>
      have judged := refused item List.mem_cons_self (not_le.mp new)
      have run : (intake.judge item).run s = .ok false s := by
        rw [run_eq, judged, intake.idle item s judged]
      rw [run_bind_of_run run, ih (lane.judged intake.advance (intake.seq item) false) later]
      simp only [settled, Lane.judged, List.map_cons, List.filter_cons, new,
        not_le.mp new, decide_true,
        decide_false, if_true, Bool.false_eq_true, if_false, List.append_assoc,
          List.singleton_append]
      rfl

theorem run_ingest_again (ingested : answer (intake.ingest items) s = .ok out) :
    (intake.ingest items).run (after (intake.ingest items) s) =
      .ok (intake.settled (intake.sorted items) { mark := out.mark })
        (after (intake.ingest items) s) := by
  have swept := push_of_ingest ingested
  have left := after_of_run_ok (run_ingest swept)
  have again : (intake.push items out.mark).run (after (intake.ingest items) s) =
      .ok (intake.settled (intake.sorted items) { mark := out.mark })
        (after (intake.ingest items) s) := by
    apply run_loop_of_refused
    intro item mem past
    rw [left, intake.answer_judge]
    exact refused_of_past swept (intake.pairwise_sorted items) mem past
  have marked : intake.mark (after (intake.ingest items) s) = out.mark := by
    rw [left, intake.mark_keep]
  rw [← marked] at again
  rw [run_ingest (answer_of_run_ok again), after_of_run_ok again, marked]
  congr 1
  change intake.keep out.mark (after (intake.ingest items) s) = _
  rw [left, intake.keep_keep]

def Alike (intake : Intake ε σ φ) (s t : σ) : Prop := ∀ n, intake.keep n s = intake.keep n t

theorem Alike.judge {t : σ} (alike : intake.Alike s t) (item : φ) :
    answer (intake.judge item) s = answer (intake.judge item) t ∧
      intake.Alike (after (intake.judge item) s) (after (intake.judge item) t) := by
  constructor
  · rw [← intake.answer_judge item 0 s, alike 0, intake.answer_judge]
  · intro n
    rw [← intake.judge_keep, alike n, intake.judge_keep]

theorem run_ingest_one (item : φ) (h : intake.mark s < intake.seq item) {accepted : Bool}
    (judged : answer (intake.judge item) s = .ok accepted) :
    let lane := Lane.judged intake.advance { mark := intake.mark s } (intake.seq item) accepted
    (intake.ingest [item]).run s = .ok lane
      (intake.keep lane.mark (after (intake.judge item) s)) := by
  intro lane
  have run : (intake.push [item] (intake.mark s)).run s = .ok lane
    (after (intake.judge item) s) := by
    change EStateM.run (if intake.seq item ≤ intake.mark s then _ else _) s = _
    rw [if_neg (not_le.mpr h)]
    exact run_bind_of_run (by rw [run_eq, judged])
  rw [run_ingest (answer_of_run_ok run), after_of_run_ok run]

theorem run_ingest_old (item : φ) (h : intake.seq item ≤ intake.mark s) :
    (intake.ingest [item]).run s = .ok (Lane.skip { mark := intake.mark s } (intake.seq item))
      (intake.keep (intake.mark s) s) := by
  have run : (intake.push [item] (intake.mark s)).run s =
      .ok (Lane.skip { mark := intake.mark s } (intake.seq item)) s := by
    change EStateM.run (if intake.seq item ≤ intake.mark s then _ else _) s = _
    rw [if_pos h]
    rfl
  rw [run_ingest (answer_of_run_ok run), after_of_run_ok run]
  rfl

def joined (lane : Lane) (mark : Int) (lanes : List Lane) : Lane where
  mark
  applied := lane.applied ++ lanes.flatMap Lane.applied
  alreadyApplied := lane.alreadyApplied ++ lanes.flatMap Lane.alreadyApplied
  rejected := lane.rejected ++ lanes.flatMap Lane.rejected

theorem joined_skip (lane : Lane) (mark seq n : Int) (lanes : List Lane) :
    joined (lane.skip seq) mark lanes = joined lane mark
      (Lane.skip { mark := n } seq :: lanes) := by
  simp [joined, Lane.skip]

theorem joined_judged (lane : Lane) (advance : Int → Int → Int) (mark seq n : Int) (accepted : Bool)
    (lanes : List Lane) : joined (lane.judged advance seq accepted) mark lanes =
      joined lane mark (Lane.judged advance { mark := n } seq accepted :: lanes) := by
  cases accepted <;> simp [joined, Lane.judged]

theorem mark_judged (lane : Lane) (advance : Int → Int → Int) (seq : Int) (accepted : Bool) :
    (Lane.judged advance { mark := lane.mark } seq accepted).mark =
      (lane.judged advance seq accepted).mark := by
  cases accepted <;> rfl

theorem ingestEach_of_loop {t : σ} (swept : answer (intake.loop items lane) s = .ok out)
    (alike : intake.Alike t s) (marked : intake.mark t = lane.mark) :
    ∃ lanes later, (intake.ingestEach items).run t = .ok lanes later ∧
      out = joined lane out.mark lanes ∧
      intake.Alike later (after (intake.loop items lane) s) ∧
      (items ≠ [] ∨ intake.keep lane.mark t = t → intake.keep out.mark later = later) := by
  induction items generalizing lane s t with
  | nil =>
    cases swept
    refine ⟨[], t, rfl, ?_, alike, ?_⟩
    · simp [joined]
    · exact fun kept => kept.resolve_left (not_not.mpr rfl)
  | cons item rest ih =>
    simp only [Lane.Rule.loop, answer_ite, after_ite] at swept ⊢
    by_cases old : intake.seq item ≤ lane.mark
    · rw [if_pos old] at swept ⊢
      have pushed := run_ingest_old item (old.trans_eq marked.symm)
      rw [marked] at pushed
      obtain ⟨lanes, later, run, same, alike, kept⟩ := ih (t := intake.keep lane.mark t) swept
        (fun n => (intake.keep_keep n _ t).trans (alike n)) (intake.mark_keep _ t)
      refine ⟨Lane.skip { mark := lane.mark } (intake.seq item) :: lanes, later, ?_, ?_, alike,
        fun _ => kept (.inr (intake.keep_keep _ _ t))⟩
      · simp only [ingestEach]
        rw [run_bind_of_run pushed, run_bind_of_run run]
        rfl
      · rw [← joined_skip]
        exact same
    · rw [if_neg old] at swept ⊢
      obtain ⟨accepted, judged, swept⟩ := answer_bind_ok swept
      obtain ⟨answered, alike⟩ := alike.judge item
      rw [judged] at answered
      have past : intake.mark t < intake.seq item := by
        rw [marked]
        exact not_le.mp old
      have pushed := run_ingest_one item past answered
      simp only [marked, mark_judged] at pushed
      rw [after_bind_of_ok _ judged]
      obtain ⟨lanes, later, run, same, alike, kept⟩ := ih swept
        (fun n => (intake.keep_keep n _ _).trans (alike n)) (intake.mark_keep _ _)
      refine ⟨Lane.judged intake.advance { mark := lane.mark } (intake.seq item) accepted :: lanes,
        later,
        ?_, ?_, alike, fun _ => kept (.inr (intake.keep_keep _ _ _))⟩
      · simp only [ingestEach]
        rw [run_bind_of_run pushed, run_bind_of_run run]
        rfl
      · rw [← joined_judged]
        exact same

theorem run_ingestEach (ingested : answer (intake.ingest items) s = .ok out) :
    ∃ lanes later, (intake.ingestEach (intake.sorted items)).run s = .ok lanes later ∧
      out = joined { mark := intake.mark s } out.mark lanes ∧
      intake.keep out.mark later = after (intake.ingest items) s ∧
      (items ≠ [] → later = after (intake.ingest items) s) := by
  have swept := push_of_ingest ingested
  obtain ⟨lanes, later, run, same, alike, kept⟩ := ingestEach_of_loop swept (fun _ => rfl) rfl
  have left : intake.keep out.mark later = after (intake.ingest items) s := by
    rw [after_of_run_ok (run_ingest swept)]
    exact alike out.mark
  refine ⟨lanes, later, run, same, left, fun some => ?_⟩
  rw [← left]
  refine (kept (.inl fun none => some ?_)).symm
  exact List.perm_nil.mp (none ▸ (List.perm_insertionSort _ items).symm)

end Intake

end BlizzardMock
