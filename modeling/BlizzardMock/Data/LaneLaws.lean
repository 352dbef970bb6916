import BlizzardMock.Data.Lane

namespace BlizzardMock.Lane.Rule

open Method

variable {ε σ φ : Type} (rule : Rule ε σ φ)

section Related

variable {R : σ → σ → Prop}

theorem loop_related_of_reached (refl : ∀ s, R s s) (trans : ∀ {s t u}, R s t → R t u → R s u)
    (items : List φ) (lane : Lane) (s : σ)
    (step : ∀ item t, (item, t) ∈ rule.reached items lane s → R t (after (rule.judge item) t)) :
    R s (after (rule.loop items lane) s) := by
  induction items generalizing lane s with
  | nil => exact refl s
  | cons item rest ih =>
    simp only [loop, after_ite]
    simp only [reached] at step
    split
    case isTrue seen =>
      rw [if_pos seen] at step
      exact ih _ s step
    case isFalse new =>
      rw [if_neg new] at step
      have first := step item s List.mem_cons_self
      rw [after_bind]
      cases h : answer (rule.judge item) s with
      | ok accepted =>
        rw [h] at step
        exact trans first (ih _ _ fun other t mem => step other t (List.mem_cons_of_mem _ mem))
      | error e => exact first

theorem loop_related (refl : ∀ s, R s s) (trans : ∀ {s t u}, R s t → R t u → R s u)
    (step : ∀ item s, R s (after (rule.judge item) s)) (items : List φ) (lane : Lane) (s : σ) :
    R s (after (rule.loop items lane) s) :=
  rule.loop_related_of_reached refl trans items lane s fun item t _ => step item t

theorem push_related (refl : ∀ s, R s s) (trans : ∀ {s t u}, R s t → R t u → R s u)
    (step : ∀ item s, R s (after (rule.judge item) s)) (items : List φ) (mark : Int) (s : σ) :
    R s (after (rule.push items mark) s) :=
  rule.loop_related refl trans step _ _ s

theorem loop_fold {γ : Type*} {f : σ → γ} {I : σ → Prop} (step : φ → γ → γ)
    (keep : ∀ item s, I s → I (after (rule.judge item) s))
    (show' : ∀ item s, I s → f (after (rule.judge item) s) = step item (f s))
    (items : List φ) (lane : Lane)
    {s : σ} (held : I s) : f (after (rule.loop items lane) s) =
      (rule.reached items lane s).foldl (fun shown judged => step judged.1 shown) (f s) := by
  induction items generalizing lane s with
  | nil => rfl
  | cons item rest ih =>
    simp only [loop, reached, after_ite]
    split
    case isTrue => exact ih _ held
    case isFalse =>
      rw [after_bind, List.foldl_cons, ← show' item s held]
      cases answer (rule.judge item) s with
      | ok accepted => exact ih _ (keep item s held)
      | error e => rfl

end Related

instance loop_keeps {γ : Type*} {f : σ → γ} [h : ∀ item, Keeps f (rule.judge item)]
    (items : List φ) (lane : Lane) : Keeps f (rule.loop items lane) :=
  ⟨rule.loop_related (R := fun s t => f t = f s) (fun _ => rfl)
    (fun hst htu => htu.trans hst) (fun item s => (h item).keeps s) items lane⟩

instance push_keeps {γ : Type*} {f : σ → γ} [h : ∀ item, Keeps f (rule.judge item)]
    (items : List φ) (mark : Int) : Keeps f (rule.push items mark) :=
  rule.loop_keeps _ _

instance loop_respects {A : σ → σ → Prop} [h : ∀ item, Respects A (rule.judge item)]
    (items : List φ)
    (lane : Lane) : Respects A (rule.loop items lane) := by
  induction items generalizing lane with
  | nil => exact inferInstanceAs (Respects A (pure lane))
  | cons item rest ih =>
    simp only [loop]
    infer_instance

instance push_respects {A : σ → σ → Prop} [h : ∀ item, Respects A (rule.judge item)]
    (items : List φ)
    (mark : Int) : Respects A (rule.push items mark) :=
  rule.loop_respects _ _

variable {rule} in
theorem mem_of_reached {items : List φ} {lane : Lane} {s t : σ} {item : φ}
    (mem : (item, t) ∈ rule.reached items lane s) : item ∈ items := by
  induction items generalizing lane s with
  | nil => cases mem
  | cons first rest ih =>
    simp only [reached] at mem
    split at mem
    case isTrue => exact List.mem_cons_of_mem _ (ih mem)
    case isFalse =>
      cases mem with
      | head => exact List.mem_cons_self
      | tail _ mem =>
        cases h : answer (rule.judge first) s with
        | ok accepted =>
          rw [h] at mem
          exact List.mem_cons_of_mem _ (ih mem)
        | error e =>
          rw [h] at mem
          cases mem

theorem pairwise_sorted (items : List φ) :
    (rule.sorted items).Pairwise fun a b => rule.seq a ≤ rule.seq b :=
  have : Std.Total fun a b : φ => rule.seq a ≤ rule.seq b := ⟨fun _ _ => le_total _ _⟩
  have : IsTrans φ fun a b => rule.seq a ≤ rule.seq b := ⟨fun _ _ _ => le_trans⟩
  List.pairwise_insertionSort _ items

/-- How a loop that answers went through its items: the items it judged, each beside the object it
was judged against, and the lane it left. -/
inductive Sweep : List φ → Lane → σ → List (φ × σ) → Lane → Prop
  | done {lane s} : Sweep [] lane s [] lane
  | seen {item rest lane s judged out} (old : rule.seq item ≤ lane.mark)
      (tail : Sweep rest (lane.skip (rule.seq item)) s judged out) :
      Sweep (item :: rest) lane s judged out
  | judged {item rest lane s judged out accepted} (new : lane.mark < rule.seq item)
      (verdict : answer (rule.judge item) s = .ok accepted)
      (tail : Sweep rest (lane.judged rule.advance (rule.seq item) accepted)
        (after (rule.judge item) s) judged out) :
      Sweep (item :: rest) lane s ((item, s) :: judged) out

variable {rule} in
theorem sweep_of_answer {items : List φ} {lane out : Lane} {s : σ}
    (h : answer (rule.loop items lane) s = .ok out) :
    rule.Sweep items lane s (rule.reached items lane s) out := by
  induction items generalizing lane s with
  | nil =>
    cases h
    exact .done
  | cons item rest ih =>
    simp only [loop, answer_ite] at h
    simp only [reached]
    split
    case isTrue old =>
      rw [if_pos old] at h
      exact .seen old (ih h)
    case isFalse new =>
      rw [if_neg new] at h
      obtain ⟨accepted, verdict, h⟩ := answer_bind_ok h
      rw [verdict]
      exact .judged (not_le.mp new) verdict (ih h)

section Marks

def Rises : Prop := ∀ mark seq, mark < seq → rule.advance mark seq = seq

def Judges (admits : φ → σ → Bool) : Prop :=
  ∀ item s accepted, answer (rule.judge item) s = .ok accepted → admits item s = accepted

variable {rule} {admits : φ → σ → Bool} {items : List φ} {lane out : Lane} {s : σ}
    {judged : List (φ × σ)}

theorem Sweep.mark_le (rises : rule.Rises) (h : rule.Sweep items lane s judged out) :
    lane.mark ≤ out.mark := by
  induction h with
  | done => exact le_refl _
  | seen _ _ ih => exact ih
  | @judged item _ lane _ _ _ accepted new _ _ ih =>
    cases accepted with
    | true =>
      change rule.advance lane.mark (rule.seq item) ≤ _ at ih
      rw [rises _ _ new] at ih
      exact new.le.trans ih
    | false => exact ih

theorem Sweep.mark_lt (rises : rule.Rises) (h : rule.Sweep items lane s judged out) {n : Int}
    (refused : n ∈ out.rejected) : n ∈ lane.rejected ∨ lane.mark < n := by
  induction h with
  | done => exact .inl refused
  | seen _ _ ih => exact ih refused
  | @judged item _ lane _ _ _ accepted new _ _ ih =>
    have later := ih refused
    cases accepted with
    | true =>
      apply later.imp_right
      intro past
      change rule.advance lane.mark (rule.seq item) < n at past
      rw [rises _ _ new] at past
      exact new.trans past
    | false =>
      cases later with
      | inl mem =>
        cases List.mem_append.mp mem with
        | inl mem => exact .inl mem
        | inr mem =>
          cases List.mem_singleton.mp mem
          exact .inr new
      | inr past => exact .inr past

theorem Sweep.holds_iff (rises : rule.Rises) (judges : rule.Judges admits)
    (h : rule.Sweep items lane s judged out)
    (sorted : items.Pairwise fun a b => rule.seq a ≤ rule.seq b)
    (behind : ∀ n ∈ lane.rejected, ∀ item ∈ items, n ≤ rule.seq item) :
    (∀ n ∈ out.rejected, out.mark < n) ↔
      (∀ n ∈ lane.rejected, lane.mark < n) ∧
      (lane.rejected ≠ [] → ∀ x ∈ judged, admits x.1 x.2 = false) ∧
      judged.Pairwise fun x y => admits x.1 x.2 = false → admits y.1 y.2 = false := by
  induction h with
  | done => simp
  | seen _ _ ih =>
    exact ih sorted.of_cons fun n mem item rest => behind n mem item (List.mem_cons_of_mem _ rest)
  | @judged item rest lane s _ _ accepted new verdict _ ih =>
    rw [List.pairwise_cons] at sorted
    have verdict := judges item s accepted verdict
    have behind_rest : ∀ n ∈ lane.rejected, ∀ other ∈ rest, n ≤ rule.seq other :=
      fun n mem other hrest => behind n mem other (List.mem_cons_of_mem _ hrest)
    cases accepted with
    | true =>
      rw [ih sorted.2 behind_rest]
      change (∀ n ∈ lane.rejected, rule.advance lane.mark (rule.seq item) < n) ∧
        (lane.rejected ≠ [] → _) ∧ _ ↔ _
      rw [rises _ _ new]
      constructor
      · rintro ⟨past, _, pairs⟩
        have empty : lane.rejected = [] := List.eq_nil_iff_forall_not_mem.mpr fun n mem =>
          absurd (past n mem) (not_lt.mpr (behind n mem item List.mem_cons_self))
        rw [empty]
        refine ⟨nofun, fun held => absurd rfl held, List.pairwise_cons.mpr ⟨?_, pairs⟩⟩
        intro y _ refused
        cases verdict.symm.trans refused
      · rintro ⟨_, admits_none, pairs⟩
        have empty : lane.rejected = [] :=
          not_not.mp fun held => nomatch verdict.symm.trans (admits_none held _ List.mem_cons_self)
        rw [empty]
        exact ⟨nofun, fun held => absurd rfl held, pairs.of_cons⟩
    | false =>
      have behind_rest : ∀ n ∈ lane.rejected ++ [rule.seq item], ∀ other ∈ rest,
          n ≤ rule.seq other := by
        intro n mem other hrest
        cases List.mem_append.mp mem with
        | inl mem => exact behind_rest n mem other hrest
        | inr mem =>
          cases List.mem_singleton.mp mem
          exact sorted.1 other hrest
      rw [ih sorted.2 behind_rest]
      constructor
      · rintro ⟨past, admits_none, pairs⟩
        have admits_none :=
          admits_none (List.append_ne_nil_of_right_ne_nil _ (List.cons_ne_nil _ _))
        refine ⟨fun n mem => past n (List.mem_append_left _ mem), fun _ x mem => ?_,
          List.pairwise_cons.mpr ⟨fun y mem _ => admits_none y mem, pairs⟩⟩
        cases mem with
        | head => exact verdict
        | tail _ mem => exact admits_none x mem
      · rintro ⟨past, _, pairs⟩
        obtain ⟨first, pairs⟩ := List.pairwise_cons.mp pairs
        refine ⟨fun n mem => ?_, fun _ y mem => first y mem verdict, pairs⟩
        cases List.mem_append.mp mem with
        | inl mem => exact past n mem
        | inr mem =>
          cases List.mem_singleton.mp mem
          exact new

theorem Sweep.stays_past (rises : rule.Rises) (judges : rule.Judges admits)
    (h : rule.Sweep items lane s judged out) {n : Int}
    (admitted : ∀ x ∈ judged, admits x.1 x.2 = true → rule.seq x.1 < n) (mark : lane.mark < n)
    (fresh : n ∉ lane.alreadyApplied) : out.mark < n ∧ n ∉ out.alreadyApplied := by
  induction h with
  | done => exact ⟨mark, fresh⟩
  | @seen item _ lane _ _ _ old _ ih =>
    apply ih admitted mark
    intro mem
    cases List.mem_append.mp mem with
    | inl mem => exact fresh mem
    | inr mem =>
      cases List.mem_singleton.mp mem
      exact absurd mark (not_lt.mpr old)
  | @judged item _ lane s _ _ accepted new verdict _ ih =>
    have rest := fun x mem => admitted x (List.mem_cons_of_mem _ mem)
    cases accepted with
    | true =>
      apply ih rest _ fresh
      change rule.advance lane.mark (rule.seq item) < n
      rw [rises _ _ new]
      exact admitted _ List.mem_cons_self (judges item s true verdict)
    | false => exact ih rest mark fresh

theorem push_mark_le (rises : rule.Rises) {mark : Int}
    (h : answer (rule.push items mark) s = .ok out) :
    mark ≤ out.mark :=
  (sweep_of_answer h).mark_le rises

theorem push_mark_lt (rises : rule.Rises) {mark : Int}
    (h : answer (rule.push items mark) s = .ok out)
    {n : Int} (refused : n ∈ out.rejected) : mark < n :=
  ((sweep_of_answer h).mark_lt rises refused).resolve_left List.not_mem_nil

theorem push_holds_iff (rises : rule.Rises) (judges : rule.Judges admits) {mark : Int}
    (h : answer (rule.push items mark) s = .ok out) :
    (∀ n ∈ out.rejected, out.mark < n) ↔ (rule.pushReached items mark s).Pairwise
      fun x y => admits x.1 x.2 = false → admits y.1 y.2 = false := by
  rw [(sweep_of_answer h).holds_iff rises judges (rule.pairwise_sorted items) nofun]
  constructor
  · exact fun holds => holds.2.2
  · exact fun pairs => ⟨nofun, fun held => absurd rfl held, pairs⟩

theorem push_stays_past (rises : rule.Rises) (judges : rule.Judges admits) {mark n : Int}
    (h : answer (rule.push items mark) s = .ok out)
    (admitted : ∀ x ∈ rule.pushReached items mark s, admits x.1 x.2 = true → rule.seq x.1 < n)
    (past : mark < n) : out.mark < n ∧ n ∉ out.alreadyApplied :=
  (sweep_of_answer h).stays_past rises judges admitted past List.not_mem_nil

end Marks

end BlizzardMock.Lane.Rule
