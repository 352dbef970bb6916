import Mathlib.Order.Defs.Unbundled

/-! Methods of a mutable object: they answer or raise, and what they wrote before a raise stays
written.  `after` and `answer` compute a method's two halves; `Keeps` and `Respects` are the frame
and the congruence rules. -/

universe u v w

namespace BlizzardMock.Method

variable {ε σ α β : Type u}

def after (m : EStateM ε σ α) (s : σ) : σ :=
  match m.run s with
  | .ok _ t => t
  | .error _ t => t

def answer (m : EStateM ε σ α) (s : σ) : Except ε α :=
  match m.run s with
  | .ok a _ => .ok a
  | .error e _ => .error e

def read (f : σ → α) : EStateM ε σ α := fun s => .ok (f s) s

def write (f : σ → σ) : EStateM ε σ PUnit := fun s => .ok ⟨⟩ (f s)

def raise (e : ε) : EStateM ε σ α := fun s => .error e s

def settle : Except ε α → EStateM ε σ α
  | .ok a => pure a
  | .error e => raise e

def refuseIf (c : Prop) [Decidable c] (e : ε) : EStateM ε σ PUnit :=
  if c then raise e else pure ⟨⟩

def orRaise (e : ε) : Option α → EStateM ε σ α
  | some a => pure a
  | none => raise e

def whenSome (f : α → EStateM ε σ PUnit) : Option α → EStateM ε σ PUnit
  | some a => f a
  | none => pure ⟨⟩

/-- `f` at each item in turn, keeping what it answers. -/
def collect (f : α → EStateM ε σ (Option β)) : List α → EStateM ε σ (List β)
  | [] => pure []
  | a :: rest => do
    let b ← f a
    let bs ← collect f rest
    return b.toList ++ bs

def rethrow (f : ε → ε) (m : EStateM ε σ α) : EStateM ε σ α := fun s =>
  match m.run s with
  | .ok a t => .ok a t
  | .error e t => .error (f e) t

/-- `try: m except e: a`, where `f` answers `a` for the errors it handles. -/
def rescue (f : ε → Option α) (m : EStateM ε σ α) : EStateM ε σ α := fun s =>
  match m.run s with
  | .ok a t => .ok a t
  | .error e t => match f e with
    | some a => .ok a t
    | none => .error e t

/-- `try: m except e: ..`: what `m` answers or raises, told. -/
def attempt (m : EStateM ε σ α) : EStateM ε σ (Except ε α) := fun s => .ok (answer m s) (after m s)

theorem except_bind_ok {r : Except ε α} {f : α → Except ε β} {b : β} (h : r >>= f = .ok b) :
    ∃ a, r = .ok a ∧ f a = .ok b := by
  cases r with
  | ok a => exact ⟨a, rfl, h⟩
  | error e => cases h

theorem except_bind_ok_iff {r : Except ε α} {f : α → Except ε β} {b : β} :
    r >>= f = .ok b ↔ ∃ a, r = .ok a ∧ f a = .ok b :=
  ⟨except_bind_ok, by rintro ⟨a, rfl, h⟩; exact h⟩

theorem run_eq (m : EStateM ε σ α) (s : σ) :
    m.run s = match answer m s with
      | .ok a => .ok a (after m s)
      | .error e => .error e (after m s) := by
  simp only [answer, after]
  cases m.run s <;> rfl

theorem after_of_run {m k : EStateM ε σ α} {s t : σ} (h : m.run s = k.run t) :
    after m s = after k t := by
  rw [after, h, after]

theorem answer_of_run {m k : EStateM ε σ α} {s t : σ} (h : m.run s = k.run t) :
    answer m s = answer k t := by
  rw [answer, h, answer]

theorem after_of_run_ok {m : EStateM ε σ α} {s t : σ} {a : α} (h : m.run s = .ok a t) :
    after m s = t := by
  rw [after, h]

theorem answer_of_run_ok {m : EStateM ε σ α} {s t : σ} {a : α} (h : m.run s = .ok a t) :
    answer m s = .ok a := by
  rw [answer, h]

theorem run_bind_of_run {m : EStateM ε σ α} {g : α → EStateM ε σ β} {s t : σ} {a : α}
    (h : m.run s = .ok a t) : (m >>= g).run s = (g a).run t := by
  rw [EStateM.run_bind, h]

theorem run_map_of_ok {m : EStateM ε σ α} {s t : σ} {a : α} (h : m.run s = .ok a t) (f : α → β) :
    (f <$> m).run s = .ok (f a) t := by
  rw [map_eq_pure_bind, run_bind_of_run h]
  rfl

theorem run_map_of_error {m : EStateM ε σ α} {s t : σ} {e : ε}
    (h : m.run s = .error e t) (f : α → β) :
    (f <$> m).run s = .error e t := by
  rw [map_eq_pure_bind, EStateM.run_bind, h]

theorem run_read_bind {f : σ → α} {g : α → EStateM ε σ β} {s : σ} :
    (read f >>= g).run s = (g (f s)).run s := rfl

theorem run_write_bind {f : σ → σ} {g : PUnit → EStateM ε σ β} {s : σ} :
    (write f >>= g).run s = (g ⟨⟩).run (f s) := rfl

theorem run_whenSome_none {f : α → EStateM ε σ PUnit} {g : PUnit → EStateM ε σ β} {s : σ} :
    (whenSome f none >>= g).run s = (g ⟨⟩).run s := rfl

theorem run_settle_ok {a : α} {g : α → EStateM ε σ β} {s : σ} :
    (settle (.ok a) >>= g).run s = (g a).run s := rfl

theorem run_refuseIf {c : Prop} [Decidable c] {e : ε} {g : PUnit → EStateM ε σ β} {s : σ}
    (h : ¬ c) : (refuseIf c e >>= g).run s = (g ⟨⟩).run s := by
  apply run_bind_of_run
  rw [refuseIf, if_neg h]
  rfl

section Running

variable (s : σ)

@[simp] theorem after_pure (a : α) : after (pure a : EStateM ε σ α) s = s := rfl
@[simp] theorem after_read (f : σ → α) : after (read f : EStateM ε σ α) s = s := rfl
@[simp] theorem after_write (f : σ → σ) : after (write f : EStateM ε σ PUnit) s = f s := rfl
@[simp] theorem after_raise (e : ε) : after (raise e : EStateM ε σ α) s = s := rfl

@[simp] theorem answer_pure (a : α) : answer (pure a : EStateM ε σ α) s = .ok a := rfl
@[simp] theorem answer_read (f : σ → α) : answer (read f : EStateM ε σ α) s = .ok (f s) := rfl
@[simp] theorem answer_write (f : σ → σ) : answer (write f : EStateM ε σ PUnit) s = .ok ⟨⟩ := rfl
@[simp] theorem answer_raise (e : ε) : answer (raise e : EStateM ε σ α) s = .error e := rfl

theorem after_bind (m : EStateM ε σ α) (f : α → EStateM ε σ β) :
    after (m >>= f) s = match answer m s with
      | .ok a => after (f a) (after m s)
      | .error _ => after m s := by
  simp only [after, answer, EStateM.run_bind]
  cases m.run s <;> rfl

theorem after_bind_of_ok {m : EStateM ε σ α} {a : α} (h : answer m s = .ok a)
    (f : α → EStateM ε σ β) : after (m >>= f) s = after (f a) (after m s) := by
  rw [after_bind, h]

theorem after_bind_of_error {m : EStateM ε σ α} {e : ε} (h : answer m s = .error e)
    (f : α → EStateM ε σ β) : after (m >>= f) s = after m s := by
  rw [after_bind, h]

theorem answer_bind_of_ok {m : EStateM ε σ α} {a : α} (h : answer m s = .ok a)
    (f : α → EStateM ε σ β) : answer (m >>= f) s = answer (f a) (after m s) := by
  simp only [answer, after] at h ⊢
  rw [EStateM.run_bind]
  cases run : m.run s with
  | ok b t =>
    rw [run] at h
    cases h
    rfl
  | error e t =>
    rw [run] at h
    cases h

theorem answer_bind_of_error {m : EStateM ε σ α} {e : ε} (h : answer m s = .error e)
    (f : α → EStateM ε σ β) : answer (m >>= f) s = .error e := by
  simp only [answer] at h ⊢
  rw [EStateM.run_bind]
  cases run : m.run s with
  | ok b t =>
    rw [run] at h
    cases h
  | error e' t =>
    rw [run] at h
    cases h
    rfl

@[simp] theorem after_bind_pure (m : EStateM ε σ α) (g : α → β) :
    after (m >>= fun a => pure (g a)) s = after m s := by
  rw [after_bind]
  cases answer m s <;> rfl

theorem answer_bind (m : EStateM ε σ α) (f : α → EStateM ε σ β) :
    answer (m >>= f) s = match answer m s with
      | .ok a => answer (f a) (after m s)
      | .error e => .error e := by
  simp only [after, answer, EStateM.run_bind]
  cases m.run s <;> rfl

variable {s} in
theorem answer_bind_ok {m : EStateM ε σ α} {f : α → EStateM ε σ β} {b : β}
    (h : answer (m >>= f) s = .ok b) :
    ∃ a, answer m s = .ok a ∧ answer (f a) (after m s) = .ok b := by
  rw [answer_bind] at h
  cases hm : answer m s with
  | ok a => exact ⟨a, rfl, by rwa [hm] at h⟩
  | error e => rw [hm] at h; cases h

@[simp] theorem after_map (g : α → β) (m : EStateM ε σ α) : after (g <$> m) s = after m s := by
  simp only [after, Functor.map, EStateM.map, EStateM.run]
  cases m s <;> rfl

@[simp] theorem answer_map (g : α → β) (m : EStateM ε σ α) :
    answer (g <$> m) s = (answer m s).map g := by
  simp only [answer, Functor.map, EStateM.map, EStateM.run]
  cases m s <;> rfl

@[simp] theorem after_ite (c : Prop) [Decidable c] (m n : EStateM ε σ α) :
    after (if c then m else n) s = if c then after m s else after n s := by
  split <;> rfl

@[simp] theorem answer_ite (c : Prop) [Decidable c] (m n : EStateM ε σ α) :
    answer (if c then m else n) s = if c then answer m s else answer n s := by
  split <;> rfl

@[simp] theorem after_settle (r : Except ε α) : after (settle r : EStateM ε σ α) s = s := by
  cases r <;> rfl

@[simp] theorem answer_settle (r : Except ε α) : answer (settle r : EStateM ε σ α) s = r := by
  cases r <;> rfl

@[simp] theorem after_refuseIf (c : Prop) [Decidable c] (e : ε) :
    after (refuseIf c e : EStateM ε σ PUnit) s = s := by
  simp [refuseIf]

@[simp] theorem answer_refuseIf (c : Prop) [Decidable c] (e : ε) :
    answer (refuseIf c e : EStateM ε σ PUnit) s = if c then .error e else .ok ⟨⟩ := by
  simp [refuseIf]

@[simp] theorem after_orRaise (e : ε) (o : Option α) :
    after (orRaise e o : EStateM ε σ α) s = s := by
  cases o <;> rfl

@[simp] theorem answer_orRaise (e : ε) (o : Option α) :
    answer (orRaise e o : EStateM ε σ α) s = o.elim (.error e) .ok := by
  cases o <;> rfl

theorem orRaise_ok {e : ε} {o : Option α} {a : α} {s : σ} :
    answer (orRaise e o) s = .ok a ↔ o = some a := by
  cases o <;> simp [orRaise]

theorem error_of_orRaise {e e' : ε} {o : Option α} {s : σ}
    (h : answer (orRaise e o) s = .error e') :
    e' = e := by
  cases o with
  | none => exact (Except.error.inj h).symm
  | some a => cases h

theorem error_of_refuseIf {c : Prop} [Decidable c] {e e' : ε} {s : σ}
    (h : answer (refuseIf c e : EStateM ε σ PUnit) s = .error e') : e' = e := by
  by_cases hc : c
  · rw [answer_refuseIf, if_pos hc] at h
    exact (Except.error.inj h).symm
  · rw [answer_refuseIf, if_neg hc] at h
    cases h

theorem refuseIf_ok {c : Prop} [Decidable c] {e : ε} {s : σ} :
    answer (refuseIf c e : EStateM ε σ PUnit) s = .ok ⟨⟩ ↔ ¬ c := by
  by_cases h : c <;> simp [h]

@[simp] theorem after_rethrow (f : ε → ε) (m : EStateM ε σ α) :
    after (rethrow f m) s = after m s := by
  simp only [after, rethrow, EStateM.run]
  cases m s <;> rfl

@[simp] theorem answer_rethrow (f : ε → ε) (m : EStateM ε σ α) :
    answer (rethrow f m) s = (answer m s).mapError f := by
  simp only [answer, rethrow, EStateM.run]
  cases m s <;> rfl

@[simp] theorem after_rescue (f : ε → Option α) (m : EStateM ε σ α) :
    after (rescue f m) s = after m s := by
  simp only [after, rescue, EStateM.run]
  cases m s with
  | ok a t => rfl
  | error e t =>
    dsimp only
    cases f e <;> rfl

theorem answer_rescue (f : ε → Option α) (m : EStateM ε σ α) :
    answer (rescue f m) s = match answer m s with
      | .ok a => .ok a
      | .error e => (f e).elim (.error e) .ok := by
  simp only [answer, rescue, EStateM.run]
  cases m s with
  | ok a t => rfl
  | error e t =>
    dsimp only
    cases f e <;> rfl

@[simp] theorem after_attempt (m : EStateM ε σ α) : after (attempt m) s = after m s := rfl

@[simp] theorem answer_attempt (m : EStateM ε σ α) : answer (attempt m) s = .ok (answer m s) := rfl

end Running

/-- `a` is what `m` answers of `s`, where it does not raise. -/
def Yields (m : EStateM ε σ α) (s : σ) (a : α) : Prop := ∀ b, answer m s = .ok b → a = b

section Yields

variable {s : σ}

theorem yields_pure (a : α) : Yields (pure a : EStateM ε σ α) s a := by
  intro b h
  cases h
  rfl

theorem yields_bind {m : EStateM ε σ α} {f : α → EStateM ε σ β} {b : β}
    (h : ∀ a, answer m s = .ok a → Yields (f a) (after m s) b) : Yields (m >>= f) s b := by
  intro c hc
  obtain ⟨a, hm, hf⟩ := answer_bind_ok hc
  exact h a hm c hf

theorem yields_read {f : σ → α} {g : α → EStateM ε σ β} {b : β} (h : Yields (g (f s)) s b) :
    Yields (read f >>= g) s b :=
  yields_bind fun a found => by
    cases found
    exact h

theorem yields_settle {r : Except ε α} {g : α → EStateM ε σ β} {b : β}
    (h : ∀ a, r = .ok a → Yields (g a) s b) : Yields (settle r >>= g) s b :=
  yields_bind fun a settled => by
    rw [answer_settle] at settled
    rw [after_settle]
    exact h a settled

theorem yields_last {m : EStateM ε σ α} {b : β} : Yields (m >>= fun _ => pure b) s b :=
  yields_bind fun _ _ => yields_pure b

theorem Yields.ite {c : Prop} [Decidable c] {m n : EStateM ε σ α} {a b : α} (hm : Yields m s a)
    (hn : Yields n s b) : Yields (if c then m else n) s (if c then a else b) := by
  split
  · exact hm
  · exact hn

end Yields

/-- `b` is whether `m` answers of `s`, and does not raise. -/
def Lands (m : EStateM ε σ α) (s : σ) (b : Bool) : Prop := (answer m s).isOk = b

section Lands

variable {s : σ}

theorem lands_pure (a : α) : Lands (pure a : EStateM ε σ α) s true := rfl

theorem lands_read {f : σ → α} {g : α → EStateM ε σ β} {b : Bool} (h : Lands (g (f s)) s b) :
    Lands (read f >>= g) s b := h

theorem lands_write {f : σ → σ} {g : PUnit → EStateM ε σ β} {b : Bool}
    (h : Lands (g ⟨⟩) (f s) b) : Lands (write f >>= g) s b := h

theorem lands_settled (r : Except ε α) : Lands (settle r : EStateM ε σ α) s r.isOk := by
  cases r with
  | ok a => rfl
  | error e => rfl

theorem lands_settle {r : Except ε α} {g : α → EStateM ε σ β} {b : Bool}
    (h : ∀ a, r = .ok a → Lands (g a) s b) : Lands (settle r >>= g) s (r.isOk && b) := by
  cases r with
  | ok a => exact h a rfl
  | error e => rfl

theorem Lands.bind {m : EStateM ε σ α} {g : α → EStateM ε σ β} {b : Bool} (h : Lands m s b)
    (hg : ∀ a t, Lands (g a) t true) : Lands (m >>= g) s b := by
  rw [Lands, answer_bind, ← h]
  cases answer m s with
  | ok a => exact hg a _
  | error e => rfl

theorem Lands.ite {c : Prop} [Decidable c] {m n : EStateM ε σ α} {a b : Bool} (hm : Lands m s a)
    (hn : Lands n s b) : Lands (if c then m else n) s (if c then a else b) := by
  split
  · exact hm
  · exact hn

end Lands

/-- `m` leaves what `f` shows of the object as it was, also when it raises.  A class, so that the
frame of a method is found from the frames of its parts. -/
class Keeps {γ : Type v} (f : σ → γ) (m : EStateM ε σ α) : Prop where
  keeps : ∀ s, f (after m s) = f s

section Keeps

variable {γ : Type v} {f : σ → γ}

instance (a : α) : Keeps f (pure a : EStateM ε σ α) := ⟨fun _ => rfl⟩
instance (g : σ → α) : Keeps f (read g : EStateM ε σ α) := ⟨fun _ => rfl⟩
instance (e : ε) : Keeps f (raise e : EStateM ε σ α) := ⟨fun _ => rfl⟩

instance Keeps.bind (m : EStateM ε σ α) (g : α → EStateM ε σ β) [hm : Keeps f m]
    [hg : ∀ a, Keeps f (g a)] : Keeps f (m >>= g) where
  keeps s := by
    rw [after_bind]
    cases answer m s with
    | ok a => exact ((hg a).keeps _).trans (hm.keeps s)
    | error e => exact hm.keeps s

theorem Keeps.andThen {m : EStateM ε σ α} {g : α → EStateM ε σ β} (hm : Keeps f m)
    (hg : ∀ a, Keeps f (g a)) : Keeps f (m >>= g) :=
  Keeps.bind m g

instance (g : α → β) (m : EStateM ε σ α) [hm : Keeps f m] : Keeps f (g <$> m) where
  keeps s := by
    rw [after_map]
    exact hm.keeps s

instance (c : Prop) [Decidable c] (m n : EStateM ε σ α) [hm : Keeps f m] [hn : Keeps f n] :
    Keeps f (if c then m else n) := by
  split
  · exact hm
  · exact hn

instance (r : Except ε α) : Keeps f (settle r : EStateM ε σ α) :=
  ⟨fun s => by rw [after_settle]⟩

instance (c : Prop) [Decidable c] (e : ε) : Keeps f (refuseIf c e : EStateM ε σ PUnit) :=
  ⟨fun s => by rw [after_refuseIf]⟩

instance (e : ε) (o : Option α) : Keeps f (orRaise e o : EStateM ε σ α) :=
  ⟨fun s => by rw [after_orRaise]⟩

instance (g : α → EStateM ε σ PUnit) (o : Option α) [h : ∀ a, Keeps f (g a)] :
    Keeps f (whenSome g o) := by
  cases o with
  | none => exact inferInstanceAs (Keeps f (pure ⟨⟩ : EStateM ε σ PUnit))
  | some a => exact h a

instance (g : ε → ε) (m : EStateM ε σ α) [hm : Keeps f m] : Keeps f (rethrow g m) where
  keeps s := by
    rw [after_rethrow]
    exact hm.keeps s

instance (g : ε → Option α) (m : EStateM ε σ α) [hm : Keeps f m] : Keeps f (rescue g m) where
  keeps s := by
    rw [after_rescue]
    exact hm.keeps s

instance (m : EStateM ε σ α) [hm : Keeps f m] : Keeps f (attempt m) := ⟨hm.keeps⟩

instance (g : α → EStateM ε σ (Option β)) [h : ∀ a, Keeps f (g a)] (l : List α) :
    Keeps f (collect g l) := by
  induction l with
  | nil => exact inferInstanceAs (Keeps f (pure []))
  | cons a rest ih => exact Keeps.bind _ _

omit f in
theorem run_collect_map {γ : Type u} {P : σ → Prop} {m : α → EStateM ε σ (Option β)}
    {k : α → EStateM ε σ (Option γ)} {h : γ → β}
    (same : ∀ a s, P s → (m a).run s = (Option.map h <$> k a).run s)
    (kept : ∀ a s, P s → P (after (k a) s))
    (l : List α) {s : σ} (holds : P s) : (collect m l).run s =
      (List.map h <$> collect k l).run s := by
  induction l generalizing s with
  | nil => rfl
  | cons a rest ih =>
    have first := same a s holds
    have later := kept a s holds
    simp only [collect, map_bind, map_pure]
    cases turn : (k a).run s with
    | error e t =>
      rw [run_map_of_error turn] at first
      rw [EStateM.run_bind, EStateM.run_bind, first, turn]
    | ok c t =>
      rw [run_map_of_ok turn] at first
      rw [after_of_run_ok turn] at later
      have others := ih later
      rw [run_bind_of_run first, run_bind_of_run turn]
      cases tail : (collect k rest).run t with
      | error e u =>
        rw [run_map_of_error tail] at others
        rw [EStateM.run_bind, EStateM.run_bind, others, tail]
      | ok cs u =>
        rw [run_map_of_ok tail] at others
        rw [run_bind_of_run others, run_bind_of_run tail]
        cases c <;> rfl

omit f in
theorem outcome_bind {m : EStateM ε σ α} {g : α → EStateM ε σ β} {s : σ} {P : Except ε β → σ → Prop}
    (stopped : ∀ e, answer m s = .error e → P (.error e) (after m s))
    (continued : ∀ a, answer m s = .ok a → P (answer (g a) (after m s)) (after (g a) (after m s))) :
    P (answer (m >>= g) s) (after (m >>= g) s) := by
  rw [after_bind, answer_bind]
  cases h : answer m s with
  | ok a => exact continued a h
  | error e => exact stopped e h

theorem outcome_bind_of_keeps {m : EStateM ε σ α} {g : α → EStateM ε σ β} [hm : Keeps f m] {s o : σ}
    {P : Except ε β → σ → Prop} (same : f s = f o) (stopped : ∀ e t, f t = f o → P (.error e) t)
    (continued : ∀ a t, answer m s = .ok a → f t = f o → P (answer (g a) t) (after (g a) t)) :
    P (answer (m >>= g) s) (after (m >>= g) s) :=
  have kept := (hm.keeps s).trans same
  outcome_bind (fun e _ => stopped e _ kept) fun a h => continued a _ h kept

theorem answer_bind_of_keeps {m : EStateM ε σ α} {g : α → EStateM ε σ β} [hm : Keeps f m] {s o : σ}
    {b : β} (same : f s = f o) (h : answer (m >>= g) s = .ok b) :
    ∃ a t, answer m s = .ok a ∧ f t = f o ∧ answer (g a) t = .ok b := by
  obtain ⟨a, answered, continued⟩ := answer_bind_ok h
  exact ⟨a, after m s, answered, (hm.keeps s).trans same, continued⟩

theorem after_bind_of_keeps {m : EStateM ε σ α} {g : α → EStateM ε σ β} [Keeps f m] {s o : σ}
    {P : σ → Prop} (same : f s = f o) (stopped : ∀ t, f t = f o → P t)
    (continued : ∀ a t, answer m s = .ok a → f t = f o → P (after (g a) t)) :
    P (after (m >>= g) s) :=
  outcome_bind_of_keeps (P := fun _ t => P t) same (fun _ => stopped) continued

theorem run_bind_of_read {m : EStateM ε σ α} {g : α → EStateM ε σ β} [hm : Keeps id m]
    {s : σ} {a : α}
    (h : answer m s = .ok a) : (m >>= g).run s = (g a).run s := by
  rw [EStateM.run_bind, run_eq m s, h]
  exact congrArg (g a) (hm.keeps s)

theorem answer_bind_ok_iff {m : EStateM ε σ α} {g : α → EStateM ε σ β} [hm : Keeps id m]
    {s : σ} {b : β} :
    answer (m >>= g) s = .ok b ↔ ∃ a, answer m s = .ok a ∧ answer (g a) s = .ok b := by
  have same : after m s = s := hm.keeps s
  rw [answer_bind, same]
  cases answer m s with
  | ok a => simp
  | error e => simp

theorem Keeps.comp {δ : Type w} (m : EStateM ε σ α) [h : Keeps f m] (g : γ → δ) :
    Keeps (fun s => g (f s)) m :=
  ⟨fun s => congrArg g (h.keeps s)⟩

end Keeps

class Follows (R : σ → σ → Prop) (m : EStateM ε σ α) : Prop where
  follows : ∀ s, R s (after m s)

section Follows

variable {R : σ → σ → Prop} [IsPreorder σ R]

instance (a : α) : Follows R (pure a : EStateM ε σ α) := ⟨refl_of R⟩
instance (g : σ → α) : Follows R (read g : EStateM ε σ α) := ⟨refl_of R⟩
instance (e : ε) : Follows R (raise e : EStateM ε σ α) := ⟨refl_of R⟩

instance Follows.bind (m : EStateM ε σ α) (g : α → EStateM ε σ β) [hm : Follows R m]
    [hg : ∀ a, Follows R (g a)] : Follows R (m >>= g) where
  follows s := by
    rw [after_bind]
    cases answer m s with
    | ok a => exact trans_of R (hm.follows s) ((hg a).follows _)
    | error e => exact hm.follows s

theorem Follows.andThen {m : EStateM ε σ α} {g : α → EStateM ε σ β} (hm : Follows R m)
    (hg : ∀ a, Follows R (g a)) : Follows R (m >>= g) :=
  Follows.bind m g

omit [IsPreorder σ R] in
theorem Follows.of_keeps {γ : Type v} {f : σ → γ} {m : EStateM ε σ α} [hm : Keeps f m]
    (h : ∀ s t, f t = f s → R s t) : Follows R m :=
  ⟨fun s => h s _ (hm.keeps s)⟩

instance (c : Prop) [Decidable c] (m n : EStateM ε σ α) [hm : Follows R m] [hn : Follows R n] :
    Follows R (if c then m else n) := by
  split
  · exact hm
  · exact hn

instance (c : Prop) [Decidable c] (e : ε) : Follows R (refuseIf c e : EStateM ε σ PUnit) :=
  inferInstanceAs (Follows R (if c then raise e else pure ⟨⟩ : EStateM ε σ PUnit))

instance (r : Except ε α) : Follows R (settle r : EStateM ε σ α) := by
  cases r with
  | ok a => exact inferInstanceAs (Follows R (pure a))
  | error e => exact inferInstanceAs (Follows R (raise e))

instance (e : ε) (o : Option α) : Follows R (orRaise e o : EStateM ε σ α) := by
  cases o with
  | none => exact inferInstanceAs (Follows R (raise e))
  | some a => exact inferInstanceAs (Follows R (pure a))

omit [IsPreorder σ R] in
instance (g : α → β) (m : EStateM ε σ α) [hm : Follows R m] : Follows R (g <$> m) where
  follows s := by
    rw [after_map]
    exact hm.follows s

instance (g : α → EStateM ε σ PUnit) (o : Option α) [h : ∀ a, Follows R (g a)] :
    Follows R (whenSome g o) := by
  cases o with
  | none => exact inferInstanceAs (Follows R (pure ⟨⟩ : EStateM ε σ PUnit))
  | some a => exact h a

instance (g : ε → ε) (m : EStateM ε σ α) [hm : Follows R m] : Follows R (rethrow g m) where
  follows s := by
    rw [after_rethrow]
    exact hm.follows s

omit [IsPreorder σ R] in
instance (m : EStateM ε σ α) [hm : Follows R m] : Follows R (attempt m) := ⟨hm.follows⟩

instance (g : α → EStateM ε σ (Option β)) [h : ∀ a, Follows R (g a)] (l : List α) :
    Follows R (collect g l) := by
  induction l with
  | nil => exact inferInstanceAs (Follows R (pure []))
  | cons a rest ih => exact Follows.bind _ _

omit [IsPreorder σ R] in
theorem outcome_bind_of_follows [IsTrans σ R] {m : EStateM ε σ α} {g : α → EStateM ε σ β}
    [hm : Follows R m] {s o : σ} {P : Except ε β → σ → Prop} (reached : R o s)
    (stopped : ∀ e t, answer m s = .error e → R o t → P (.error e) t)
    (continued : ∀ a t, answer m s = .ok a → R o t → P (answer (g a) t) (after (g a) t)) :
    P (answer (m >>= g) s) (after (m >>= g) s) :=
  have further := trans_of R reached (hm.follows s)
  outcome_bind (fun e raised => stopped e _ raised further) fun a answered =>
    continued a _ answered further

end Follows

def Along (I : σ → Prop) (R : σ → σ → Prop) (s t : σ) : Prop := I s → I t ∧ R s t

section Along

variable {I : σ → Prop} {R : σ → σ → Prop} [IsPreorder σ R]

instance : IsPreorder σ (Along I R) where
  refl s held := ⟨held, refl_of R s⟩
  trans _ _ _ first second held :=
    have mid := first held
    have last := second mid.1
    ⟨last.1, trans_of R mid.2 last.2⟩

theorem follows_of_answer {P : α → Prop} {m : EStateM ε σ α} {g : α → EStateM ε σ β}
    [hm : Follows (Along I R) m] (found : ∀ s a, I s → answer m s = .ok a → P a)
    (h : ∀ a, P a → Follows (Along I R) (g a)) : Follows (Along I R) (m >>= g) where
  follows s held := by
    rw [after_bind]
    cases answered : answer m s with
    | ok a =>
      have := h a (found s a held answered)
      exact trans_of (Along I R) (hm.follows s) (Follows.follows _) held
    | error e => exact hm.follows s held

end Along

/-- `m` leaves what `f` shows of the object as it was whenever it raises. -/
def Tidy {γ : Type v} (f : σ → γ) (m : EStateM ε σ α) : Prop :=
  ∀ s e, answer m s = .error e → f (after m s) = f s

section Tidy

variable {γ : Type v} {f : σ → γ}

theorem tidy_pure (a : α) : Tidy f (pure a : EStateM ε σ α) := fun _ _ _ => rfl

theorem tidy_bind {m : EStateM ε σ α} {g : α → EStateM ε σ β} [Keeps f m] (h : ∀ a, Tidy f (g a)) :
    Tidy f (m >>= g) := by
  intro s e raised
  rw [answer_bind] at raised
  rw [after_bind]
  have kept := Keeps.keeps (f := f) (m := m) s
  cases stepped : answer m s with
  | ok a =>
    rw [stepped] at raised
    exact (h a _ e raised).trans kept
  | error e' => exact kept

theorem tidy_write (g : σ → σ) (a : α) : Tidy f (write g >>= fun _ => pure a : EStateM ε σ α) := by
  intro s e raised
  cases raised

theorem tidy_of_lands {m : EStateM ε σ α} (h : ∀ s, Lands m s true) : Tidy f m := by
  intro s e raised
  have answered := h s
  rw [Lands, raised] at answered
  cases answered

theorem Tidy.ite {c : Prop} [Decidable c] {m n : EStateM ε σ α} (hm : Tidy f m) (hn : Tidy f n) :
    Tidy f (if c then m else n) := by
  split
  · exact hm
  · exact hn

end Tidy

/-- Two objects that `A` relates answer `m` alike, and `A` relates what it leaves of them. -/
class Respects (A : σ → σ → Prop) (m : EStateM ε σ α) : Prop where
  respects : ∀ s t, A s t → answer m s = answer m t ∧ A (after m s) (after m t)

section Respects

variable {A : σ → σ → Prop}

instance (a : α) : Respects A (pure a : EStateM ε σ α) := ⟨fun _ _ h => ⟨rfl, h⟩⟩
instance (e : ε) : Respects A (raise e : EStateM ε σ α) := ⟨fun _ _ h => ⟨rfl, h⟩⟩

theorem respects_read {f : σ → α} (hf : ∀ s t, A s t → f s = f t) :
    Respects A (read f : EStateM ε σ α) :=
  ⟨fun s t h => ⟨congrArg Except.ok (hf s t h), h⟩⟩

theorem respects_write {f : σ → σ} (hf : ∀ s t, A s t → A (f s) (f t)) :
    Respects A (write f : EStateM ε σ PUnit) :=
  ⟨fun s t h => ⟨rfl, hf s t h⟩⟩

instance Respects.bind (m : EStateM ε σ α) (g : α → EStateM ε σ β) [hm : Respects A m]
    [hg : ∀ a, Respects A (g a)] : Respects A (m >>= g) where
  respects s t h := by
    have hst := hm.respects s t h
    rw [answer_bind, answer_bind, after_bind, after_bind, hst.1]
    cases answer m t with
    | ok a => exact (hg a).respects _ _ hst.2
    | error e => exact ⟨rfl, hst.2⟩

theorem respects_bind_of_answer {m : EStateM ε σ α} {g : α → EStateM ε σ β} [hm : Respects A m]
    (hg : ∀ a s t, A s t → answer m s = .ok a → Respects A (g a)) : Respects A (m >>= g) where
  respects s t h := by
    have hst := hm.respects s t h
    rw [answer_bind, answer_bind, after_bind, after_bind, ← hst.1]
    cases answered : answer m s with
    | ok a => exact (hg a s t h answered).respects _ _ hst.2
    | error e => exact ⟨rfl, hst.2⟩

theorem Respects.andThen {m : EStateM ε σ α} {g : α → EStateM ε σ β} (hm : Respects A m)
    (hg : ∀ a, Respects A (g a)) : Respects A (m >>= g) :=
  Respects.bind m g

instance (g : α → β) (m : EStateM ε σ α) [hm : Respects A m] : Respects A (g <$> m) where
  respects s t h := by
    simp only [answer_map, after_map]
    have hst := hm.respects s t h
    exact ⟨congrArg _ hst.1, hst.2⟩

instance (c : Prop) [Decidable c] (m n : EStateM ε σ α) [hm : Respects A m] [hn : Respects A n] :
    Respects A (if c then m else n) := by
  split
  · exact hm
  · exact hn

instance (r : Except ε α) : Respects A (settle r : EStateM ε σ α) := by
  cases r with
  | ok a => exact inferInstanceAs (Respects A (pure a))
  | error e => exact inferInstanceAs (Respects A (raise e))

instance (c : Prop) [Decidable c] (e : ε) : Respects A (refuseIf c e : EStateM ε σ PUnit) :=
  inferInstanceAs (Respects A (if c then raise e else pure ⟨⟩ : EStateM ε σ PUnit))

instance (e : ε) (o : Option α) : Respects A (orRaise e o : EStateM ε σ α) := by
  cases o with
  | none => exact inferInstanceAs (Respects A (raise e))
  | some a => exact inferInstanceAs (Respects A (pure a))

instance (g : α → EStateM ε σ PUnit) (o : Option α) [h : ∀ a, Respects A (g a)] :
    Respects A (whenSome g o) := by
  cases o with
  | none => exact inferInstanceAs (Respects A (pure ⟨⟩ : EStateM ε σ PUnit))
  | some a => exact h a

instance (g : ε → ε) (m : EStateM ε σ α) [hm : Respects A m] : Respects A (rethrow g m) where
  respects s t h := by
    simp only [answer_rethrow, after_rethrow]
    have hst := hm.respects s t h
    exact ⟨congrArg _ hst.1, hst.2⟩

instance (g : α → EStateM ε σ (Option β)) [h : ∀ a, Respects A (g a)] (l : List α) :
    Respects A (collect g l) := by
  induction l with
  | nil => exact inferInstanceAs (Respects A (pure []))
  | cons a rest ih => exact Respects.bind _ _

end Respects

end BlizzardMock.Method
