import BlizzardMock.Data.Dict

universe u v

namespace BlizzardMock

structure Keyring (τ : Type u) (ω : Type v) where
  held : Dict τ ω := ∅
  spent : Dict τ ω := ∅

namespace Keyring

inductive Event (τ : Type u) (ω : Type v)
  | issued (token : τ) (owner : ω)
  | revoked (owner : ω)

section History

variable {τ : Type u} {ω : Type v}

def issuances : List (Event τ ω) → List τ
  | [] => []
  | .issued token _ :: rest => token :: issuances rest
  | .revoked _ :: rest => issuances rest

theorem mem_issuances {history : List (Event τ ω)} {token : τ} :
    token ∈ issuances history ↔ ∃ owner, .issued token owner ∈ history := by
  induction history with
  | nil => simp [issuances]
  | cons event rest ih =>
    cases event with
    | issued other owner =>
      simp only [issuances, List.mem_cons, ih, Event.issued.injEq]
      constructor
      · intro h
        cases h with
        | inl same => exact ⟨owner, .inl ⟨same, rfl⟩⟩
        | inr earlier => exact earlier.imp fun _ => .inr
      · rintro ⟨_, h⟩
        exact h.imp And.left fun h => ⟨_, h⟩
    | revoked owner => simp [issuances, ih]

theorem issuances_append (xs ys : List (Event τ ω)) :
    issuances (xs ++ ys) = issuances xs ++ issuances ys := by
  induction xs with
  | nil => rfl
  | cons event rest ih => cases event <;> simp [issuances, ih]

theorem owner_unique {history : List (Event τ ω)} (once : (issuances history).Nodup) {token : τ}
    {owner other : ω} (h : .issued token owner ∈ history) (h' : .issued token other ∈ history) :
    owner = other := by
  induction history with
  | nil => cases h
  | cons event rest ih =>
    cases event with
    | revoked _ =>
      simp only [List.mem_cons, reduceCtorEq, false_or] at h h'
      exact ih once h h'
    | issued first _ =>
      obtain ⟨fresh, once⟩ := List.nodup_cons.mp once
      have absent {o : ω} (h : .issued first o ∈ rest) : False := fresh (mem_issuances.mpr ⟨o, h⟩)
      simp only [List.mem_cons, Event.issued.injEq] at h h'
      rcases h with ⟨rfl, rfl⟩ | h <;> rcases h' with ⟨same, rfl⟩ | h'
      · rfl
      · exact (absent h').elim
      · rw [same] at h
        exact (absent h).elim
      · exact ih once h h'

variable [DecidableEq ω]

def current (owner : ω) : List (Event τ ω) → Option τ
  | [] => none
  | .issued token other :: rest => if other = owner then some token else current owner rest
  | .revoked other :: rest => if other = owner then none else current owner rest

theorem issued_of_current {history : List (Event τ ω)} {token : τ} {owner : ω}
    (h : current owner history = some token) : .issued token owner ∈ history := by
  induction history with
  | nil => cases h
  | cons event rest ih =>
    cases event with
    | issued other whom =>
      simp only [current] at h
      split at h
      case isTrue same =>
        cases h
        rw [same]
        exact List.mem_cons_self
      case isFalse => exact List.mem_cons_of_mem _ (ih h)
    | revoked whom =>
      simp only [current] at h
      split at h
      case isTrue => cases h
      case isFalse => exact List.mem_cons_of_mem _ (ih h)

end History

variable {τ : Type u} {ω : Type v} [DecidableEq τ] [DecidableEq ω] (ring : Keyring τ ω)

def grant (token : τ) (owner : ω) : Keyring τ ω := { ring with held := ring.held.set token owner }

def tokensOf (owner : ω) : List τ := (ring.held.entries.filter (·.2 = owner)).map Prod.fst

def retract (owner : ω) : Keyring τ ω where
  held := (ring.tokensOf owner).foldl Dict.erase ring.held
  spent := (ring.tokensOf owner).foldl (fun d t => d.set t owner) ring.spent

omit [DecidableEq ω] in
theorem get?_foldl_erase (tokens : List τ) (d : Dict τ ω) (token : τ) :
    (tokens.foldl Dict.erase d).get? token = if token ∈ tokens then none else d.get? token := by
  induction tokens generalizing d with
  | nil => simp
  | cons t rest ih =>
    rw [List.foldl_cons, ih, Dict.get?_erase]
    by_cases same : token = t <;> simp [same]

omit [DecidableEq ω] in
theorem get?_foldl_set (tokens : List τ) (owner : ω) (d : Dict τ ω) (token : τ) :
    (tokens.foldl (fun d t => d.set t owner) d).get? token =
      if token ∈ tokens then some owner else d.get? token := by
  induction tokens generalizing d with
  | nil => simp
  | cons t rest ih =>
    rw [List.foldl_cons, ih, Dict.get?_set]
    by_cases same : token = t <;> simp [same]

variable {ring}

theorem mem_tokensOf {token : τ} {owner : ω} :
    token ∈ ring.tokensOf owner ↔ ring.held.get? token = some owner := by
  simp only [tokensOf, List.mem_map, List.mem_filter, decide_eq_true_eq, ← Dict.mem_entries]
  constructor
  · rintro ⟨⟨t, o⟩, ⟨mem, owned⟩, same⟩
    cases owned
    cases same
    exact mem
  · intro mem
    exact ⟨(token, owner), ⟨mem, rfl⟩, rfl⟩

theorem held_retract (owner : ω) (token : τ) : (ring.retract owner).held.get? token =
    if ring.held.get? token = some owner then none else ring.held.get? token := by
  simp only [retract, get?_foldl_erase, mem_tokensOf]

theorem spent_retract (owner : ω) (token : τ) : (ring.retract owner).spent.get? token =
    if ring.held.get? token = some owner then some owner else ring.spent.get? token := by
  simp only [retract, get?_foldl_set, mem_tokensOf]

structure Recalls (ring : Keyring τ ω) (history : List (Event τ ω)) : Prop where
  held (token : τ) (owner : ω) :
    ring.held.get? token = some owner ↔ current owner history = some token
  spent (token : τ) (owner : ω) : ring.spent.get? token = some owner ↔
    .issued token owner ∈ history ∧ current owner history ≠ some token

theorem recalls_empty : Recalls ({} : Keyring τ ω) [] where
  held _ _ := by simp [current]
  spent _ _ := by simp

variable {history : List (Event τ ω)}

theorem Recalls.grant (recalls : ring.Recalls history) {token : τ} {owner : ω}
    (fresh : token ∉ issuances history) (bare : current owner history = none) :
    (ring.grant token owner).Recalls (.issued token owner :: history) where
  held t o := by
    simp only [Keyring.grant, Dict.get?_set, current]
    by_cases same : t = token
    · have unissued : current o history ≠ some token := fun h =>
        fresh (mem_issuances.mpr ⟨o, issued_of_current h⟩)
      by_cases mine : owner = o <;> simp [same, mine, unissued]
    · have apart : token ≠ t := fun h => same h.symm
      by_cases mine : owner = o
      · rw [mine] at bare
        simp [same, mine, apart, recalls.held, bare]
      · simp [same, mine, recalls.held]
  spent t o := by
    simp only [Keyring.grant, current, List.mem_cons, Event.issued.injEq, recalls.spent]
    by_cases same : t = token
    · have absent : .issued token o ∉ history := fun h => fresh (mem_issuances.mpr ⟨o, h⟩)
      by_cases mine : owner = o <;> simp [same, mine, absent, eq_comm]
    · have apart : token ≠ t := fun h => same h.symm
      by_cases mine : owner = o
      · rw [mine] at bare
        simp [same, mine, apart, bare]
      · simp [same, mine]

theorem Recalls.retract (recalls : ring.Recalls history) (once : (issuances history).Nodup)
    (owner : ω) : (ring.retract owner).Recalls (.revoked owner :: history) where
  held t o := by
    simp only [held_retract, current]
    by_cases mine : owner = o
    · subst mine
      by_cases holds : ring.held.get? t = some owner <;> simp [holds]
    · have other : some owner ≠ some o := fun h => mine (Option.some.inj h)
      by_cases holds : ring.held.get? t = some owner
      · have lost : ¬ ring.held.get? t = some o := by simp [holds, mine]
        rw [recalls.held] at lost
        simp [holds, mine, lost]
      · simp [holds, mine, recalls.held]
  spent t o := by
    simp only [spent_retract, current, List.mem_cons, reduceCtorEq, false_or]
    by_cases holds : ring.held.get? t = some owner
    · have issued := issued_of_current ((recalls.held t owner).mp holds)
      by_cases mine : owner = o
      · subst mine
        simp [holds, issued]
      · have foreign : .issued t o ∉ history := fun h => mine (owner_unique once issued h)
        simp [holds, mine, foreign]
    · rw [if_neg holds, recalls.spent]
      rw [recalls.held] at holds
      by_cases mine : owner = o
      · subst mine
        simp [holds]
      · simp [mine]

theorem Recalls.idle (recalls : ring.Recalls history) {owner : ω}
    (bare : current owner history = none) : ring.Recalls (.revoked owner :: history) where
  held t o := by
    rw [recalls.held, current]
    by_cases mine : owner = o
    · rw [mine] at bare
      simp [mine, bare]
    · simp [mine]
  spent t o := by
    rw [recalls.spent, current]
    by_cases mine : owner = o
    · rw [mine] at bare
      simp [mine, bare]
    · simp [mine]

end Keyring

end BlizzardMock
