import BlizzardMock.Data.Dict

/-! Ledgers: entries filed under a key, each in a group and of an owner, where the group's area may
have an owner of its own. -/

universe u v w x

namespace BlizzardMock

structure Ledger (κ : Type u) {γ : Type v} {α : Type w} (ω : Type x) [DecidableEq κ] [DecidableEq α]
    (area : γ → α) where
  entries : Dict κ (γ × ω) := ∅
  owners : Dict α ω := ∅

namespace Ledger

variable {κ : Type u} {γ : Type v} {α : Type w} {ω : Type x} [DecidableEq κ] [DecidableEq γ]
  [DecidableEq α] [DecidableEq ω] {area : γ → α}

def file (ledger : Ledger κ ω area) (k : κ) (group : γ) (owner : ω) : Ledger κ ω area :=
  { ledger with entries := ledger.entries.set k (group, owner) }

def claim (ledger : Ledger κ ω area) (a : α) (owner : ω) : Ledger κ ω area :=
  { ledger with owners := ledger.owners.setdefault a owner }

def holders (ledger : Ledger κ ω area) (group : γ) : List ω :=
  ((ledger.entries.values.filter (·.1 = group)).map Prod.snd).eraseDups

/-- The entries of a group are of one owner, the area's where the area has one. -/
structure Coherent (ledger : Ledger κ ω area) : Prop where
  single {k k' : κ} {group : γ} {owner other : ω} : ledger.entries.get? k = some (group, owner) →
    ledger.entries.get? k' = some (group, other) → owner = other
  owned {k : κ} {group : γ} {owner other : ω} : ledger.entries.get? k = some (group, owner) →
    ledger.owners.get? (area group) = some other → owner = other

variable {ledger : Ledger κ ω area}

omit [DecidableEq γ] [DecidableEq ω] in
theorem coherent_empty : Coherent ({} : Ledger κ ω area) where
  single h := by cases h
  owned h := by cases h

omit [DecidableEq γ] [DecidableEq ω] in
theorem Coherent.file (coherent : ledger.Coherent) {k : κ} {group : γ} {owner : ω}
    (clear : ∀ k' other, ledger.entries.get? k' = some (group, other) → k' ≠ k → other = owner)
    (ships : ∀ other, ledger.owners.get? (area group) = some other → owner = other) :
    (ledger.file k group owner).Coherent where
  single {k₁ k₂ g o₁ o₂} h₁ h₂ := by
    simp only [Ledger.file, Dict.get?_set] at h₁ h₂
    split at h₁
    case isTrue =>
      cases h₁
      split at h₂
      case isTrue =>
        cases h₂
        rfl
      case isFalse other => exact (clear k₂ o₂ h₂ other).symm
    case isFalse other =>
      split at h₂
      case isTrue =>
        cases h₂
        exact clear k₁ o₁ h₁ other
      case isFalse => exact coherent.single h₁ h₂
  owned {k' g o o'} h h' := by
    simp only [Ledger.file, Dict.get?_set] at h h'
    split at h
    case isTrue =>
      cases h
      exact ships o' h'
    case isFalse => exact coherent.owned h h'

omit [DecidableEq γ] [DecidableEq ω] in
theorem Coherent.claim (coherent : ledger.Coherent) {a : α} {owner : ω}
    (clear : ledger.owners.get? a = none → ∀ k group other,
      ledger.entries.get? k = some (group, other) → area group = a → other = owner) :
    (ledger.claim a owner).Coherent where
  single h h' := coherent.single h h'
  owned {k group o o'} h h' := by
    simp only [Ledger.claim, Dict.get?_setdefault] at h h'
    split at h'
    case isTrue here =>
      cases known : ledger.owners.get? a with
      | none =>
        rw [known] at h'
        cases h'
        exact clear known k group o h here
      | some held =>
        rw [known] at h'
        cases h'
        rw [← here] at known
        exact coherent.owned h known
    case isFalse => exact coherent.owned h h'

theorem mem_holders {group : γ} {owner : ω} :
    owner ∈ ledger.holders group ↔ ∃ k, ledger.entries.get? k = some (group, owner) := by
  simp only [holders, List.mem_eraseDups, List.mem_map, List.mem_filter, Dict.mem_values,
    decide_eq_true_eq]
  constructor
  · rintro ⟨entry, ⟨⟨k, h⟩, here⟩, same⟩
    cases here
    cases same
    exact ⟨k, h⟩
  · rintro ⟨k, h⟩
    exact ⟨(group, owner), ⟨⟨k, h⟩, rfl⟩, rfl⟩

omit [DecidableEq γ] in
theorem eraseDups_length_le {l : List ω} (same : ∀ a ∈ l, ∀ b ∈ l, a = b) :
    l.eraseDups.length ≤ 1 := by
  cases l with
  | nil => exact Nat.zero_le 1
  | cons a rest =>
    have none_left : rest.filter (fun b => !b == a) = [] := by
      rw [List.filter_eq_nil_iff]
      intro b mem
      simp [same b (List.mem_cons_of_mem a mem) a List.mem_cons_self]
    rw [List.eraseDups_cons, none_left]
    exact Nat.le_refl 1

theorem Coherent.holders_length_le (coherent : ledger.Coherent) (group : γ) :
    (ledger.holders group).length ≤ 1 := by
  apply eraseDups_length_le
  intro a ha b hb
  obtain ⟨_, held⟩ := mem_holders.mp (List.mem_eraseDups.mpr ha)
  obtain ⟨_, held'⟩ := mem_holders.mp (List.mem_eraseDups.mpr hb)
  exact coherent.single held held'

theorem entry_of_head? {group : γ} {owner : ω} (h : (ledger.holders group).head? = some owner) :
    ∃ k, ledger.entries.get? k = some (group, owner) :=
  mem_holders.mp (List.mem_of_mem_head? h)

theorem Coherent.head?_holders (coherent : ledger.Coherent) {k : κ} {group : γ} {owner : ω}
    (held : ledger.entries.get? k = some (group, owner)) :
    (ledger.holders group).head? = some owner := by
  cases h : (ledger.holders group).head? with
  | none =>
    have mem := mem_holders.mpr ⟨k, held⟩
    rw [List.head?_eq_none_iff.mp h] at mem
    cases mem
  | some first =>
    obtain ⟨_, held'⟩ := entry_of_head? h
    rw [coherent.single held' held]

end Ledger

end BlizzardMock
