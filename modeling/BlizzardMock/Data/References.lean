import Mathlib.Data.List.Basic

universe u v w

namespace BlizzardMock

/-- Rows of `child` refer to rows of `parent`: `refers` gives what a row refers to, if anything,
`named` the name under which a row is referred to. -/
structure ForeignKey (Table : Type u) (Row : Type v) (Key : Type w) where
  child : Table
  parent : Table
  refers : Row → Option Key
  named : Row → Option Key

variable {Table : Type u} {Row : Type v} {Key : Type w}

def ForeignKey.Names (key : ForeignKey Table Row Key) (rows : Table → List Row) (k : Key) : Prop :=
  ∃ target ∈ rows key.parent, key.named target = some k

theorem ForeignKey.Names.mono {key : ForeignKey Table Row Key}
    {rows rows' : Table → List Row} {k : Key}
    (h : key.Names rows k) (sub : rows key.parent ⊆ rows' key.parent) : key.Names rows' k :=
  h.imp fun _ target => ⟨sub target.1, target.2⟩

namespace References

section Deleting

variable (keys : List (ForeignKey Table Row Key))

def Sound (rows : Table → List Row) : Prop :=
  ∀ key ∈ keys, ∀ row ∈ rows key.child, ∀ k ∈ key.refers row, key.Names rows k

def Stands (before left : Table → List Row) : Prop :=
  ∀ key ∈ keys, ∀ row ∈ left key.child, ∀ k ∈ key.refers row, key.Names before k → key.Names left k

instance [DecidableEq Key] (before left : Table → List Row) : Decidable (Stands keys before left) :=
  inferInstanceAs (Decidable (∀ key ∈ keys, ∀ row ∈ left key.child, ∀ k ∈ key.refers row,
    (∃ target ∈ before key.parent, key.named target = some k) → ∃ target ∈ left key.parent,
      key.named target = some k))

def Ordered (tables : List Table) : Prop :=
  tables.Pairwise fun earlier later => ∀ key ∈ keys, key.child = earlier → key.parent ≠ later

variable [DecidableEq Table] (keep : Table → Row → Bool)

instance (tables : List Table) : Decidable (Ordered keys tables) :=
  inferInstanceAs (Decidable (tables.Pairwise fun earlier later =>
    ∀ key ∈ keys, key.child = earlier → key.parent ≠ later))

def retained (cleared : List Table) (rows : Table → List Row) (table : Table) : List Row :=
  if table ∈ cleared then (rows table).filter (keep table) else rows table

def Clears (rows : Table → List Row) : List Table → Prop
  | [] => True
  | table :: cleared =>
    Clears rows cleared ∧
      Stands keys (retained keep cleared rows) (retained keep (table :: cleared) rows)

variable {keys keep} {rows before middle after : Table → List Row} {tables cleared : List Table}
    {table : Table}

omit [DecidableEq Table] in
theorem Sound.of_stands (sound : Sound keys before) (sub : ∀ table, after table ⊆ before table)
    (stands : Stands keys before after) : Sound keys after := fun key mem row child k refers =>
  stands key mem row child k refers (sound key mem row (sub _ child) k refers)

omit [DecidableEq Table] in
@[simp] theorem stands_self : Stands keys rows rows := fun _ _ _ _ _ _ named => named

omit [DecidableEq Table] in
theorem Stands.trans (first : Stands keys before middle) (next : Stands keys middle after)
    (sub : ∀ table, after table ⊆ middle table) : Stands keys before after :=
  fun key mem row child k refers named =>
  next key mem row child k refers (first key mem row (sub _ child) k refers named)

@[simp] theorem retained_nil : retained keep [] rows = rows := by
  funext table
  simp [retained]

theorem retained_of_mem (h : table ∈ cleared) :
    retained keep cleared rows table = (rows table).filter (keep table) := if_pos h

theorem retained_of_not_mem (h : table ∉ cleared) :
    retained keep cleared rows table = rows table := if_neg h

@[simp] theorem retained_retained :
    retained keep cleared (retained keep cleared rows) = retained keep cleared rows := by
  funext table
  by_cases mem : table ∈ cleared <;> simp [retained, mem]

theorem retained_subset (table : Table) : retained keep cleared rows table ⊆ rows table := by
  unfold retained
  split <;> simp

theorem subset_retained (h : table ∉ cleared) : rows table ⊆ retained keep cleared rows table := by
  simp [retained_of_not_mem h]

theorem retained_cons_of_ne {other : Table} (h : other ≠ table) :
    retained keep (table :: cleared) rows other = retained keep cleared rows other := by
  simp [retained, h]

theorem retained_cons_subset (other : Table) :
    retained keep (table :: cleared) rows other ⊆ retained keep cleared rows other := by
  by_cases same : other = table
  · subst same
    by_cases mem : other ∈ cleared <;> simp [retained, mem]
  · simp [retained_cons_of_ne same]

theorem stands_step {earlier : List Table} (ordered : Ordered keys (earlier ++ table :: cleared))
    (stands : Stands keys rows (retained keep (earlier ++ table :: cleared) rows)) :
    Stands keys (retained keep cleared rows) (retained keep (table :: cleared) rows) := by
  intro key mem row child k refers named
  by_cases parent : key.parent = table
  · have late : key.child ∉ earlier := fun early =>
      (List.pairwise_append.mp ordered).2.2 _ early _ (List.mem_cons_self ..) key mem rfl parent
    have alike : retained keep (earlier ++ table :: cleared) rows key.child =
        retained keep (table :: cleared) rows key.child := by
      simp [retained, late]
    obtain ⟨target, found, name⟩ :=
      stands key mem row (by rwa [alike]) k refers (named.mono (retained_subset _))
    refine ⟨target, ?_, name⟩
    simpa [retained, parent] using found
  · obtain ⟨target, found, name⟩ := named
    exact ⟨target, by rwa [retained_cons_of_ne parent], name⟩

theorem Clears.stands (clears : Clears keys keep rows cleared) :
    Stands keys rows (retained keep cleared rows) := by
  induction cleared with
  | nil => simp
  | cons table cleared ih => exact (ih clears.1).trans clears.2 retained_cons_subset

theorem clears_suffix (earlier : List Table) (ordered : Ordered keys (earlier ++ cleared))
    (stands : Stands keys rows (retained keep (earlier ++ cleared) rows)) :
    Clears keys keep rows cleared := by
  induction cleared generalizing earlier with
  | nil => trivial
  | cons table cleared ih =>
    exact ⟨ih (earlier ++ [table])
      (by simpa using ordered) (by simpa using stands), stands_step ordered stands⟩

theorem clears_iff (ordered : Ordered keys tables) :
    Clears keys keep rows tables ↔ Stands keys rows (retained keep tables rows) :=
  ⟨Clears.stands, clears_suffix [] ordered⟩

end Deleting

section Inserting

variable (keys : List (ForeignKey Table Row Key))

def Resolves (rows : Table → List Row) (entry : Table × Row) : Prop :=
  ∀ key ∈ keys, key.child = entry.1 → ∀ k ∈ key.refers entry.2, key.Names rows k

instance [DecidableEq Table] [DecidableEq Key] (rows : Table → List Row) (entry : Table × Row) :
    Decidable (Resolves keys rows entry) :=
  inferInstanceAs (Decidable (∀ key ∈ keys, key.child = entry.1 → ∀ k ∈ key.refers entry.2,
    ∃ target ∈ rows key.parent, key.named target = some k))

def Backward (entries : List (Table × Row)) : Prop :=
  entries.Pairwise fun earlier later => ∀ key ∈ keys, key.child = earlier.1 → key.parent = later.1 →
    ∀ k ∈ key.refers earlier.2, key.named later.2 ≠ some k

variable [DecidableEq Table]

def put (rows : Table → List Row) (entry : Table × Row) : Table → List Row :=
  Function.update rows entry.1 (rows entry.1 ++ [entry.2])

def stored (rows : Table → List Row) (entries : List (Table × Row)) : Table → List Row :=
  entries.foldl put rows

def Admits (permits : (Table → List Row) → Prop) (rows : Table → List Row) :
    List (Table × Row) → Prop
  | [] => True
  | entry :: rest =>
    (permits (put rows entry) ∧ Resolves keys (put rows entry) entry) ∧
      Admits permits (put rows entry) rest

variable {keys} {permits : (Table → List Row) → Prop} {rows rows' : Table → List Row}
    {entry : Table × Row}
  {entries : List (Table × Row)} {table : Table}

omit [DecidableEq Table] in
theorem Resolves.mono (resolves : Resolves keys rows entry)
    (sub : ∀ table, rows table ⊆ rows' table) :
    Resolves keys rows' entry := fun key mem child k refers =>
      (resolves key mem child k refers).mono (sub _)

theorem stored_apply (table : Table) :
    stored rows entries table = rows table ++ (entries.filter (·.1 = table)).map Prod.snd := by
  induction entries generalizing rows with
  | nil => simp [stored]
  | cons entry rest ih =>
    by_cases same : entry.1 = table
    · subst same
      simpa [stored, put] using @ih (put rows entry)
    · simpa [stored, put, same, Ne.symm same] using @ih (put rows entry)

theorem prefix_stored (table : Table) : rows table <+: stored rows entries table := by
  simp [stored_apply]

theorem Resolves.at_put (backward : Backward keys (entry :: entries))
    (resolves : Resolves keys (stored rows (entry :: entries)) entry) :
    Resolves keys (put rows entry) entry := by
  intro key mem child k refers
  obtain ⟨target, found, name⟩ := resolves key mem child k refers
  change target ∈ stored (put rows entry) entries key.parent at found
  rw [stored_apply, List.mem_append] at found
  refine ⟨target, found.resolve_right fun late => ?_, name⟩
  obtain ⟨other, later, rfl⟩ := List.mem_map.mp late
  obtain ⟨later, parent⟩ := List.mem_filter.mp later
  exact (List.pairwise_cons.mp backward).1 other later key mem child
    (by simpa using Eq.symm (of_decide_eq_true parent)) k refers name

theorem admits_iff (hereditary : ∀ rows rows', (∀ table, rows table <+: rows' table) →
      permits rows' → permits rows)
    (permitted : permits rows) (backward : Backward keys entries) :
    Admits keys permits rows entries ↔
      permits (stored rows entries) ∧ ∀ entry ∈ entries,
        Resolves keys (stored rows entries) entry := by
  induction entries generalizing rows with
  | nil => simpa [Admits, stored] using permitted
  | cons entry rest ih =>
    constructor
    · intro ⟨⟨here, resolves⟩, later⟩
      obtain ⟨whole, each⟩ := (ih here backward.tail).mp later
      exact ⟨whole, List.forall_mem_cons.mpr ⟨resolves.mono fun table =>
        (prefix_stored table).subset, each⟩⟩
    · intro ⟨whole, each⟩
      obtain ⟨first, each⟩ := List.forall_mem_cons.mp each
      have here : permits (put rows entry) := hereditary _ _ prefix_stored whole
      exact ⟨⟨here, first.at_put backward⟩, (ih here backward.tail).mpr ⟨whole, each⟩⟩

end Inserting

end References

end BlizzardMock
