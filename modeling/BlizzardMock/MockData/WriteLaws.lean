import BlizzardMock.MockData.Reset
import BlizzardMock.MockData.SeqLaws

namespace BlizzardMock.MockData

open Method

section Write

variable [Unicode]

def FactRow.entry (row : FactRow) : String × Values := (row.table, row.values)

namespace Database

def prepare (db : Database) (composed : Write) : Except SeedError (List FactRow × Database) := do
  requireRunner db.schema (composed.stamped db.schema)
  let (rows, numbered) ← db.allocateOutboxSeqs (composed.stamped db.schema)
  checkDrift numbered.schema rows
  return (rows, numbered)

def inOrder (db : Database) (rows : List FactRow) : List FactRow :=
  db.schema.keys.flatMap fun name => rows.filter (·.table = name)

def joined (db : Database) (rows : List FactRow) (name : String) : List Values :=
  db.rowsOf name ++ (rows.filter (·.table = name)).map (·.values)

variable [DbEngine]

/-- The engine takes a row where the store with the row in it satisfies every constraint of a table,
and holds what the row refers to. -/
def Enforces (constraints : List ForeignKeyConstraint) (permits : (String → List Values) → Prop) :
    Prop :=
  ∀ db row, DbEngine.refuses db row = none ↔
    permits (References.put db.rowsOf row.entry) ∧
      References.Resolves (constraints.map (·.key)) (References.put db.rowsOf row.entry) row.entry

variable {constraints : List ForeignKeyConstraint} {permits : (String → List Values) → Prop}
  {db numbered after : Database} {composed : Write} {rows : List FactRow} {row : FactRow}
    {name : String}

theorem write_eq : db.write composed = db.prepare composed >>= fun p =>
      (p.2.inOrder p.1).foldlM insert p.2 := by
  cases rows : composed.rows with
  | nil =>
    have stamped : composed.stamped db.schema = [] := by simp [Write.stamped, stampRows, rows]
    have allocated : db.allocateOutboxSeqs [] = .ok ([], db) := by
      unfold allocateOutboxSeqs
      split <;> rfl
    have prepared : db.prepare composed = .ok ([], db) := by
      simp only [prepare, stamped, allocated]
      rfl
    have order : db.inOrder [] = [] := by simp [inOrder]
    simp only [write, rows, List.isEmpty_nil, if_true, prepared]
    exact (congrArg (List.foldlM insert db) order).symm
  | cons row rest => simp [write, prepare, inOrder, rows]

omit [DbEngine] in
theorem prepare_ok (h : db.prepare composed = .ok (rows, numbered)) :
    numbered.schema = db.schema ∧ ∀ row ∈ rows, row.table ∈ numbered.schema.keys := by
  obtain ⟨-, -, h⟩ := except_bind_ok h
  obtain ⟨⟨assigned, counted⟩, allocated, h⟩ := except_bind_ok h
  obtain ⟨⟨⟩, drift, h⟩ := except_bind_ok h
  cases h
  refine ⟨?_, fun row mem => ?_⟩
  · unfold allocateOutboxSeqs at allocated
    split at allocated
    · cases allocated
      rfl
    · obtain ⟨_, -, same⟩ := except_bind_ok allocated
      cases same
      rfl
  · obtain ⟨table, held⟩ := Dict.mem_iff.mp (table_of_checkDrift drift row mem)
    exact Dict.mem_keys_of_get? held

def withRow (db : Database) (row : FactRow) : Database :=
  { db with held := Function.update db.held row.table (db.held row.table ++ [row.values]) }

omit [Unicode] [DbEngine] in
theorem rowsOf_withRow (other : row.table ≠ outboxCountersTable) :
    (db.withRow row).rowsOf = References.put db.rowsOf row.entry := by
  funext name
  by_cases counters : name = outboxCountersTable
  · simp [rowsOf, withRow, References.put, FactRow.entry, counters, Ne.symm other]
  · by_cases same : name = row.table <;> simp [rowsOf, withRow, References.put, FactRow.entry,
      counters, same, other]

theorem insert_ok (other : row.table ≠ outboxCountersTable) :
    db.insert row = .ok after ↔ DbEngine.refuses db row = none ∧ after = db.withRow row := by
  unfold insert
  cases DbEngine.refuses db row <;> simp [other, withRow, eq_comm]

omit [Unicode] [DbEngine] in
theorem rowsOf_withRows (others : ∀ row ∈ rows, row.table ≠ outboxCountersTable) :
    (rows.foldl withRow db).rowsOf = References.stored db.rowsOf (rows.map (·.entry)) := by
  induction rows generalizing db with
  | nil => rfl
  | cons row rows ih =>
    obtain ⟨other, others⟩ := List.forall_mem_cons.mp others
    simp [ih others, rowsOf_withRow other, References.stored]

theorem inserts_ok (enforces : Enforces constraints permits)
    (others : ∀ row ∈ rows, row.table ≠ outboxCountersTable) :
    rows.foldlM insert db = .ok after ↔
      References.Admits (constraints.map (·.key)) permits db.rowsOf (rows.map (·.entry)) ∧
        after = rows.foldl withRow db := by
  induction rows generalizing db with
  | nil => simp [References.Admits, pure, Except.pure, eq_comm]
  | cons row rows ih =>
    obtain ⟨other, others⟩ := List.forall_mem_cons.mp others
    simp only [List.foldlM_cons, except_bind_ok_iff, insert_ok other, enforces db row,
      ← rowsOf_withRow other, ih others,
      List.map_cons, References.Admits, List.foldl_cons]
    constructor
    · rintro ⟨_, ⟨admitted, rfl⟩, rest, rfl⟩
      exact ⟨⟨admitted, rest⟩, rfl⟩
    · rintro ⟨⟨admitted, rest⟩, rfl⟩
      exact ⟨_, ⟨admitted, rfl⟩, rest, rfl⟩

/-- Rows of a table that refer to rows of the same table come after them. -/
def SelfBackward (constraints : List ForeignKeyConstraint) (rows : List FactRow) : Prop :=
  ∀ name, References.Backward (constraints.map (·.key))
    ((rows.filter (·.table = name)).map (·.entry))

omit [Unicode] [DbEngine] in
theorem selfBackward_of_ne (apart : ∀ c ∈ constraints, c.table ≠ c.referredTable) :
    SelfBackward constraints rows := by
  intro name
  refine List.pairwise_map.mpr (List.pairwise_of_forall_mem_list ?_)
  intro row here other there key mem child parent
  simp only [List.mem_filter, decide_eq_true_eq] at here there
  obtain ⟨c, held, rfl⟩ := List.mem_map.mp mem
  exact absurd ((child.trans here.2).trans (parent.trans there.2).symm) (apart c held)

omit [Unicode] [DbEngine] in
theorem mem_inOrder (known : ∀ row ∈ rows, row.table ∈ db.schema.keys) : row ∈ db.inOrder rows ↔
      row ∈ rows := by
  simpa [inOrder] using known row

omit [Unicode] [DbEngine] in
theorem stored_inOrder (known : ∀ row ∈ rows, row.table ∈ db.schema.keys) :
    References.stored db.rowsOf ((db.inOrder rows).map (·.entry)) = db.joined rows := by
  funext name
  have group : (db.inOrder rows).filter (·.table = name) = rows.filter (·.table = name) := by
    have groups := filter_groups rows (show db.schema.keys.Nodup from db.schema.nodup) name
    rw [inOrder, groups]
    split
    · rfl
    · rename_i missing
      have none : rows.filter (·.table = name) = [] :=
        List.filter_eq_nil_iff.mpr fun row mem here =>
        missing ((of_decide_eq_true here : row.table = name) ▸ known row mem)
      exact none.symm
  simp [References.stored_apply, joined, ← group, List.filter_map, Function.comp_def, FactRow.entry]

omit [Unicode] [DbEngine] in
theorem backward_inOrder (ordered : References.Ordered (constraints.map (·.key)) db.schema.keys)
    (backward : SelfBackward constraints rows) :
    References.Backward (constraints.map (·.key)) ((db.inOrder rows).map (·.entry)) := by
  rw [References.Backward, List.pairwise_map, inOrder, List.pairwise_flatMap]
  refine ⟨fun name _ => List.pairwise_map.mp (backward name), ordered.imp ?_⟩
  intro name later apart row here other there key mem child parent
  simp only [List.mem_filter, decide_eq_true_eq] at here there
  exact absurd (parent.trans there.2) (apart key mem (child.trans here.2))

theorem write_iff (enforces : Enforces constraints permits)
    (hereditary : ∀ rows rows', (∀ table, rows table <+: rows' table) →
      permits rows' → permits rows)
    (ordered : References.Ordered (constraints.map (·.key)) db.schema.keys)
    (prepared : db.prepare composed = .ok (rows, numbered)) (permitted : permits numbered.rowsOf)
    (others : ∀ row ∈ rows, row.table ≠ outboxCountersTable)
    (backward : SelfBackward constraints rows) :
    ((∃ after, db.write composed = .ok after) ↔ permits (numbered.joined rows) ∧
      ∀ row ∈ rows, References.Resolves (constraints.map (·.key))
        (numbered.joined rows) row.entry) ∧
    ∀ after, db.write composed = .ok after → after.rowsOf = numbered.joined rows := by
  obtain ⟨schema, known⟩ := prepare_ok prepared
  have others : ∀ row ∈ numbered.inOrder rows, row.table ≠ outboxCountersTable :=
    fun row mem => others row ((mem_inOrder known).mp mem)
  have carried (after : Database) : db.write composed = .ok after ↔
      (permits (numbered.joined rows) ∧
        ∀ row ∈ rows, References.Resolves (constraints.map (·.key))
          (numbered.joined rows) row.entry) ∧
      after = (numbered.inOrder rows).foldl withRow numbered := by
    rw [write_eq, prepared]
    change (numbered.inOrder rows).foldlM insert numbered = .ok after ↔ _
    rw [inserts_ok enforces others,
      References.admits_iff hereditary permitted
        (backward_inOrder (by rwa [schema]) backward), stored_inOrder known]
    simp only [List.forall_mem_map, mem_inOrder known]
  refine ⟨⟨fun ⟨after, went⟩ => ((carried after).mp went).1, fun h =>
    ⟨_, (carried _).mpr ⟨h, rfl⟩⟩⟩, fun after went => ?_⟩
  rw [((carried after).mp went).2, rowsOf_withRows others, stored_inOrder known]

end Database

end Write

section

attribute [local instance] Platform.plain

def reference (table column referredTable : String) : ForeignKeyConstraint :=
  ⟨table, [column], referredTable, [column]⟩

def boardKeys : List ForeignKeyConstraint :=
  [reference "chunks" "project_id" "projects", reference "questions" "chunk_id" "chunks"]

def uniqueChunks (rows : String → List Values) : Prop :=
  ((rows "chunks").map (keyOf ["chunk_id"])).Nodup

instance (rows : String → List Values) : Decidable (uniqueChunks rows) :=
  inferInstanceAs (Decidable ((rows "chunks").map (keyOf ["chunk_id"])).Nodup)

abbrev DbEngine.board : DbEngine where
  refuses db row :=
    if uniqueChunks (References.put db.rowsOf row.entry) ∧
      References.Resolves (boardKeys.map (·.key))
        (References.put db.rowsOf row.entry) row.entry then none
    else some "constraint failed"
  counterKey := "UNIQUE constraint failed: outbox_counters.runner_id, outbox_counters.lane"

attribute [local instance] DbEngine.board

def board : Database where
  schema := .ofList [
    ("projects", ⟨.ofList [("project_id", column)]⟩),
    ("chunks", ⟨.ofList [("chunk_id", column), ("project_id", column)]⟩),
    ("questions", ⟨.ofList [("chunk_id", column)]⟩)]
  held _ := []
  counters := ∅

def textRow (table : String) (columns : List (String × String)) : FactRow :=
  ⟨table, .ofList (columns.map fun c => (c.1, .str c.2))⟩

def upsideDown : Database.Write where
  rows := [textRow "questions" [("chunk_id", "ch_1")],
    textRow "chunks" [("chunk_id", "ch_1"), ("project_id", "pj_1")],
    textRow "projects" [("project_id", "pj_1")]]
  stamps := ⟨none, none, none⟩
  mintScopeId _ := ""

theorem upsideDown_written : ∃ after, board.write upsideDown = .ok after := by
  have enforces : Database.Enforces boardKeys uniqueChunks :=
    fun db row => by simp [DbEngine.refuses]
  have prepared : board.prepare upsideDown = .ok (upsideDown.rows, board) := rfl
  have written := Database.write_iff enforces (fun _ _ grows =>
    ((grows "chunks").sublist.map _).nodup) (by decide)
    prepared (by decide) (by decide) (Database.selfBackward_of_ne (by decide))
  exact written.1.mpr ⟨by decide, by decide⟩

end

end BlizzardMock.MockData
