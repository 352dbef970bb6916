import BlizzardMock.Data.Method
import BlizzardMock.MockData.Reset
import BlizzardMock.Python.DateTime
import Mathlib.Data.List.Nodup

namespace BlizzardMock.MockData

open Method

def ResetBoundary.keeps (boundary : ResetBoundary) (name : String) : Values → Bool :=
  fun row => !outside (boundary.keptRows.getD name ∅) row

/-- The filter of a table names columns that it has. -/
def ResetBoundary.Fits (boundary : ResetBoundary) (schema : Schema) (name : String) : Prop :=
  ∀ column ∈ (boundary.keptRows.getD name ∅).keys, column ∈ ((schema.get? name).getD ⟨∅⟩).columns

namespace Database

def resetTables (db : Database) (boundary : ResetBoundary) : List String :=
  (db.schema.keys.filter (· ≠ migrationTrackingTable)).filter (· ∉ boundary.keptTables)

def within (db : Database) (boundary : ResetBoundary) : ResetBoundary :=
  boundary.forStore db.schema.keys

def inside (db : Database) (boundary : ResetBoundary) : String → List Values :=
  References.retained boundary.keeps (db.resetTables boundary) db.rowsOf

def cleared (boundary : ResetBoundary) (db : Database) : List String → Database
  | [] => db
  | name :: names =>
    (cleared boundary db names).withoutRows name (outside (boundary.keptRows.getD name ∅))

def lost (db : Database) (boundary : ResetBoundary) (names : List String) : Nat :=
  (names.map fun name => (db.rowsOf name).countP (outside (boundary.keptRows.getD name ∅))).sum

def summaryOf (db : Database) (boundary : ResetBoundary) : ResetSummary where
  rowsDeleted := db.lost boundary (db.resetTables boundary)
  tableCount := (db.resetTables boundary).length
  tablesKept := ((db.schema.keys.filter (· ≠ migrationTrackingTable)).filter
    (· ∈ boundary.keptTables)).length

variable {constraints : List ForeignKeyConstraint} {db after : Database} {boundary : ResetBoundary}
    {name : String}
  {names : List String} {gone : Values → Bool} {summary : ResetSummary} {schema : Schema}

@[simp] theorem schema_withoutRows : (db.withoutRows name gone).schema = db.schema := by
  unfold withoutRows
  split <;> rfl

theorem rowsOf_withoutRows (other : String) :
    (db.withoutRows name gone).rowsOf other =
      if other = name then (db.rowsOf name).filter (!gone ·) else db.rowsOf other := by
  by_cases counters : name = outboxCountersTable <;> by_cases same : other = name
  · subst same
    simp [withoutRows, rowsOf, counters, List.filter_map, Function.comp_def]
  · simp [withoutRows, rowsOf, counters, counters ▸ same]
  · subst same
    simp [withoutRows, rowsOf, counters]
  · by_cases other = outboxCountersTable <;> simp_all [withoutRows, rowsOf]

@[simp] theorem schema_cleared : (cleared boundary db names).schema = db.schema := by
  induction names with
  | nil => rfl
  | cons name names ih => simp [cleared, ih]

theorem rowsOf_cleared : (cleared boundary db names).rowsOf =
      References.retained boundary.keeps names db.rowsOf := by
  induction names with
  | nil => simp [cleared]
  | cons name names ih =>
    funext other
    have keeps : boundary.keeps other = fun row =>
      !outside (boundary.keptRows.getD other ∅) row := rfl
    rw [cleared, rowsOf_withoutRows, ih]
    by_cases same : other = name
    · subst same
      by_cases mem : other ∈ names <;> simp [References.retained, mem, keeps]
    · simp [References.retained, same]

theorem nodup_resetTables : (db.resetTables boundary).Nodup := (db.schema.nodup.filter _).filter _

theorem ordered_resetTables
      (ordered : References.Ordered (constraints.map (·.key)) db.schema.keys) :
    References.Ordered (constraints.map (·.key)) (db.resetTables boundary) :=
  (List.Pairwise.filter _ ordered).filter _

theorem inside_subset (name : String) : db.inside boundary name ⊆ db.rowsOf name :=
  References.retained_subset name

theorem lost_inside (rows : after.rowsOf = db.inside boundary) :
    after.lost boundary (db.resetTables boundary) = 0 := by
  simp only [lost, List.sum_eq_zero_iff_forall_eq_nat, List.forall_mem_map, List.countP_eq_zero]
  intro name mem row found
  rw [rows, inside, References.retained_of_mem mem, List.mem_filter] at found
  simpa [ResetBoundary.keeps] using found.2

theorem executeDelete_ok {n : Nat} :
    db.executeDelete constraints name gone = .ok (n, after) ↔
      References.Stands (constraints.map (·.key)) db.rowsOf (db.withoutRows name gone).rowsOf ∧
        n = (db.rowsOf name).countP gone ∧ after = db.withoutRows name gone := by
  unfold executeDelete
  split <;> simp_all [eq_comm]

theorem sorted_eq_nil {names : List String} : sorted names = [] ↔ names = [] := by
  rw [← List.length_eq_zero_iff, sorted, List.length_insertionSort, List.length_eq_zero_iff]

section Reset

variable [Unicode]

theorem deleteOutside_ok {keep : Values} {table : ReflectedTable} :
    deleteOutside name table keep = .ok gone ↔ (∀ column ∈ keep.keys, column ∈ table.columns) ∧
      gone = outside keep := by
  have absent : sorted (keep.keys.filter (· ∉ table.columns)) = [] ↔ ∀ column ∈ keep.keys,
    column ∈ table.columns := by
    simp [sorted_eq_nil]
  simp only [deleteOutside]
  by_cases fits : ∀ column ∈ keep.keys, column ∈ table.columns
  · rw [if_neg (not_not.mpr (absent.mpr fits))]
    exact ⟨fun h => ⟨fits, (Except.ok.inj h).symm⟩, fun h => congrArg _ h.2.symm⟩
  · rw [if_pos (mt absent.mp fits)]
    exact ⟨nofun, fun h => absurd h.1 fits⟩

theorem resetTable_ok {run : Nat × Database} {n : Nat} :
    resetTable constraints boundary name run = .ok (n, after) ↔ boundary.Fits run.2.schema name ∧
      References.Stands (constraints.map (·.key)) run.2.rowsOf
        (cleared boundary run.2 [name]).rowsOf ∧
      n = run.1 + run.2.lost boundary [name] ∧ after = cleared boundary run.2 [name] := by
  simp only [resetTable, except_bind_ok_iff, deleteOutside_ok, Prod.exists, executeDelete_ok,
    ResetBoundary.Fits,
    cleared, lost, List.map_cons, List.map_nil, List.sum_cons, List.sum_nil, Nat.add_zero]
  constructor
  · rintro ⟨gone, ⟨fits, rfl⟩, count, left, ⟨stands, rfl, rfl⟩, ⟨⟩⟩
    exact ⟨fits, stands, rfl, rfl⟩
  · rintro ⟨fits, stands, rfl, rfl⟩
    exact ⟨_, ⟨fits, rfl⟩, _, _, ⟨stands, rfl, rfl⟩, rfl⟩

omit [Unicode] in
theorem lost_cons (fresh : name ∉ names) :
    db.lost boundary (name :: names) = db.lost boundary names +
      (cleared boundary db names).lost boundary [name] := by
  simp [lost, rowsOf_cleared, References.retained, fresh, Nat.add_comm]

theorem resetLoop_ok (nodup : names.Nodup) {n : Nat} :
    names.foldrM (resetTable constraints boundary) (0, db) = .ok (n, after) ↔
      (∀ name ∈ names, boundary.Fits db.schema name) ∧
      References.Clears (constraints.map (·.key)) boundary.keeps db.rowsOf names ∧
      n = db.lost boundary names ∧ after = cleared boundary db names := by
  induction names generalizing n after with
  | nil =>
    constructor
    · rintro ⟨⟩
      simp [References.Clears, lost, cleared]
    · rintro ⟨-, -, rfl, rfl⟩
      rfl
  | cons name names ih =>
    obtain ⟨fresh, nodup⟩ := List.nodup_cons.mp nodup
    have step : (cleared boundary (cleared boundary db names) [name]) = cleared boundary db
      (name :: names) := rfl
    simp only [List.foldrM_cons, except_bind_ok_iff, Prod.exists, ih nodup, resetTable_ok,
      References.Clears,
      List.forall_mem_cons, lost_cons fresh]
    constructor
    · rintro ⟨count, left, ⟨fits, clears, rfl, rfl⟩, fit, stands, rfl, rfl⟩
      rw [step, rowsOf_cleared, rowsOf_cleared] at stands
      exact ⟨⟨by simpa using fit, fits⟩, ⟨clears, stands⟩, rfl, rfl⟩
    · rintro ⟨⟨fit, fits⟩, ⟨clears, stands⟩, rfl, rfl⟩
      refine ⟨_, _, ⟨fits, clears, rfl, rfl⟩, by simpa using fit, ?_, rfl, rfl⟩
      rwa [step, rowsOf_cleared, rowsOf_cleared]

theorem reset_ok (ordered : References.Ordered (constraints.map (·.key)) db.schema.keys) :
    db.reset constraints boundary = .ok (summary, after) ↔ db.schema.keys ≠ [] ∧
      (∀ name ∈ db.resetTables (db.within boundary), (db.within boundary).Fits db.schema name) ∧
      References.Stands (constraints.map (·.key)) db.rowsOf (db.inside (db.within boundary)) ∧
      summary = db.summaryOf (db.within boundary) ∧
      after = cleared (db.within boundary) db (db.resetTables (db.within boundary)) := by
  by_cases bare : db.schema.keys = []
  · simp [reset, bare]
  · have loop (n : Nat) (left : Database) : (db.resetTables (db.within boundary)).foldrM
        (resetTable constraints (db.within boundary)) (0, db) = .ok (n, left) ↔ _ :=
          resetLoop_ok nodup_resetTables
    simp only [reset, if_neg bare, List.foldlM_reverse, except_bind_ok_iff]
    constructor
    · rintro ⟨⟨n, left⟩, went, ⟨⟩⟩
      obtain ⟨fits, clears, rfl, rfl⟩ := (loop n left).mp went
      exact ⟨bare, fits, (References.clears_iff (ordered_resetTables ordered)).mp clears, rfl, rfl⟩
    · rintro ⟨-, fits, stands, rfl, rfl⟩
      have clears := (References.clears_iff (ordered_resetTables ordered)).mpr stands
      exact ⟨_, (loop _ _).mpr ⟨fits, clears, rfl, rfl⟩, rfl⟩

/-- Parents before children, a reset is stopped by nothing but a column that a filter does not find,
or a row to be kept that refers to a row to be deleted. -/
theorem reset_iff (ordered : References.Ordered (constraints.map (·.key)) db.schema.keys) :
    ((∃ summary after, db.reset constraints boundary = .ok (summary, after)) ↔ db.schema.keys ≠ [] ∧
      (∀ name ∈ db.resetTables (db.within boundary), (db.within boundary).Fits db.schema name) ∧
      References.Stands (constraints.map (·.key)) db.rowsOf (db.inside (db.within boundary))) ∧
    ∀ summary after, db.reset constraints boundary = .ok (summary, after) →
      after.schema = db.schema ∧ after.rowsOf = db.inside (db.within boundary) ∧
      summary = db.summaryOf (db.within boundary) ∧
      (References.Sound (constraints.map (·.key)) db.rowsOf →
        References.Sound (constraints.map (·.key)) after.rowsOf) := by
  simp only [reset_ok ordered]
  refine ⟨⟨?_, ?_⟩, ?_⟩
  · rintro ⟨summary, after, told, fits, stands, -, -⟩
    exact ⟨told, fits, stands⟩
  · rintro ⟨told, fits, stands⟩
    exact ⟨_, _, told, fits, stands, rfl, rfl⟩
  · rintro summary after ⟨-, -, stands, rfl, rfl⟩
    refine ⟨schema_cleared, rowsOf_cleared, rfl, fun sound => ?_⟩
    rw [rowsOf_cleared]
    exact sound.of_stands inside_subset stands

theorem reset_again (ordered : References.Ordered (constraints.map (·.key)) db.schema.keys)
    (went : db.reset constraints boundary = .ok (summary, after)) :
    ∃ again, after.reset constraints boundary = .ok ({ summary with rowsDeleted := 0 }, again) ∧
      again.rowsOf = after.rowsOf := by
  obtain ⟨told, fits, stands, rfl, same⟩ := (reset_ok ordered).mp went
  have schema : after.schema = db.schema := by rw [same, schema_cleared]
  have rows : after.rowsOf = db.inside (db.within boundary) := by rw [same, rowsOf_cleared, inside]
  have tables : after.resetTables = db.resetTables := by
    funext boundary
    rw [resetTables, resetTables, schema]
  have within : after.within boundary = db.within boundary := by
    rw [Database.within, Database.within, schema]
  have settled : after.inside (db.within boundary) = after.rowsOf := by
    rw [inside, rows, tables, inside, References.retained_retained]
  refine ⟨_, (reset_ok (by rwa [schema])).mpr ⟨by rwa [schema], ?_, ?_, ?_, rfl⟩, ?_⟩
  · rwa [within, tables, schema]
  · rw [within, settled]
    exact References.stands_self
  · rw [within, summaryOf, summaryOf, tables, schema, lost_inside rows]
  · rw [rowsOf_cleared, within]
    exact settled

omit [Unicode] in
theorem mem_resetTables : name ∈ db.resetTables boundary ↔
    name ∈ db.schema.keys ∧ name ≠ migrationTrackingTable ∧ name ∉ boundary.keptTables := by
  simp only [resetTables, List.mem_filter, decide_eq_true_eq, and_assoc]

omit [Unicode] in
theorem within_hub {globalTables : List String} (tenanted : tenantsTable ∈ db.schema.keys) :
    db.within (hubResetBoundary globalTables) = hubResetBoundary globalTables := if_pos tenanted

def isDefault (project : Values) : Bool :=
  (cell (project.getD "slug" .null)).all (· = .text defaultProjectSlug)

omit [Unicode] in
theorem filter_projects {globalTables : List String} :
    (hubResetBoundary globalTables).keptRows.getD projectsTable ∅ = .ofList
      [("slug", .str defaultProjectSlug)] := rfl

omit [Unicode] in
theorem filter_other {globalTables : List String} (other : name ≠ projectsTable) :
    (hubResetBoundary globalTables).keptRows.getD name ∅ = ∅ := Dict.getD_set_of_ne other _ _ _

omit [Unicode] in
theorem keeps_projects {globalTables : List String} :
    (hubResetBoundary globalTables).keeps projectsTable = isDefault := by
  funext project
  have entries : (Dict.ofList [("slug", Json.str defaultProjectSlug)] : Values).entries =
      [("slug", .str defaultProjectSlug)] := rfl
  simp only [ResetBoundary.keeps, outside, filter_projects, entries, isDefault]
  cases slug : cell (project.getD "slug" .null) with
  | none => simp [sqlEquals, sqlAnd, sqlNot, slug]
  | some c =>
    have text : cell (.str defaultProjectSlug) = some (.text defaultProjectSlug) := rfl
    by_cases same : c = .text defaultProjectSlug <;> simp [sqlEquals, sqlAnd, sqlNot,
      slug, text, same]

omit [Unicode] in
theorem keeps_other {globalTables : List String} (other : name ≠ projectsTable) (row : Values) :
    (hubResetBoundary globalTables).keeps name row = false := by
  have entries : (∅ : Values).entries = [] := rfl
  simp [ResetBoundary.keeps, filter_other other, outside, entries]

/-- Where the tables that a hub's reset keeps refer to no others, as its projects do not, no reset
of the hub is refused, whatever it holds; it leaves these tables and the default projects, and a
second one deletes nothing. -/
theorem hub_reset {globalTables : List String}
    (ordered : References.Ordered (constraints.map (·.key)) db.schema.keys)
    (tenanted : tenantsTable ∈ db.schema.keys)
    (slugs : ∀ table ∈ db.schema.get? projectsTable, "slug" ∈ table.columns)
    (apart : ∀ c ∈ constraints, c.table = projectsTable ∨
      c.table ∉ db.resetTables (hubResetBoundary globalTables) →
      c.referredTable ∉ db.resetTables (hubResetBoundary globalTables)) :
    ∃ summary after, db.reset constraints (hubResetBoundary globalTables) = .ok (summary, after) ∧
      (∀ name, after.rowsOf name =
        if name ∉ db.schema.keys ∨ name = migrationTrackingTable ∨
          name ∈ globalTables ++ [tenantsTable, workItemSequenceTable] then db.rowsOf name
        else if name = projectsTable then (db.rowsOf name).filter isDefault else []) ∧
      ∃ again, after.reset constraints (hubResetBoundary globalTables) = .ok
        ({ summary with rowsDeleted := 0 }, again) ∧
        again.rowsOf = after.rowsOf := by
  have stands : References.Stands (constraints.map (·.key)) db.rowsOf
    (db.inside (hubResetBoundary globalTables)) := by
    simp only [References.Stands, List.forall_mem_map]
    intro c mem row child k refers named
    have whole : c.referredTable ∉ db.resetTables (hubResetBoundary globalTables) := by
      refine apart c mem (or_iff_not_imp_left.mpr fun other cleared => ?_)
      change row ∈ db.inside _ c.table at child
      rw [inside, References.retained_of_mem cleared, List.mem_filter, keeps_other other] at child
      exact Bool.false_ne_true child.2
    exact named.mono (References.subset_retained whole)
  have fits : ∀ name ∈ db.resetTables (hubResetBoundary globalTables),
      (hubResetBoundary globalTables).Fits db.schema name := by
    intro name mem column filtered
    by_cases projects : name = projectsTable
    · subst projects
      obtain ⟨table, held⟩ := Dict.get?_of_mem_keys (mem_resetTables.mp mem).1
      have slug : column = "slug" := List.mem_singleton.mp filtered
      simpa [held, slug] using slugs table held
    · rw [filter_other projects] at filtered
      cases filtered
  have went : db.reset constraints (hubResetBoundary globalTables) = .ok (_, _) :=
    (reset_ok ordered).mpr
    ⟨List.ne_nil_of_mem
      tenanted, by rwa [within_hub tenanted], by rwa [within_hub tenanted], rfl, rfl⟩
  refine ⟨_, _, went, fun name => ?_, reset_again ordered went⟩
  rw [rowsOf_cleared, within_hub tenanted]
  by_cases mem : name ∈ db.resetTables (hubResetBoundary globalTables)
  · obtain ⟨held, other, cleared⟩ := mem_resetTables.mp mem
    rw [References.retained_of_mem mem,
      if_neg (by simp [held, other]; simpa [hubResetBoundary] using cleared)]
    split
    · subst name
      rw [keeps_projects]
    · rename_i projects
      exact List.filter_eq_nil_iff.mpr fun row _ => by simp [keeps_other projects]
  · rw [References.retained_of_not_mem mem, if_pos]
    rw [mem_resetTables] at mem
    tauto

end Reset

end Database

section

attribute [local instance] Platform.plain

def requiredColumn : ReflectedColumn := ⟨false, false, false⟩

def hub : Database where
  schema := .ofList [
    ("alembic_version", ⟨.ofList [("version_num", requiredColumn)]⟩),
    ("tenants", ⟨.ofList [("tenant_id", requiredColumn)]⟩),
    ("projects", ⟨.ofList
      [("project_id", requiredColumn), ("slug", requiredColumn), ("tenant_id", requiredColumn)]⟩),
    ("chunks", ⟨.ofList [("chunk_id", requiredColumn), ("project_id", requiredColumn)]⟩)]
  held := fun
    | "tenants" => [.ofList [("tenant_id", .str "tn_1")]]
    | "projects" => [
      .ofList [("project_id", .str "pj_1"), ("slug", .str "default"), ("tenant_id", .str "tn_1")],
      .ofList [("project_id", .str "pj_2"), ("slug", .str "docs"), ("tenant_id", .str "tn_1")]]
    | "chunks" => [.ofList [("chunk_id", .str "ch_1"), ("project_id", .str "pj_2")]]
    | _ => []
  counters := ∅

def hubKeys : List ForeignKeyConstraint :=
  [⟨"projects", ["tenant_id"], "tenants", ["tenant_id"]⟩,
    ⟨"chunks", ["project_id"], "projects", ["project_id"]⟩]

theorem hub_reset_iff :
    (∃ summary after, hub.reset hubKeys clearEverything = .ok (summary, after)) ↔
    hub.schema.keys ≠ [] ∧
      (∀ name ∈ hub.resetTables clearEverything, clearEverything.Fits hub.schema name) ∧
      References.Stands (hubKeys.map (·.key)) hub.rowsOf (hub.inside clearEverything) :=
  (Database.reset_iff (by decide)).1

theorem hub_reset_default :
    ∃ summary after, hub.reset hubKeys (hubResetBoundary hubGlobalTables) = .ok
      (summary, after) := by
  have ordered : References.Ordered (hubKeys.map (·.key)) hub.schema.keys := by decide
  have apart : ∀ c ∈ hubKeys, c.table = projectsTable ∨
    c.table ∉ hub.resetTables (hubResetBoundary hubGlobalTables) →
      c.referredTable ∉ hub.resetTables (hubResetBoundary hubGlobalTables) := by decide
  obtain ⟨summary, after, went, -⟩ := Database.hub_reset ordered (by decide) (by decide) apart
  exact ⟨summary, after, went⟩

end

end BlizzardMock.MockData
