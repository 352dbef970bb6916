import BlizzardMock.Data.Method
import BlizzardMock.MockData.ReflectedStore
import BlizzardMock.Python.DateTime
import Mathlib.Algebra.Order.Group.Int
import Mathlib.Data.List.Basic
import Mathlib.Logic.Function.Basic

namespace BlizzardMock.MockData

section Lanes

variable [Unicode]

def Database.heldSeqs (db : Database) (key : LaneKey) : List Int :=
  ((Database.laneTables db.schema).get? key.2).elim [] fun name => db.seqsOf name key.1

def Database.start (db : Database) (key : LaneKey) : Int :=
  max ((db.counters.get? key).getD 0) ((db.heldSeqs key).max?.getD 0)

def seqs (key : LaneKey) (rows : List FactRow) : List Int :=
  (rows.filter (·.key = some key)).filterMap fun row => seqOf row.values

def Database.latest (db : Database) (key : LaneKey) (earlier : List FactRow) : Int :=
  (seqs key earlier).foldl max (db.start key)

variable {db db' : Database} {key : LaneKey} {row : FactRow}
    {earlier rows composed written : List FactRow} {issued : Dict LaneKey Int}

omit [Unicode] in
theorem le_foldl_max (l : List Int) (a : Int) : a ≤ l.foldl max a ∧ ∀ m ∈ l, m ≤ l.foldl max a := by
  induction l generalizing a with
  | nil => exact ⟨le_refl a, nofun⟩
  | cons b rest ih =>
    obtain ⟨start, each⟩ := ih (max a b)
    refine ⟨le_trans (le_max_left a b) start, fun m mem => ?_⟩
    obtain rfl | mem := List.mem_cons.mp mem
    · exact le_trans (le_max_right a m) start
    · exact each m mem

theorem Database.start_le_latest (db : Database) (key : LaneKey) (earlier : List FactRow) :
    db.start key ≤ db.latest key earlier := (le_foldl_max _ _).1

theorem Database.counted_le_start {last : Int} (h : db.counters.get? key = some last) :
    last ≤ db.start key := by
  rw [Database.start, h]
  exact le_max_left _ _

theorem Database.held_le_start {m : Int} (h : m ∈ db.heldSeqs key) : m ≤ db.start key := by
  refine le_trans ?_ (le_max_right _ _)
  cases held : db.heldSeqs key with
  | nil => rw [held] at h; cases h
  | cons n rest =>
    rw [held] at h
    obtain ⟨first, each⟩ := le_foldl_max rest n
    obtain rfl | mem := List.mem_cons.mp h
    · exact first
    · exact each m mem

theorem Database.seq_le_latest {m : Int} (h : m ∈ seqs key earlier) : m ≤ db.latest key earlier :=
  (le_foldl_max _ _).2 m h

theorem Database.latest_of_ne (h : row.key ≠ some key) :
    db.latest key (earlier ++ [row]) = db.latest key earlier := by
  simp [latest, seqs, h]

theorem Database.latest_append {m : Int} (h : row.key = some key)
    (numbered : seqOf row.values = some m) :
    db.latest key (earlier ++ [row]) = max (db.latest key earlier) m := by
  simp [latest, seqs, h, numbered]

theorem Database.latest_untouched (h : ∀ row ∈ earlier, row.key ≠ some key) :
    db.latest key earlier = db.start key := by
  have none : earlier.filter (·.key = some key) = [] :=
    List.filter_eq_nil_iff.mpr fun row mem => by simp [h row mem]
  rw [latest, seqs, none]
  rfl

@[simp] theorem FactRow.key_withSeq (row : FactRow) (seq : Int) :
    (row.withSeq seq).key = row.key := by
  have other : runnerColumn ≠ outboxSeqColumn := by decide
  simp only [key, withSeq, runnerOf, Dict.getD_set_of_ne other]

omit [Unicode] in
@[simp] theorem FactRow.seqOf_withSeq (row : FactRow) (seq : Int) :
    seqOf (row.withSeq seq).values = some seq := by
  rw [seqOf, withSeq, Dict.getD_set_self]
  rfl

theorem Database.lastIssued_spec {runner lane : String} {last : Int}
    (h : db.lastIssued runner lane = .ok last) :
    last = db.start (runner, lane) := by
  obtain ⟨held, here, same⟩ := Method.except_bind_ok h
  obtain rfl : max ((db.counters.get? (runner, lane)).getD 0) (held.getD 0) = last :=
    Except.ok.inj same
  rw [lastHeld] at here
  rw [start, heldSeqs]
  split at here
  · next none =>
    rw [none]
    cases here
    rfl
  · next name some =>
    rw [some]
    dsimp only at here
    split at here
    · cases here
    · split at here
      · cases here
      · cases here
        rfl

/-- What the counting of a write knows after some rows: the highest number of each lane these touch.
-/
structure Counts (db : Database) (earlier : List FactRow) (issued : Dict LaneKey Int) : Prop where
  untouched : ∀ key, (∀ row ∈ earlier, row.key ≠ some key) → issued.get? key = none
  touched : ∀ key, ∀ row ∈ earlier, row.key = some key →
    issued.get? key = some (db.latest key earlier)

theorem Counts.nil : Counts db [] ∅ where
  untouched _ _ := rfl
  touched _ _ := nofun

theorem Counts.pass (counts : Counts db earlier issued) (h : row.key = none) :
    Counts db (earlier ++ [row]) issued where
  untouched key none := counts.untouched key fun row mem => none row (List.mem_append_left _ mem)
  touched key row' mem here := by
    obtain mem | mem := List.mem_append.mp mem
    · rw [Database.latest_of_ne (by rw [h]; nofun)]
      exact counts.touched key row' mem here
    · obtain rfl := List.mem_singleton.mp mem
      rw [h] at here
      cases here

theorem Counts.set (counts : Counts db earlier issued) {m : Int} (h : row.key = some key)
    (numbered : seqOf row.values = some m) :
    Counts db (earlier ++ [row]) (issued.set key (max (db.latest key earlier) m)) where
  untouched key' none := by
    have other : key' ≠ key := fun same =>
      none row (List.mem_append_right _ (List.mem_singleton_self row)) (same ▸ h)
    rw [Dict.get?_set_of_ne other]
    exact counts.untouched key' fun row mem => none row (List.mem_append_left _ mem)
  touched key' row' mem here := by
    by_cases same : key' = key
    · subst same
      rw [Dict.get?_set_self, Database.latest_append h numbered]
    · rw [Dict.get?_set_of_ne same,
        Database.latest_of_ne (fun eq => same (Option.some.inj (eq.symm.trans h)))]
      obtain mem | mem := List.mem_append.mp mem
      · exact counts.touched key' row' mem here
      · obtain rfl := List.mem_singleton.mp mem
        exact absurd (Option.some.inj (here.symm.trans h)) same

theorem Counts.give (counts : Counts db earlier issued) (h : row.key = some key) :
    Counts db (earlier ++ [row.withSeq (db.latest key earlier + 1)])
      (issued.set key (db.latest key earlier + 1)) := by
  have next := counts.set ((row.key_withSeq _).trans h)
    (row.seqOf_withSeq (db.latest key earlier + 1))
  rwa [max_eq_right (Int.le_add_one (le_refl _))] at next

theorem Counts.last (counts : Counts db earlier issued) {last : Int}
    (h : lastOf db.lastIssued issued key = .ok last) : last = db.latest key earlier := by
  rw [lastOf] at h
  by_cases touched : ∃ row ∈ earlier, row.key = some key
  · obtain ⟨row, mem, here⟩ := touched
    rw [counts.touched key row mem here] at h
    exact (Except.ok.inj h).symm
  · have none : ∀ row ∈ earlier, row.key ≠ some key := fun row mem here => touched ⟨row, mem, here⟩
    rw [counts.untouched key none] at h
    rw [Database.latest_untouched none]
    exact Database.lastIssued_spec h

/-- What a write numbers, of rows that follow others: a row with a number, or of no lane, is kept;
every other is given the number next to the highest of its lane. -/
structure Numbered (db : Database) (earlier composed written : List FactRow) : Prop where
  length : written.length = composed.length
  kept : ∀ (i : Nat) row, composed[i]? = some row → row.key = none ∨ seqOf row.values ≠ none →
    written[i]? = some row
  given : ∀ (i : Nat) row key, composed[i]? = some row → row.key = some key →
    seqOf row.values = none →
    written[i]? = some (row.withSeq (db.latest key (earlier ++ written.take i) + 1))

theorem Numbered.cons {row' : FactRow}
    (rest : Numbered db (earlier ++ [row']) composed written)
    (kept : row.key = none ∨ seqOf row.values ≠ none → row' = row)
    (given : ∀ key, row.key = some key → seqOf row.values = none →
      row' = row.withSeq (db.latest key earlier + 1)) :
    Numbered db earlier (row :: composed) (row' :: written) where
  length := congrArg (· + 1) rest.length
  kept i r here h := by
    cases i with
    | zero =>
      obtain rfl : row = r := Option.some.inj here
      exact congrArg some (kept h)
    | succ i => exact rest.kept i r here h
  given i r key here h none := by
    cases i with
    | zero =>
      obtain rfl : row = r := Option.some.inj here
      rw [List.take_zero, List.append_nil]
      exact congrArg some (given key h none)
    | succ i =>
      rw [List.take_succ_cons, List.append_cons]
      exact rest.given i r key here h none

theorem assignOutboxSeqs_spec {issued' : Dict LaneKey Int} (counts : Counts db earlier issued)
    (h : assignOutboxSeqs db.lastIssued composed issued = .ok (written, issued')) :
    Numbered db earlier composed written ∧ Counts db (earlier ++ written) issued' := by
  induction composed generalizing earlier issued written with
  | nil =>
    cases h
    refine ⟨⟨rfl, nofun, nofun⟩, ?_⟩
    rw [List.append_nil]
    exact counts
  | cons row rest ih =>
    rw [assignOutboxSeqs] at h
    split at h
    · next none =>
      obtain ⟨⟨assigned, last⟩, behind, same⟩ := Method.except_bind_ok h
      cases same
      obtain ⟨numbered, counts⟩ := ih (counts.pass none) behind
      rw [List.append_cons]
      refine ⟨numbered.cons (fun _ => rfl) fun key here => ?_, counts⟩
      rw [none] at here
      cases here
    · next key here =>
      obtain ⟨last, reached, h⟩ := Method.except_bind_ok h
      obtain rfl := counts.last reached
      split at h
      · next m supplied =>
        obtain ⟨⟨assigned, last⟩, behind, same⟩ := Method.except_bind_ok h
        cases same
        obtain ⟨numbered, counts⟩ := ih (counts.set here supplied) behind
        rw [List.append_cons]
        refine ⟨numbered.cons (fun _ => rfl) fun _ _ none => ?_, counts⟩
        rw [supplied] at none
        cases none
      · next none =>
        obtain ⟨⟨assigned, last⟩, behind, same⟩ := Method.except_bind_ok h
        cases same
        obtain ⟨numbered, counts⟩ := ih (counts.give here) behind
        rw [List.append_cons]
        refine ⟨numbered.cons (fun h => ?_) fun key' same _ => ?_, counts⟩
        · obtain h | h := h
          · rw [h] at here
            cases here
          · exact absurd none h
        · obtain rfl := Option.some.inj (here.symm.trans same)
          rfl

/-- The counters after the numbering: those of the lanes touched stand at the highest number, the
others as before. -/
structure Database.Advanced (db : Database) (written : List FactRow) (db' : Database) : Prop where
  schema : db'.schema = db.schema
  held : db'.held = db.held
  untouched : ∀ key, (∀ row ∈ written, row.key ≠ some key) →
    db'.counters.get? key = db.counters.get? key
  touched : ∀ key, ∀ row ∈ written, row.key = some key →
    db'.counters.get? key = some (db.latest key written)

theorem Database.allocateOutboxSeqs_spec (counted : outboxCountersTable ∈ db.schema)
    (h : db.allocateOutboxSeqs rows = .ok (written, db')) : Numbered db [] rows written ∧
      db.Advanced written db' := by
  rw [allocateOutboxSeqs, if_neg (not_not_intro counted)] at h
  obtain ⟨⟨assigned, issued⟩, numbers, same⟩ := Method.except_bind_ok h
  cases same
  obtain ⟨numbered, counts⟩ := assignOutboxSeqs_spec Counts.nil numbers
  refine ⟨numbered, rfl, rfl, fun key none => ?_, fun key row mem here => ?_⟩
  · rw [Dict.get?_update, counts.untouched key none, Option.none_or]
  · rw [Dict.get?_update, counts.touched key row mem here, Option.some_or]
    rfl

section Inserts

variable [DbEngine]

theorem Database.insert_cases (h : db.insert row = .ok db') :
    (row.table = outboxCountersTable ∧
      ∃ key last, db.counters.get? key = none ∧
        db' = { db with counters := db.counters.set key last }) ∨
    (row.table ≠ outboxCountersTable ∧
      db' = { db with
        held := Function.update db.held row.table (db.held row.table ++ [row.values]) }) := by
  rw [insert] at h
  split at h
  · cases h
  · split at h
    · next counter =>
      rw [insertCounter] at h
      split at h
      · next runner lane last _ _ _ =>
        split at h
        · cases h
        · next absent =>
          cases h
          exact .inl ⟨counter, (runner, lane), last, Dict.not_mem_iff.mp absent, rfl⟩
      · cases h
    · next other =>
      cases h
      exact .inr ⟨other, rfl⟩

structure Database.Filled (db : Database) (rows : List FactRow) (db' : Database) : Prop where
  schema : db'.schema = db.schema
  held : ∀ name ≠ outboxCountersTable,
    db'.held name = db.held name ++ (rows.filter (·.table = name)).map (·.values)
  counters : ∀ key last, db.counters.get? key = some last → db'.counters.get? key = some last

theorem Database.inserts_spec (h : rows.foldlM insert db = .ok db') : db.Filled rows db' := by
  induction rows generalizing db with
  | nil =>
    cases h
    exact ⟨rfl, fun _ _ => (List.append_nil _).symm, fun _ _ => id⟩
  | cons row rest ih =>
    rw [List.foldlM_cons] at h
    obtain ⟨mid, first, behind⟩ := Method.except_bind_ok h
    have filled := ih behind
    obtain ⟨counter, key, last, absent, rfl⟩ | ⟨other, rfl⟩ := insert_cases first
    · refine ⟨filled.schema, fun name other => ?_, fun key' last' here => ?_⟩
      · rw [filled.held name other, List.filter_cons_of_neg (by simpa [counter] using other.symm)]
      · refine filled.counters key' last' ?_
        rw [Dict.get?_set_of_ne (fun same => by rw [same, absent] at here; cases here)]
        exact here
    · refine ⟨filled.schema, fun name here => ?_, filled.counters⟩
      rw [filled.held name here]
      dsimp only
      by_cases same : row.table = name
      · subst same
        rw [Function.update_self,
          List.filter_cons_of_pos (by simp), List.map_cons, List.append_assoc]
        rfl
      · rw [Function.update_of_ne (Ne.symm same), List.filter_cons_of_neg (by simpa using same)]

end Inserts

omit [Unicode] in
theorem filter_groups (rows : List FactRow) {names : List String} (nodup : names.Nodup)
    (name : String) :
    (names.flatMap fun name => rows.filter (·.table = name)).filter (·.table = name) =
      if name ∈ names then rows.filter (·.table = name) else [] := by
  induction names with
  | nil => rfl
  | cons first rest ih =>
    obtain ⟨fresh, nodup⟩ := List.nodup_cons.mp nodup
    rw [List.flatMap_cons, List.filter_append, ih nodup, List.filter_filter]
    by_cases here : first = name
    · subst here
      simp [fresh]
    · have none : rows.filter (fun row =>
        decide (row.table = name) && decide (row.table = first)) = [] := by
        refine List.filter_eq_nil_iff.mpr fun row _ both => ?_
        obtain ⟨one, other⟩ := Bool.and_eq_true_iff.mp both
        exact here ((of_decide_eq_true other).symm.trans (of_decide_eq_true one))
      simp [none, Ne.symm here]

theorem table_of_checkDrift {schema : Schema} (h : checkDrift schema rows = .ok ()) :
    ∀ row ∈ rows, row.table ∈ schema := by
  induction rows with
  | nil => nofun
  | cons first rest ih =>
    obtain ⟨⟨⟩, here, behind⟩ := Method.except_bind_ok h
    intro row mem
    obtain rfl | mem := List.mem_cons.mp mem
    · unfold checkRow at here
      split at here
      · cases here
      · next table found => exact Dict.mem_iff.mpr ⟨table, found⟩
    · exact ih behind row mem

structure Database.Wrote (db : Database) (composed written : List FactRow) (db' : Database) :
    Prop where
  schema : db'.schema = db.schema
  numbered : Numbered db [] composed written
  held : ∀ name ≠ outboxCountersTable,
    db'.held name = db.held name ++ (written.filter (·.table = name)).map (·.values)
  touched : ∀ key, ∀ row ∈ written, row.key = some key →
    db'.counters.get? key = some (db.latest key written)
  untouched : ∀ key, (∀ row ∈ written, row.key ≠ some key) →
    ∀ last, db.counters.get? key = some last → db'.counters.get? key = some last

/-- What a write does to the lanes. -/
structure Database.Allocates (db : Database) (composed written : List FactRow) (db' : Database) :
    Prop where
  length : written.length = composed.length
  /-- Rows of other tables, and rows that come with a number, are written as they are. -/
  kept : ∀ (i : Nat) row, composed[i]? = some row → row.key = none ∨ seqOf row.values ≠ none →
    written[i]? = some row
  /-- A row without a number gets the next one: one past the highest that its lane held, had
  counted, or was given or came with earlier in the write. -/
  given : ∀ (i : Nat) row key, composed[i]? = some row → row.key = some key →
    seqOf row.values = none →
    ∃ n, written[i]? = some (row.withSeq n) ∧ (∀ m ∈ db.heldSeqs key, m < n) ∧
      (∀ last, db.counters.get? key = some last → last < n) ∧
        (∀ m ∈ seqs key (written.take i), m < n) ∧
      n = db.latest key (written.take i) + 1
  held : ∀ name ≠ outboxCountersTable,
    db'.held name = db.held name ++ (written.filter (·.table = name)).map (·.values)
  /-- The counter of a lane that is touched is past every number that the lane holds. -/
  counted : ∀ key, (∃ row ∈ composed, row.key = some key) →
    ∃ last, db'.counters.get? key = some last ∧ ∀ m ∈ db'.heldSeqs key, m ≤ last
  apart : ∀ key, (∀ row ∈ composed, row.key ≠ some key) → db'.heldSeqs key = db.heldSeqs key ∧
    ∀ last, db.counters.get? key = some last → db'.counters.get? key = some last
  rises : ∀ key last, db.counters.get? key = some last → ∃ last',
    db'.counters.get? key = some last' ∧ last ≤ last'

theorem Numbered.keys (numbered : Numbered db earlier composed written) :
    written.map (·.key) = composed.map (·.key) := by
  refine List.ext_getElem? fun i => ?_
  rw [List.getElem?_map, List.getElem?_map]
  cases here : composed[i]? with
  | none =>
    have past : composed.length ≤ i := List.getElem?_eq_none_iff.mp here
    rw [List.getElem?_eq_none (numbered.length ▸ past)]
  | some row =>
    by_cases kept : row.key = none ∨ seqOf row.values ≠ none
    · rw [numbered.kept i row here kept]
    · obtain ⟨keyed, none⟩ := not_or.mp kept
      obtain ⟨key, keyed⟩ := Option.ne_none_iff_exists'.mp keyed
      rw [numbered.given i row key here keyed (not_not.mp none), Option.map_some,
        FactRow.key_withSeq, Option.map_some]

theorem Numbered.touched_iff (numbered : Numbered db earlier composed written) :
    (∃ row ∈ written, row.key = some key) ↔ ∃ row ∈ composed, row.key = some key := by
  rw [← List.mem_map, ← List.mem_map, numbered.keys]

omit [Unicode] in
theorem lane_of_laneTables {schema : Schema} {lane name : String}
    (h : (Database.laneTables schema).get? lane = some name) :
    outboxLanes.get? name = some lane := by
  obtain ⟨entry, mem, same⟩ := List.mem_map.mp (Dict.mem_of_get?_ofList h)
  cases same
  exact Dict.mem_entries.mp (List.mem_filter.mp mem).1

theorem Database.Wrote.heldSeqs (wrote : db.Wrote composed written db') (key : LaneKey) :
    ∃ fresh, db'.heldSeqs key = db.heldSeqs key ++ fresh ∧ ∀ m ∈ fresh, m ∈ seqs key written := by
  rw [Database.heldSeqs, Database.heldSeqs, wrote.schema]
  cases table : (laneTables db.schema).get? key.2 with
  | none => exact ⟨[], rfl, nofun⟩
  | some name =>
    have lane := lane_of_laneTables table
    have other : name ≠ outboxCountersTable := fun same => by rw [same] at lane; cases lane
    refine ⟨_, by rw [Option.elim_some, Option.elim_some, seqsOf, seqsOf, wrote.held name other,
      List.filter_append, List.filterMap_append], fun m mem => ?_⟩
    obtain ⟨values, mem, numbered⟩ := List.mem_filterMap.mp mem
    obtain ⟨mapped, runner⟩ := List.mem_filter.mp mem
    obtain ⟨row, filtered, rfl⟩ := List.mem_map.mp mapped
    obtain ⟨mem, here⟩ := List.mem_filter.mp filtered
    have keyed : row.key = some key := by
      rw [FactRow.key, of_decide_eq_true here, lane, of_decide_eq_true runner]
      rfl
    exact List.mem_filterMap.mpr ⟨row, List.mem_filter.mpr ⟨mem, decide_eq_true keyed⟩, numbered⟩

theorem Database.Wrote.allocates (wrote : db.Wrote composed written db') :
    db.Allocates composed written db' where
  length := wrote.numbered.length
  kept := wrote.numbered.kept
  given i row key here keyed none := by
    have upTo : ∀ m ≤ db.latest key (written.take i), m < db.latest key (written.take i) + 1 :=
      fun m => Int.lt_add_one_iff.mpr
    refine ⟨_, wrote.numbered.given i row key here keyed none, fun m mem =>
      upTo m ?_, fun last held => upTo last ?_,
      fun m mem => upTo m (seq_le_latest mem), rfl⟩
    · exact le_trans (held_le_start mem) (db.start_le_latest key _)
    · exact le_trans (counted_le_start held) (db.start_le_latest key _)
  held := wrote.held
  counted key touched := by
    obtain ⟨row, mem, keyed⟩ := wrote.numbered.touched_iff.mpr touched
    refine ⟨_, wrote.touched key row mem keyed, fun m mem => ?_⟩
    obtain ⟨fresh, held, numbers⟩ := wrote.heldSeqs key
    rw [held] at mem
    obtain old | new := List.mem_append.mp mem
    · exact le_trans (held_le_start old) (db.start_le_latest key written)
    · exact seq_le_latest (numbers m new)
  apart key none := by
    have none' : ∀ row ∈ written, row.key ≠ some key := fun row mem keyed => by
      obtain ⟨row, mem, keyed⟩ := wrote.numbered.touched_iff.mp ⟨row, mem, keyed⟩
      exact none row mem keyed
    obtain ⟨fresh, held, numbers⟩ := wrote.heldSeqs key
    have empty : fresh = [] := by
      refine List.eq_nil_iff_forall_not_mem.mpr fun m mem => ?_
      obtain ⟨row, mem, -⟩ := List.mem_filterMap.mp (numbers m mem)
      obtain ⟨mem, keyed⟩ := List.mem_filter.mp mem
      exact none' row mem (of_decide_eq_true keyed)
    rw [held, empty, List.append_nil]
    exact ⟨rfl, wrote.untouched key none'⟩
  rises key last here := by
    by_cases touched : ∃ row ∈ written, row.key = some key
    · obtain ⟨row, mem, keyed⟩ := touched
      exact ⟨_, wrote.touched key row mem keyed,
        le_trans (counted_le_start here) (db.start_le_latest key written)⟩
    · exact ⟨last, wrote.untouched key (fun row mem keyed => touched ⟨row, mem, keyed⟩) last here,
        le_refl last⟩

section Runs

variable [DbEngine]

theorem Database.write_spec {composed : Write} (counted : outboxCountersTable ∈ db.schema)
    (h : db.write composed = .ok db') :
    ∃ written, db.Wrote (composed.stamped db.schema) written db' := by
  rw [write] at h
  split at h
  · next empty =>
    cases h
    have none : composed.stamped db.schema = [] := by
      rw [Write.stamped, stampRows, List.isEmpty_iff.mp empty]
      rfl
    rw [none]
    exact ⟨[], rfl, ⟨rfl, nofun, nofun⟩, fun _ _ =>
      (List.append_nil _).symm, nofun, fun _ _ _ => id⟩
  · obtain ⟨-, -, h⟩ := Method.except_bind_ok h
    obtain ⟨⟨written, mid⟩, allocated, h⟩ := Method.except_bind_ok h
    obtain ⟨⟨⟩, drift, h⟩ := Method.except_bind_ok h
    obtain ⟨numbered, advanced⟩ := allocateOutboxSeqs_spec counted allocated
    have filled := inserts_spec h
    have tables := table_of_checkDrift drift
    have nodup : mid.schema.keys.Nodup := mid.schema.nodup
    refine ⟨written, filled.schema.trans advanced.schema, numbered, fun name other =>
      ?_, fun key row mem here => ?_,
      fun key none last here => ?_⟩
    · rw [filled.held name other, filter_groups written nodup, advanced.held]
      split
      · rfl
      · next absent =>
        have none : written.filter (·.table = name) = [] := by
          refine List.filter_eq_nil_iff.mpr fun row mem here => absent ?_
          obtain ⟨table, found⟩ := Dict.mem_iff.mp (tables row mem)
          exact of_decide_eq_true here ▸ Dict.mem_keys_of_get? found
        rw [none]
    · exact filled.counters key _ (advanced.touched key row mem here)
    · exact filled.counters key last ((advanced.untouched key none).trans here)

theorem Database.writes_schema {writes : List Write} (counted : outboxCountersTable ∈ db.schema)
    (h : db.writes writes = .ok db') : db'.schema = db.schema := by
  induction writes generalizing db with
  | nil =>
    cases h
    rfl
  | cons first rest ih =>
    obtain ⟨mid, here, behind⟩ := Method.except_bind_ok ((List.foldlM_cons ..).symm.trans h)
    obtain ⟨written, wrote⟩ := write_spec counted here
    exact (ih (wrote.schema ▸ counted) behind).trans wrote.schema

/-- Over successful writes no counter falls, and each numbers its rows past all that their lanes
held or had counted before it. -/
theorem Database.writes_allocate {composed : List Write} (counted : outboxCountersTable ∈ db.schema)
    (h : db.writes composed = .ok db') :
    (∀ key last, db.counters.get? key = some last → ∃ last', db'.counters.get? key = some last' ∧
      last ≤ last') ∧
    ∀ before write after, composed = before ++ write :: after →
      ∃ s t written, db.writes before = .ok s ∧ s.write write = .ok t ∧ t.writes after = .ok db' ∧
        s.Allocates (write.stamped s.schema) written t := by
  constructor
  · intro key last here
    induction composed generalizing db last with
    | nil =>
      cases h
      exact ⟨last, here, le_refl last⟩
    | cons first rest ih =>
      obtain ⟨mid, wrote, behind⟩ := Method.except_bind_ok ((List.foldlM_cons ..).symm.trans h)
      obtain ⟨written, wrote⟩ := write_spec counted wrote
      obtain ⟨risen, held, up⟩ := wrote.allocates.rises key last here
      obtain ⟨last', found, further⟩ := ih (wrote.schema ▸ counted) behind risen held
      exact ⟨last', found, le_trans up further⟩
  · rintro before write after rfl
    rw [writes, List.foldlM_append] at h
    obtain ⟨s, first, h⟩ := Method.except_bind_ok h
    obtain ⟨t, here, behind⟩ := Method.except_bind_ok ((List.foldlM_cons ..).symm.trans h)
    have counted' : outboxCountersTable ∈ s.schema := writes_schema counted first ▸ counted
    obtain ⟨written, wrote⟩ := write_spec counted' here
    exact ⟨s, t, written, first, here, behind, wrote.allocates⟩

end Runs

end Lanes

section

attribute [local instance] Platform.plain

abbrev DbEngine.keyed : DbEngine where
  refuses db row :=
    if (runnerOf row.values).any fun runner =>
      (seqOf row.values).any (· ∈ db.seqsOf row.table runner) then
      some "UNIQUE constraint failed: outbound_buffer.runner_id, outbound_buffer.seq"
    else none
  counterKey := "UNIQUE constraint failed: outbox_counters.runner_id, outbox_counters.lane"

attribute [local instance] DbEngine.keyed

def column : ReflectedColumn where
  nullable := false
  hasDefault := false
  isAutoincrementPk := false

def pruned : Database where
  schema := .ofList [
    ("outbox_counters", ⟨.ofList [("runner_id", column), ("lane", column), ("last_seq", column)]⟩),
    ("outbound_buffer", ⟨.ofList [("seq", column), ("kind", column), ("runner_id", column)]⟩)]
  held := Function.update (fun _ => []) "outbound_buffer"
    [.ofList [("seq", .int 9), ("kind", .str "question.asked"), ("runner_id", .str "runner_a")]]
  counters := .ofList [(("runner_a", "outbound"), 7)]

def asked (seq : Option Int) : FactRow where
  table := "outbound_buffer"
  values := .ofList (("kind", .str "question.asked") :: seq.toList.map fun seq => ("seq", .int seq))

def mixed : Database.Write where
  rows := [asked none, asked (some 20), asked none]
  stamps := ⟨none, none, some "runner_a"⟩
  mintScopeId _ := ""

def filled : Database := (pruned.writes [mixed]).toOption.getD pruned

theorem writes_allocate_mixed : filled.heldSeqs ("runner_a", "outbound") = [9, 10, 20, 21] ∧
    ∀ before write after, [mixed] = before ++ write :: after →
      ∃ s t written, pruned.writes before = .ok s ∧ s.write write = .ok t ∧
        t.writes after = .ok filled ∧
        s.Allocates (write.stamped s.schema) written t :=
  ⟨rfl, (Database.writes_allocate (by decide) (show pruned.writes [mixed] = .ok filled from rfl)).2⟩

end

end BlizzardMock.MockData
