import BlizzardMock.Harness.OpenCode2.Store

namespace BlizzardMock.OpenCode2.Store

theorem bind_found {α β : Type} {x : Option α} {a : α} (found : x = some a) (f : α → Option β) :
    (x >>= f) = f a := by
  rw [found]
  rfl

theorem asObjects_map (items : List Fields) : asObjects (.arr (items.map .obj)) = some items := by
  rw [asObjects, List.mapM_map]
  induction items with
  | nil => rfl
  | cons item items ih => simp [asObject, ih]

theorem orDefault_obj {key : String} {fields metadata : Fields}
    (held : Json.lookup key fields = some (.obj metadata)) :
    orDefault asObject [] key fields = some metadata := by
  rw [orDefault, held]
  cases metadata <;> rfl

theorem orDefault_arr {key : String} {fields : Fields} {items : List Fields}
    (held : Json.lookup key fields = some (.arr (items.map .obj))) :
    orDefault asObjects [] key fields = some items := by
  rw [orDefault, held]
  cases items with
  | nil => rfl
  | cons item items => exact asObjects_map (item :: items)

theorem optional_text {key : String} {fields : Fields} {text : Option String}
    (held : Json.lookup key fields = some (text.elim .null .str)) :
    optional asText key fields = some text := by
  rw [optional, held]
  cases text <;> rfl

theorem optional_some {key : String} {fields : Fields} {text : Option String}
    (held : Json.lookup key fields = text.map .str) : optional asText key fields = some text := by
  rw [optional, held]
  cases text <;> rfl

section Reloading

variable [Floating]

namespace Session

variable (session : Session)

def reloaded : Session := { session with model := some session.effectiveModel, running := false }

@[simp] theorem record_reloaded : session.reloaded.record = session.record := rfl

theorem lookup_parentId : Json.lookup "parentID" session.record = session.parentId.map .str := by
  cases h : session.parentId <;> cases h' : session.outcome <;> cases h'' : session.agent <;>
    simp [record, Json.lookup, h, h', h'']

theorem lookup_outcome : Json.lookup "outcome" session.record = session.outcome.map .str := by
  cases h : session.parentId <;> cases h' : session.outcome <;> cases h'' : session.agent <;>
    simp [record, Json.lookup, h, h', h'']

theorem lookup_agent : Json.lookup "agent" session.record = session.agent.map .str := by
  cases h : session.parentId <;> cases h' : session.outcome <;> cases h'' : session.agent <;>
    simp [record, Json.lookup, h, h', h'']

def time : Fields :=
  [("created", .int session.created), ("updated", .int session.updated)] ++
    (session.idleAt.map fun at' => ("idle", .int at')).toList

omit [Floating] in
theorem optional_idle : optional asInt "idle" session.time = some session.idleAt := by
  cases h : session.idleAt <;> simp [time, optional, Json.lookup, asInt, h]

theorem load_stored : load session.stored = some session.reloaded := by
  have record : required asObject "record" session.stored = some session.record := rfl
  have location : required asObject "location" session.record =
    some [("directory", .str session.directory)] := rfl
  have time : required asObject "time" session.record = some session.time := rfl
  have id : required asText "id" session.record = some session.id := rfl
  have directory : required asText "directory" [("directory", .str session.directory)] =
    some session.directory := rfl
  have metadata : orDefault asObject [] "metadata" session.record = some session.metadata :=
    orDefault_obj rfl
  have permissions : orDefault asObjects [] "permissions" session.record =
    some session.permissions :=
    orDefault_arr rfl
  have model : optional asObject "model" session.record = some (some session.effectiveModel) := rfl
  have title : optional asText "title" session.record = some session.title := optional_text rfl
  have agent : optional asText "agent" session.record = some session.agent :=
    optional_some session.lookup_agent
  have parentId : optional asText "parentID" session.record = some session.parentId :=
    optional_some session.lookup_parentId
  have created : required asInt "created" session.time = some session.created := rfl
  have updated : required asInt "updated" session.time = some session.updated := rfl
  have outcome : optional asText "outcome" session.record = some session.outcome :=
    optional_some session.lookup_outcome
  have messages : orDefault asObjects [] "messages" session.stored = some session.messages :=
    orDefault_arr rfl
  have current : optional asText "current" session.stored = some session.current :=
    optional_text rfl
  -- one reader after another, in the order they read in
  refine (bind_found record _).trans <| (bind_found location _).trans <|
    (bind_found time _).trans <|
    (bind_found id _).trans <| (bind_found directory _).trans <| (bind_found metadata _).trans <|
    (bind_found permissions _).trans <| (bind_found model _).trans <| (bind_found title _).trans <|
    (bind_found agent _).trans <| (bind_found parentId _).trans <| (bind_found created _).trans <|
    (bind_found updated _).trans <| (bind_found session.optional_idle _).trans <|
      (bind_found outcome _).trans <|
    (bind_found messages _).trans <| (bind_found current _).trans rfl

end Session

namespace Engine

variable (engine : Engine)

theorem mapM_stored (sessions : List Session) :
    (sessions.map fun session => session.stored).mapM (fun item => do
      return (← Session.load item, (Json.get item "running" .null).truthy)) =
    some (sessions.map fun session => (session.reloaded, session.running)) := by
  induction sessions with
  | nil => rfl
  | cons session rest ih =>
    have running : (Json.get session.stored "running" .null).truthy = session.running := rfl
    rw [List.map_cons, List.mapM_cons, ih, Session.load_stored, running]
    rfl

theorem asObjects_stored (sessions : List Session) :
    asObjects (.arr (sessions.map fun session => .obj session.stored)) =
      some (sessions.map fun session => session.stored) := by
  have mapped := asObjects_map (sessions.map fun session => session.stored)
  rwa [List.map_map] at mapped

omit [Floating] in
theorem nodup_reloaded : ((engine.sessions.rows.map Session.reloaded).map Session.id).Nodup := by
  rw [List.map_map]
  exact engine.sessions.nodup_rows

theorem load_save : ∃ loaded, load (some engine.save) =
      some (loaded, (engine.sessions.rows.filter (·.running)).map Session.reloaded) ∧
    loaded.sessions.rows = engine.sessions.rows.map Session.reloaded ∧
    loaded.restartedByLever = engine.restartedByLever := by
  have held : Json.lookup "sessions" [("restarted_by_lever", Json.bool engine.restartedByLever),
      ("sessions", .arr (engine.sessions.rows.map fun session => .obj session.stored))] =
        some (.arr (engine.sessions.rows.map fun session => .obj session.stored)) := rfl
  have entries := mapM_stored engine.sessions.rows
  simp only [Option.bind_eq_bind] at entries
  simp only [load, save, held, asObjects_stored, Option.bind_eq_bind, Option.bind_some, entries]
  refine ⟨_, congrArg some (Prod.ext rfl ?_), ?_, rfl⟩
  · simp [List.filter_map, Function.comp_def]
  · rw [List.foldl_map]
    have filed := Table.rows_foldl_put_empty engine.nodup_reloaded
    rwa [List.foldl_map] at filed

omit [Floating] in
theorem mem_running {session : Session} (mem : session ∈ engine.sessions.rows) :
    session.id ∈ ((engine.sessions.rows.filter (·.running)).map Session.reloaded).map (·.id) ↔
      session.running = true := by
  simp only [List.map_map, List.mem_map, List.mem_filter, Function.comp_apply]
  constructor
  · rintro ⟨row, ⟨held, running⟩, same⟩
    have here := Table.mem_rows.mp mem
    rw [← show row.id = session.id from same, Table.mem_rows.mp held] at here
    exact Option.some.inj here ▸ running
  · exact fun running => ⟨session, ⟨mem, running⟩, rfl⟩

/-- A service that is loaded from the file of another has its sessions, in their order, each with
its record and its messages, and is told to resume those that ran, with their current prompts.  Its
own file is the same but that no session is marked as running, until those it resumes are. -/
theorem reloads (engine : Engine) : ∃ loaded interrupted,
    load (some engine.save) = some (loaded, interrupted) ∧
    (loaded.sessions.rows.map fun session => (session.id, session.record, session.messages)) =
      engine.sessions.rows.map (fun session => (session.id, session.record, session.messages)) ∧
    (∀ session ∈ interrupted, session ∈ loaded.sessions.rows) ∧
    (interrupted.map fun session => (session.id, session.current)) =
      (engine.sessions.rows.filter (·.running)).map (fun session => (session.id, session.current)) ∧
    loaded.restartedByLever = engine.restartedByLever ∧
    (loaded.sessions.rows.map fun session => session.stored) =
      engine.sessions.rows.map (fun session =>
        ({ session with running := false } : Session).stored) ∧
    (loaded.sessions.rows.map fun session =>
      ({ session with running := decide (session.id ∈ interrupted.map (·.id)) } : Session).stored) =
        engine.sessions.rows.map fun session => session.stored := by
  obtain ⟨loaded, read, rows, lever⟩ := engine.load_save
  refine ⟨loaded, _, read, ?_, ?_, ?_, lever, ?_, ?_⟩
  · rw [rows, List.map_map]
    rfl
  · intro session mem
    obtain ⟨row, held, rfl⟩ := List.mem_map.mp mem
    rw [rows]
    exact List.mem_map_of_mem (List.mem_of_mem_filter held)
  · rw [List.map_map]
    rfl
  · rw [rows, List.map_map]
    rfl
  · rw [rows, List.map_map]
    apply List.map_congr_left
    intro session mem
    have marked : decide (session.reloaded.id ∈
        ((engine.sessions.rows.filter (·.running)).map Session.reloaded).map (·.id)) =
          session.running := by
      rw [Bool.eq_iff_iff, decide_eq_true_iff]
      exact engine.mem_running mem
    simp only [Function.comp_apply, marked]
    rfl

end Engine

end Reloading

section Runs

@[reducible] def Floating.exact : Floating where
  add
    | .finite _ p, .finite _ q => .finite (toString (p + q)) (p + q)
    | _, _ => .nan
  ofInt n := .finite (toString n ++ ".0") n

attribute [local instance] Floating.exact

def busy : Engine where
  sessions := (∅ : Table Session.id).put
    { id := "a", directory := "/", metadata := [], permissions := [], model := none,
      title := some "t",
      agent := none, created := 1, updated := 2, running := true, current := some "go" }

def marks : Json → List Bool
  | .obj [_, (_, .arr items)] =>
    items.map fun item =>
      match item with
      | .obj fields => (Json.get fields "running" .null).truthy
      | _ => false
  | _ => []

theorem reload_clears_marks : ∃ loaded interrupted,
    Engine.load (some busy.save) = some (loaded, interrupted) ∧ marks busy.save = [true] ∧
      marks loaded.save = [false] ∧ loaded.save ≠ busy.save :=
  ⟨_, _, rfl, rfl, rfl, fun same => absurd (congrArg marks same) (by decide)⟩

end Runs

end BlizzardMock.OpenCode2.Store
