import BlizzardMock.Harness.Session

namespace BlizzardMock.Harness

open JsonText Method

theorem mapM_map {α β : Type} {read : β → Option α} {write : α → β}
    (back : ∀ a, read (write a) = some a) (l : List α) :
    (l.map write).mapM read = some l := by
  induction l with
  | nil => rfl
  | cons a l ih => simp [List.mapM_cons, back, ih]

@[simp] theorem optional?_optional (s : Option String) : optional? (optional s) = some s := by
  cases s <;> rfl

theorem list?_map {α : Type} {read : Json → Option α} {write : α → Json}
    (back : ∀ a, read (write a) = some a)
    (l : List α) : list? read (.arr (l.map write)) = some l := mapM_map back l

@[simp] theorem texts_back (l : List String) : list? text? (.arr (l.map .str)) = some l :=
  have back (s : String) : text? (.str s) = some s := rfl
  list?_map back l

theorem Ask.ofJson_asdict (ask : Ask) : Ask.ofJson ask.asdict = some ask := by
  simp [Ask.ofJson, Ask.asdict, onlyFields, Json.lookup, Json.get, text?]

theorem Kind.ofJson_text (kind : Kind) : Kind.ofJson (.str kind.text) = some kind := by
  cases kind <;> rfl

theorem Invocation.ofJson_asdict (invocation : Invocation) :
    Invocation.ofJson invocation.asdict = some invocation := by
  simp [Invocation.ofJson, Invocation.asdict, onlyFields, Json.lookup, Json.get, Kind.ofJson_text]

theorem SpawnCredential.ofJson_asdict (credential : SpawnCredential) :
    SpawnCredential.ofJson credential.asdict = some credential := by
  simp [SpawnCredential.ofJson, SpawnCredential.asdict, onlyFields, Json.lookup, Json.get]

@[simp] theorem credential_back (credential : Option SpawnCredential) :
    credential? ((credential.map (·.asdict)).getD .null) = some credential := by
  cases credential with
  | none => rfl
  | some credential =>
    have back := SpawnCredential.ofJson_asdict credential
    rw [SpawnCredential.asdict] at back
    simp [SpawnCredential.asdict, credential?, back]

theorem SessionState.ofJson_asdict (state : SessionState) :
    SessionState.ofJson state.asdict = some state := by
  have asks := list?_map Ask.ofJson_asdict state.asks
  have invocations := list?_map Invocation.ofJson_asdict state.invocations
  simp [SessionState.ofJson, SessionState.asdict, onlyFields, Json.lookup, Json.get, text?,
    turns?, flag?, asks,
    invocations]

namespace SessionStore

theorem notMem_replaceDots {cs : List Char} (h : '/' ∉ cs) : '/' ∉ replaceDots cs := by
  induction cs using replaceDots.induct with
  | case1 rest ih => simp_all [replaceDots]
  | case2 c rest _ ih => simp_all [replaceDots]
  | case3 => simp [replaceDots]

theorem path_confined (sessionId : String) : '/' ∉ (path sessionId).toList := by
  have plain : '/' ∉ sessionId.toList.map fun c => if c = '/' then '_' else c := by
    simp only [List.mem_map, not_exists, not_and]
    intro c _
    split <;> simp_all
  simp [path, safe, notMem_replaceDots plain]

end SessionStore

variable [Codecs]

/-- A session that a file can hold: no one counts that many turns, and the times of asks are doubles
that are read back. -/
structure SessionState.Writable (state : SessionState) : Prop where
  turns : state.turns < 10 ^ intMaxStrDigits
  asks : ∀ ask ∈ state.asks, ReadableDouble ask.askedAt

theorem readableItems_iff {l : List Json} : ReadableItems l ↔ ∀ v ∈ l, Readable v := by
  induction l with
  | nil => simp [ReadableItems]
  | cons v l ih => simp [ReadableItems, ih]

theorem readable_optional (s : Option String) : Readable (optional s) := by
  cases s <;> trivial

theorem readable_texts (l : List String) : Readable (.arr (l.map .str)) :=
  readableItems_iff.mpr (by simp [Readable])

theorem Ask.readable {ask : Ask} (stamped : ReadableDouble ask.askedAt) : Readable ask.asdict :=
  ⟨by simp, stamped, readable_texts _, trivial, trivial⟩

theorem Invocation.readable (invocation : Invocation) : Readable invocation.asdict :=
  ⟨by simp, readable_optional _, readable_optional _, trivial, readable_optional _,
    readable_optional _, trivial⟩

theorem SpawnCredential.readable (credential : Option SpawnCredential) :
    Readable ((credential.map (·.asdict)).getD .null) := by
  cases credential with
  | none => trivial
  | some credential =>
    exact ⟨by simp, readable_optional _, readable_optional _, readable_optional _, trivial⟩

theorem SessionState.Writable.readable {state : SessionState} (writable : state.Writable) :
    Readable state.asdict := by
  have asks : Readable (.arr (state.asks.map (·.asdict))) :=
    readableItems_iff.mpr (List.forall_mem_map.mpr fun ask mem =>
      Ask.readable (writable.asks ask mem))
  have invocations : Readable (.arr (state.invocations.map (·.asdict))) :=
    readableItems_iff.mpr (List.forall_mem_map.mpr fun invocation _ => invocation.readable)
  exact ⟨by simp, asks, invocations, readable_texts _, trivial, trivial, SpawnCredential.readable _,
    writable.turns, readable_texts _, trivial⟩

theorem SessionState.fromJson_toJson {state : SessionState} (writable : state.Writable) :
    SessionState.fromJson state.toJson = .ok state := by
  simp [SessionState.fromJson, SessionState.toJson, parse_layout writable.readable,
    SessionState.ofJson_asdict, bind,
    Except.bind]

end BlizzardMock.Harness
