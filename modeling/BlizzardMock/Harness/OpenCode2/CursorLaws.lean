import BlizzardMock.Harness.OpenCode2.Cursors
import BlizzardMock.Python.JsonTextLaws

namespace BlizzardMock.OpenCode2.Store

open JsonText

section Decoding

variable [Codecs]

theorem decodeCursor_encodeCursor (messageId order : String) :
    decodeCursor (encodeCursor messageId order) = .ok (messageId, order) := by
  have octets : ∀ b ∈ (compact [("id", messageId), ("order", order),
    ("direction", "next")]).toList.map Char.toNat,
      b < 256 := by
    intro b mem
    obtain ⟨c, at', rfl⟩ := List.mem_map.mp mem
    exact Nat.lt_trans (ascii_compact _ c at').2 (by decide)
  have read : decoded (encodeCursor messageId order) = .ok (messageId, order, .str "next") := by
    simp only [decoded, encodeCursor, String.toList_ofList, Base64.pad_strip octets,
      Base64.decode_encode octets,
      loads_compact (List.cons_ne_nil _ _)]
    rfl
  rw [decodeCursor, read]
  rfl

/-- The errors `decode_cursor` catches. -/
def Caught (e : Raised) : Prop :=
  e = .codec (.raised .valueError) ∨ e = .codec (.raised .typeError) ∨ ∃ key, e = .keyError key

omit [Codecs] in
theorem item_error {key : String} {value : Json} {e : Raised} (h : item key value = .error e) :
    Caught e := by
  unfold item at h
  split at h
  · split at h
    · cases h
    · cases h
      exact .inr (.inr ⟨key, rfl⟩)
  · cases h
    exact .inr (.inl rfl)

theorem parts_error {value : Json} {e : Raised} (h : parts value = .error e) : Caught e := by
  unfold parts at h
  cases first : item "id" value with
  | error e' =>
    rw [first] at h
    cases h
    exact item_error first
  | ok messageId =>
    cases second : item "order" value with
    | error e' =>
      rw [first, second] at h
      cases h
      exact item_error second
    | ok order =>
      cases third : item "direction" value with
      | error e' =>
        rw [first, second, third] at h
        cases h
        exact item_error third
      | ok direction =>
        rw [first, second, third] at h
        cases h

theorem decoded_error {cursor : String} {e : Raised} (h : decoded cursor = .error e) :
    Caught e := by
  unfold decoded at h
  split at h
  · rename_i refused
    cases h
    rw [Base64.decode_error refused]
    exact .inl rfl
  · split at h
    · rename_i refused
      cases h
      rw [loads_error refused]
      exact .inl rfl
    · exact parts_error h

theorem decodeCursor_total (cursor : String) :
    (∃ pair, decodeCursor cursor = .ok pair) ∨ ∃ text,
      decodeCursor cursor = .error (.invalidCursor text) := by
  unfold decodeCursor
  split
  · exact .inl ⟨_, rfl⟩
  · exact .inr ⟨_, rfl⟩
  · exact .inr ⟨_, rfl⟩
  · exact .inr ⟨_, rfl⟩
  · exact .inr ⟨_, rfl⟩
  · rename_i e value type key refused
    rcases decoded_error refused with rfl | rfl | ⟨key', rfl⟩
    · exact absurd rfl value
    · exact absurd rfl type
    · exact absurd rfl (key key')

end Decoding

/-- Every message has an id, and no two have the same. -/
structure Identified (messages : List Fields) : Prop where
  named : ∀ message ∈ messages, (messageId message).isSome
  once : (messages.map messageId).Nodup

section Listing

variable {messages more front back : List Fields} {edge : Fields} {id order : String}

theorem Identified.perm {others : List Fields} (h : Identified messages)
    (same : messages.Perm others) :
    Identified others where
  named message mem := h.named message (same.mem_iff.mpr mem)
  once := (same.map messageId).nodup_iff.mp h.once

theorem Identified.sublist {others : List Fields} (h : Identified messages)
    (part : others.Sublist messages) :
    Identified others where
  named message mem := h.named message (part.mem mem)
  once := h.once.sublist (part.map messageId)

theorem item_id {message : Fields} (named : messageId message = some id) :
    item "id" (.obj message) = .ok (.str id) := by
  unfold messageId at named
  cases found : Json.lookup "id" message with
  | none =>
    rw [found] at named
    cases named
  | some value =>
    rw [found] at named
    cases value <;> cases named
    simp only [item, found]

theorem perm_listed (order : String) (messages : List Fields) :
    messages.Perm (listed order messages) := by
  unfold listed
  split
  · exact messages.reverse_perm.symm
  · exact .rfl

def fresh (order : String) (more : List Fields) : List Fields := if order = "desc" then [] else more

theorem fresh_append (order : String) (more later : List Fields) :
    fresh order (more ++ later) = fresh order more ++ fresh order later := by
  unfold fresh
  split <;> rfl

theorem fresh_first (order : String) (more : List Fields) : fresh order more <+: more := by
  unfold fresh
  split
  · exact List.nil_prefix
  · exact List.prefix_rfl

theorem listed_append (order : String) (messages more : List Fields) :
    ∃ before, listed order (messages ++ more) = before ++ listed order messages ++
      fresh order more := by
  unfold listed fresh
  split
  · exact ⟨more.reverse, by simp⟩
  · exact ⟨[], rfl⟩

theorem behind_edge (h : Identified (front ++ edge :: back)) (named : messageId edge = some id) :
    behind (some id) (front ++ edge :: back) = back := by
  have other : front.findIdx? (fun message => messageId message = some id) = none := by
    rw [List.findIdx?_eq_none_iff]
    intro message mem
    have once := h.once
    rw [List.map_append, List.map_cons] at once
    have apart := List.disjoint_of_nodup_append once (List.mem_map_of_mem mem)
    rw [decide_eq_false_iff_not]
    intro same
    rw [same, ← named] at apart
    exact apart List.mem_cons_self
  have found : (front ++ edge :: back).findIdx? (fun message => messageId message = some id) =
    some front.length := by
    rw [List.findIdx?_append, other, List.findIdx?_cons, if_pos (decide_eq_true named)]
    simp
  simp only [behind, found]
  rw [List.append_cons, List.drop_left' (by simp)]

theorem chosen_chosen (order : Option String) : chosen (some (chosen order)) = chosen order := by
  have some' : chosen order ≠ "" := by
    unfold chosen
    split
    · decide
    · split
      · decide
      · assumption
  change (if chosen order = "" then "asc" else chosen order) = chosen order
  rw [if_neg some']

theorem paged_nil [Unicode] (order : String) (size : Nat) : paged order size [] = .ok ([], {}) := by
  simp [paged]

theorem paged_some [Unicode] {size : Nat} (one : 1 ≤ size) (some' : messages ≠ [])
    (named : ∀ message ∈ messages, (messageId message).isSome) (order : String) :
    ∃ init edge id cursors, messages.take size = init ++ [edge] ∧ messageId edge = some id ∧
      paged order size messages = .ok (messages.take size, cursors) ∧
      cursors.next = some (encodeCursor id order) := by
  have page : messages.take size ≠ [] := by
    simp only [ne_eq, List.take_eq_nil_iff, not_or]
    exact ⟨by omega, some'⟩
  have identified {message : Fields} (mem : message ∈ messages.take size) :
    ∃ id, messageId message = some id :=
    Option.isSome_iff_exists.mp (named message (List.mem_of_mem_take mem))
  obtain ⟨first, firstId⟩ := identified (List.head_mem page)
  obtain ⟨last, lastId⟩ := identified (List.getLast_mem page)
  refine ⟨_, _, last,
    { previous := some (encodeCursor first order "previous"),
      next := some (encodeCursor last order) },
    (List.dropLast_append_getLast page).symm, lastId, ?_, rfl⟩
  simp only [paged, List.head?_eq_some_head page, List.getLast?_eq_some_getLast page,
    item_id firstId,
    item_id lastId, bind, Except.bind]
  rfl

end Listing

namespace Engine

variable [Codecs] {engine : Engine} {sessionId : String} {session : Session}
    {order cursor : Option String}
  {back more : List Fields} {limit : Option Int}

/-- A limit a listing serves. -/
def Fits (limit : Option Int) : Prop := ∀ n, limit = some n → 1 ≤ n ∧ n ≤ 200

omit [Codecs] in
theorem Fits.size (fits : Fits limit) :
    1 ≤ limit.getD defaultPageLimit ∧ limit.getD defaultPageLimit ≤ maxPageLimit := by
  cases limit with
  | none => decide
  | some n => exact fits n rfl

/-- What a caller stands before: the messages a listing of its cursor pages next. -/
structure Stands (engine : Engine) (sessionId order : String) (asked cursor : Option String)
    (session : Session)
    (back : List Fields) : Prop where
  found : engine.sessions.get? sessionId = some session
  rest : ∃ front, listed order session.messages = front ++ back
  serves : ∀ limit, Fits limit → engine.messages sessionId asked limit cursor =
    paged order (limit.getD defaultPageLimit).toNat back

omit [Codecs] in
theorem get_of_found (found : engine.sessions.get? sessionId = some session) :
    engine.get sessionId = .ok session := by
  rw [get, found]

theorem stands_first (found : engine.sessions.get? sessionId = some session)
    (order : Option String) :
    Stands engine sessionId (chosen order) order none session
      (listed (chosen order) session.messages) where
  found := found
  rest := ⟨[], rfl⟩
  serves limit fits := by
    simp [messages, fits.size, get_of_found found, behind, bind, Except.bind]

omit [Codecs] in
theorem get?_append (found : engine.sessions.get? sessionId = some session) (more : List Fields) :
    (engine.append sessionId more).sessions.get? sessionId =
      some { session with messages := session.messages ++ more } := by
  have filed := engine.sessions.key_of_get? found
  simp only [append, found, Table.get?_put, if_pos filed.symm]

theorem Stands.next {order id : String} {asked : Option String} {taken rest : List Fields}
    {edge : Fields}
    (stands : Stands engine sessionId order asked cursor session (taken ++ edge :: rest))
    (named : messageId edge = some id) (choice : chosen (some order) = order)
    (identified : Identified (session.messages ++ more)) :
    Stands (engine.append sessionId more) sessionId order none (some (encodeCursor id order))
      { session with messages := session.messages ++ more } (rest ++ fresh order more) := by
  have found := get?_append stands.found more
  obtain ⟨front, split⟩ := stands.rest
  obtain ⟨before, appended⟩ := listed_append order session.messages more
  have whole : listed order (session.messages ++ more) =
      (before ++ front ++ taken) ++ edge :: (rest ++ fresh order more) := by
    rw [appended, split]
    simp
  refine ⟨found, ⟨before ++ front ++ taken ++ [edge], ?_⟩, fun limit fits => ?_⟩
  · rw [whole]
    simp
  · have still := identified.perm (perm_listed order _)
    rw [whole] at still
    simp only [messages, decodeCursor_encodeCursor, Except.map, choice, fits.size,
      get_of_found found, whole,
      behind_edge still named, bind, Except.bind]
    simp

theorem Stands.follow {order : String} {asked : Option String}
    {steps : List (Option Int × List Fields)}
    (stands : Stands engine sessionId order asked cursor session back)
    (choice : chosen (some order) = order)
    (fits : ∀ step ∈ steps, Fits step.1)
    (identified : Identified (session.messages ++ steps.flatMap (·.2))) :
    ∃ pages ended, engine.follow sessionId asked cursor steps = .ok (pages, ended) ∧
      (ended = true → ∃ later, pages.flatten = back ++ later ∧
        later <+: fresh order (steps.flatMap (·.2))) ∧
      (back.length + (steps.flatMap (·.2)).length < steps.length → ended = true) := by
  induction steps generalizing engine asked cursor session back with
  | nil => exact ⟨[], false, rfl, nofun, nofun⟩
  | cons step steps ih =>
    obtain ⟨limit, more⟩ := step
    rw [List.forall_mem_cons] at fits
    have served := stands.serves limit fits.1
    rw [List.flatMap_cons, ← List.append_assoc] at identified
    by_cases empty : back = []
    · subst empty
      refine ⟨[[]], true, ?_, fun _ => ⟨[], rfl, List.nil_prefix⟩, fun _ => rfl⟩
      simp only [Engine.follow, served, paged_nil, bind, Except.bind]
      rfl
    · obtain ⟨front, split⟩ := stands.rest
      have named : ∀ message ∈ back, (messageId message).isSome := by
        intro message mem
        have there : message ∈ listed order session.messages := by
          rw [split]
          exact List.mem_append_right front mem
        have held := (perm_listed order session.messages).mem_iff.mpr there
        exact identified.named message (List.mem_append_left _ (List.mem_append_left _ held))
      have one : 1 ≤ (limit.getD defaultPageLimit).toNat := by
        have least : 1 ≤ limit.getD defaultPageLimit := fits.1.size.1
        omega
      obtain ⟨init, edge, id, cursors, page, edgeId, paged, next⟩ :=
        paged_some one empty named order
      generalize (limit.getD defaultPageLimit).toNat = size at *
      have cut : back = init ++ edge :: back.drop size := by
        conv_lhs => rw [← List.take_append_drop size back, page]
        simp
      have beyond : Stands engine sessionId order asked cursor session
        (init ++ edge :: back.drop size) := cut ▸ stands
      obtain ⟨pages, ended, followed, all, ends⟩ :=
        ih (beyond.next edgeId choice (identified.sublist (List.sublist_append_left _ _)))
          fits.2 identified
      refine ⟨back.take size :: pages, ended, ?_, fun done => ?_, fun enough => ends ?_⟩
      · simp only [Engine.follow, served, paged, next, followed, bind, Except.bind]
        rfl
      · obtain ⟨later, flat, within⟩ := all done
        refine ⟨fresh order more ++ later, ?_, ?_⟩
        · rw [List.flatten_cons, flat]
          simp only [← List.append_assoc, List.take_append_drop]
        · rw [List.flatMap_cons, fresh_append]
          exact (List.prefix_append_right_inj _).mpr within
      · have fewer := (fresh_first order more).length_le
        have some' := List.length_pos_iff.mpr empty
        simp only [List.flatMap_cons, List.length_append, List.length_cons, List.length_drop]
          at enough ⊢
        omega

/-- The messages of a session are listed once each to a caller that follows the cursors, and a
cursor is what it was made from; what is no cursor is refused as one, or is one of its own. -/
theorem pages_deliver :
    (∀ (engine : Engine) (sessionId : String) (session : Session) (order : Option String)
        (steps : List (Option Int × List Fields)),
      engine.sessions.get? sessionId = some session → (∀ step ∈ steps, Fits step.1) →
      Identified (session.messages ++ steps.flatMap (·.2)) →
      ∃ pages ended, engine.follow sessionId order none steps = .ok (pages, ended) ∧
        (ended = true → (pages.flatten.map messageId).Nodup ∧
          ∃ later, pages.flatten = listed (chosen order) session.messages ++ later ∧
            later <+: steps.flatMap (·.2)) ∧
        ((session.messages ++ steps.flatMap (·.2)).length < steps.length → ended = true)) ∧
      (∀ messageId order, decodeCursor (encodeCursor messageId order) = .ok (messageId, order)) ∧
      ∀ cursor, (∃ pair, decodeCursor cursor = .ok pair) ∨ ∃ text,
        decodeCursor cursor = .error (.invalidCursor text) := by
  refine ⟨fun engine sessionId session order steps found fits identified =>
    ?_, decodeCursor_encodeCursor,
    decodeCursor_total⟩
  obtain ⟨pages, ended, followed, all, ends⟩ :=
    (stands_first found order).follow (chosen_chosen order) fits identified
  refine ⟨pages, ended, followed, fun done => ?_, fun enough => ends ?_⟩
  · obtain ⟨later, flat, within⟩ := all done
    have appended := within.trans (fresh_first _ _)
    have part := identified.sublist (appended.sublist.append_left session.messages)
    refine ⟨?_, later, flat, appended⟩
    rw [flat]
    exact (part.perm ((perm_listed (chosen order) session.messages).append_right later)).once
  · rw [← (perm_listed (chosen order) session.messages).length_eq, ← List.length_append]
    exact enough

end Engine

section Run

def said (id : String) : Fields := [("id", .str id), ("type", .str "user")]

def talk : Session where
  id := "ses_talk"
  directory := "/repo"
  metadata := []
  permissions := []
  model := none
  title := none
  agent := none
  created := 0
  updated := 0
  messages := [said "msg_1", said "msg_2", said "msg_3"]

def talking : Engine := { sessions := (∅ : Table Session.id).put talk }

@[reducible] def ascii : Codecs where
  isPrintable _ := false
  decoded _ := none
  double _ := .nan
  surrogate _ := '?'

attribute [local instance] ascii

theorem pages_deliver_talking :
    ∃ pages later, talking.follow "ses_talk" (some "desc") none
        [(some 2, [said "msg_4"]), (none, []), (none, []), (none, []), (none, [])] = .ok
          (pages, true) ∧
      pages.flatten = [said "msg_3", said "msg_2", said "msg_1"] ++ later := by
  obtain ⟨pages, ended, followed, all, ends⟩ :=
    Engine.pages_deliver.1 talking "ses_talk" talk (some "desc")
      [(some 2, [said "msg_4"]), (none, []), (none, []), (none, []), (none, [])] rfl
      (by simp [Engine.Fits]) ⟨by decide, by decide⟩
  obtain rfl := ends (by decide)
  obtain ⟨-, later, flat, -⟩ := all rfl
  exact ⟨pages, later, followed, flat⟩

end Run

end BlizzardMock.OpenCode2.Store
