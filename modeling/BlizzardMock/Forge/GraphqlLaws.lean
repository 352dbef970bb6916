import BlizzardMock.Forge.Graphql
import BlizzardMock.Forge.TrackerLaws
import BlizzardMock.Python.IntText

namespace BlizzardMock.Forge.Graphql

open Method Greedy

def selection (comments : Bool) : Text :=
  "title body".toList ++ if comments
    then " comments(first: 100) \x7b nodes \x7b body \x7d \x7d".toList else []

def ahead : Text := ": issueOrPullRequest(number: ".toList

def behind (comments : Bool) : Text :=
  " \x7b ... on Issue \x7b ".toList ++ selection comments ++
    " \x7d ... on PullRequest \x7b ".toList ++
    selection comments ++ " \x7d \x7d".toList

def fieldName (n : Nat) : String := "i" ++ toString n

def field (comments : Bool) (n : Nat) : Text :=
  (fieldName n).toList ++ ahead ++ (toString n).toList ++ ')' :: behind comments

def opening : Text :=
  "query($owner: String!, $name: String!) \x7b repository(owner: $owner, name: $name) \x7b ".toList

def closing : Text := " \x7d \x7d".toList

def query (comments : Bool) (numbers : List Nat) : Text :=
  opening ++ [' '].intercalate (numbers.map (field comments)) ++ closing

section Scan

theorem isSpace_of_isDecimal {c : Char} (digit : isDecimal c = true) : isSpace c = false := by
  have past : ∀ z ∈ decimalZeros, 48 ≤ z := by decide
  have blank := not_isIntSpace_of_digit digit
  rw [isDecimal, decimalDigit, Option.isSome_map] at digit
  obtain ⟨z, found⟩ := Option.isSome_iff_exists.mp digit
  have near := List.find?_some found
  rw [decide_eq_true_eq] at near
  have := past z (List.mem_of_find?_eq_some found)
  simp only [isSpace, blank, Bool.false_eq_true, false_or, decide_eq_false_iff_not]
  omega

theorem fits_append {xs ys : List (Item Char)} {ps qs : List Text} (first : Fits xs ps)
    (second : Fits ys qs) :
    Fits (xs ++ ys) (ps ++ qs) := by
  induction first with
  | nil => exact second
  | one fits _ ih => exact .one fits ih
  | many fits _ ih => exact .many fits ih

theorem fits_literal (text : Text) : Fits (literal text) (text.map fun c => [c]) := by
  induction text with
  | nil => exact .nil
  | cons c text ih => exact .one (by simp) ih

def aheadPieces : List Text :=
  [[]] ++ [[':']] ++ [[' ']] ++ ("issueOrPullRequest(".toList.map fun c => [c]) ++ [[]] ++
    ("number".toList.map fun c => [c]) ++ [[]] ++ [[':']] ++ [[' ']]

theorem fits_ahead : Fits fieldItems aheadPieces := by
  have none : Fits [blanks] [[]] := .many (by simp) .nil
  have one : Fits [blanks] [[' ']] := .many (by simp; decide) .nil
  have colon := fits_literal [':']
  have begun := fits_append (fits_append (fits_append none colon) one)
    (fits_literal "issueOrPullRequest(".toList)
  have named := fits_append (fits_append begun none) (fits_literal "number".toList)
  exact fits_append (fits_append (fits_append named none) colon) one

variable [Alphabet]

theorem isSpace_of_isWord {c : Char} (word : isWord c = true) : isSpace c = false := by
  rw [isWord, Bool.or_eq_true, Bool.or_eq_true] at word
  rcases word with (alnum | under) | other
  · delta Char.isAlphanum Char.isAlpha Char.isUpper Char.isLower Char.isDigit at alnum
    simp only [Bool.or_eq_true, Bool.and_eq_true, decide_eq_true_eq, UInt32.le_iff_toNat_le,
      ge_iff_le] at alnum
    have code : c.toNat = c.val.toNat := rfl
    simp only [isSpace, isIntSpace, Bool.decide_or, Bool.decide_and, Bool.or_eq_false_iff,
      Bool.and_eq_false_iff,
      decide_eq_false_iff_not, Bool.decide_eq_true]
    simp at alnum
    omega
  · rw [of_decide_eq_true under]
    decide
  · simp only [Bool.and_eq_true, Bool.not_eq_true'] at other
    exact other.1.2

theorem apart_aliasPattern : Apart aliasPattern := by
  have word : ∀ a, isWord a = true → ¬ (isSpace a = true ∨ decide (a = ':') = true) := by
    rintro a word (space | colon)
    · rw [isSpace_of_isWord word] at space
      cases space
    · have plain : isWord ':' = false := rfl
      rw [of_decide_eq_true colon, plain] at word
      cases word
  have space (c : Char) (other : isSpace c = false) : ∀ a, isSpace a = true →
    ¬ (decide (a = c) = true) := by
    intro a space same
    rw [of_decide_eq_true same, other] at space
    cases space
  have digit : ∀ a, isSpace a = true → ¬ (isDecimal a = true) := by
    intro a space digit
    rw [isSpace_of_isDecimal digit] at space
    cases space
  have close : ∀ a, isDecimal a = true → ¬ (isSpace a = true ∨ decide (a = ')') = true) := by
    rintro a digit (space | close)
    · rw [isSpace_of_isDecimal digit] at space
      cases space
    · rw [of_decide_eq_true close] at digit
      revert digit
      decide
  exact ⟨word, space ':' rfl, space 'i' rfl, space 'n' rfl, space ':' rfl, digit, close,
    space ')' rfl, trivial⟩

theorem isWord_of_isDigit {c : Char} (digit : c.isDigit = true) : isWord c = true := by
  simp [isWord, Char.isAlphanum, digit]

omit [Alphabet] in
theorem isDecimal_of_isDigit {c : Char} (digit : c.isDigit = true) : isDecimal c = true := by
  simp only [Char.isDigit, Bool.and_eq_true, decide_eq_true_eq, UInt32.le_iff_toNat_le, ge_iff_le]
    at digit
  have near : 48 ≤ c.toNat ∧ c.toNat < 48 + 10 := ⟨digit.1, Nat.lt_succ_of_le digit.2⟩
  rw [isDecimal, decimalDigit, decimalZeros, List.find?_cons_of_pos (by simpa using near)]
  rfl

omit [Alphabet] in
theorem numeral_cons (n : Nat) : ∃ d ds, (toString n).toList = d :: ds ∧ isDecimal d = true ∧
    ∀ c ∈ ds, isDecimal c = true := by
  have digits : ∀ c ∈ (toString n).toList, isDecimal c = true := fun c mem =>
    isDecimal_of_isDigit (Flat.isDigit_of_mem mem)
  cases spelled : (toString n).toList with
  | nil =>
    rw [Flat.toList_toString] at spelled
    exact absurd spelled Nat.toDigits_ne_nil
  | cons d ds =>
    rw [spelled] at digits
    exact ⟨d, ds, rfl, digits d List.mem_cons_self, fun c mem =>
      digits c (List.mem_cons_of_mem _ mem)⟩

def taken (n : Nat) : Text := (fieldName n).toList ++ ahead ++ (toString n).toList ++ [')']

def pieces (n : Nat) (d : Char) (ds : Text) : List Text :=
  [['i'], (toString n).toList] ++ aheadPieces ++ [[d], ds] ++ [[], [')']]

omit [Alphabet] in
theorem flatten_pieces {n : Nat} {d : Char} {ds : Text} (spelled : (toString n).toList = d :: ds) :
    (pieces n d ds).flatten = taken n := by
  have between : aheadPieces.flatten = ahead := by decide
  rw [pieces, List.flatten_append, List.flatten_append, List.flatten_append, between, taken,
    fieldName, spelled,
    String.toList_append, spelled]
  simp

theorem fits_pieces {n : Nat} {d : Char} {ds : Text} (digit : isDecimal d = true)
    (digits : ∀ c ∈ ds, isDecimal c = true) : Fits aliasPattern (pieces n d ds) := by
  have named : Fits aliasItems [['i'], (toString n).toList] :=
    .one rfl (.many (fun c mem => isWord_of_isDigit (Flat.isDigit_of_mem mem)) .nil)
  have numbered : Fits numberItems [[d], ds] := .one digit (.many digits .nil)
  have closed : Fits closeItems ([[]] ++ [[')']]) :=
    fits_append (.many (by simp) .nil) (fits_literal [')'])
  unfold aliasPattern pieces
  exact fits_append (fits_append (fits_append named fits_ahead) numbered) closed

theorem aliasAt_field (n : Nat) (rest : Text) :
    aliasAt (taken n ++ rest) = some ((fieldName n, toString n), (taken n).length) := by
  obtain ⟨d, ds, spelled, digit, digits⟩ := numeral_cons n
  have whole := flatten_pieces spelled
  have found : run aliasPattern (taken n ++ rest) = some (pieces n d ds, rest) := by
    rw [run_iff apart_aliasPattern, whole]
    exact ⟨fits_pieces digit digits, rfl⟩
  have aliased : String.ofList ((pieces n d ds).take 2).flatten = fieldName n := by
    apply String.toList_inj.mp
    simp [pieces, fieldName]
  have numbered : String.ofList (((pieces n d ds).drop (2 + fieldItems.length)).take 2).flatten =
    toString n := by
    apply String.toList_inj.mp
    rw [spelled, String.toList_ofList]
    change [[d], ds].flatten = d :: ds
    simp
  rw [aliasAt, found, Option.map_some]
  dsimp only
  rw [aliased, numbered, whole]

theorem quiet_opening : quiet aliasPattern opening = true := rfl

theorem quiet_behind (comments : Bool) : quiet aliasPattern (behind comments ++ [' ']) = true ∧
    quiet aliasPattern (behind comments ++ closing) = true := by
  cases comments <;> exact ⟨rfl, rfl⟩

theorem misses (text : Text) (h : run aliasPattern text = none) : aliasAt text = none := by
  rw [aliasAt, h, Option.map_none]

theorem hits_field {comments : Bool} {gap : Text}
    (silent : quiet aliasPattern (behind comments ++ gap) = true) (n : Nat)
    (rest : Text) : hits aliasAt (field comments n ++ (gap ++ rest)) =
      (fieldName n, toString n) :: hits aliasAt rest := by
  have found := aliasAt_field n (behind comments ++ gap ++ rest)
  have shape : field comments n ++ (gap ++ rest) = taken n ++ (behind comments ++ gap ++ rest) := by
    simp [field, taken]
  have some : taken n ≠ [] := by simp [taken]
  rw [shape, hits_match found (by simp [some]) (List.length_pos_of_ne_nil some), List.drop_left,
    hits_append misses silent]

theorem hits_fields (comments : Bool) {numbers : List Nat} (some : numbers ≠ []) :
    hits aliasAt ([' '].intercalate (numbers.map (field comments)) ++ closing) =
      numbers.map fun n => (fieldName n, toString n) := by
  induction numbers with
  | nil => exact absurd rfl some
  | cons n rest ih =>
    cases rest with
    | nil =>
      have last := hits_field (quiet_behind comments).2 n []
      rw [List.append_nil] at last
      rw [List.map_singleton, List.intercalate_singleton, last]
      rfl
    | cons m rest =>
      have first := hits_field (quiet_behind comments).1 n
        ([' '].intercalate ((m :: rest).map (field comments)) ++ closing)
      rw [ih (List.cons_ne_nil m rest)] at first
      rw [List.map_cons, List.intercalate_cons_of_ne_nil
        (by simp), List.append_assoc, List.append_assoc, first]
      rfl

theorem aliases_query (comments : Bool) {numbers : List Nat} (some : numbers ≠ []) :
    aliases (String.ofList (query comments numbers)) = numbers.map fun n =>
      (fieldName n, toString n) := by
  rw [aliases, String.toList_ofList, query, List.append_assoc, hits_append misses quiet_opening,
    hits_fields comments some]

end Scan

theorem notMem_query (numbers : List Nat) : 'c' ∉ query false numbers := by
  have plain : 'c' ∉ opening ∧ 'c' ∉ ahead ∧ 'c' ∉ behind false ∧ 'c' ∉ closing := by decide +kernel
  obtain ⟨opens, leads, follows, closes⟩ := plain
  have fields : ∀ n, 'c' ∉ field false n := by
    intro n
    have numeral := Flat.notMem_toString (c := 'c') (by decide) n
    simp only [field, fieldName, String.toList_append, List.mem_append, List.mem_cons, not_or]
    exact ⟨⟨⟨⟨by decide +kernel, numeral⟩, leads⟩, numeral⟩, by decide, follows⟩
  have joined : 'c' ∉ [' '].intercalate (numbers.map (field false)) := by
    induction numbers with
    | nil => simp
    | cons n rest ih =>
      cases rest with
      | nil => simpa using fields n
      | cons m rest =>
        rw [List.map_cons, List.intercalate_cons_of_ne_nil (by simp)]
        simp only [List.mem_append, List.mem_singleton, not_or]
        exact ⟨⟨fields n, by decide⟩, ih⟩
  simp only [query, List.mem_append, not_or]
  exact ⟨⟨opens, joined⟩, closes⟩

theorem comments_query (comments : Bool) {numbers : List Nat} (some : numbers ≠ []) :
    "comments".toList <:+: query comments numbers ↔ comments = true := by
  cases comments with
  | false =>
    simp only [Bool.false_eq_true, iff_false]
    intro named
    exact notMem_query numbers (named.subset (by decide +kernel))
  | true =>
    simp only [iff_true]
    obtain ⟨n, rest, rfl⟩ := List.exists_cons_of_ne_nil some
    have selected : "comments".toList <:+: behind true :=
      ⟨" \x7b ... on Issue \x7b title body ".toList, (behind true).drop 37, rfl⟩
    have within : behind true <:+: field true n := by
      rw [field, ← List.singleton_append, ← List.append_assoc]
      exact (List.suffix_append _ _).isInfix
    have first : field true n <:+: [' '].intercalate ((n :: rest).map (field true)) := by
      cases rest with
      | nil => simp
      | cons m rest =>
        rw [List.map_cons, List.intercalate_cons_of_ne_nil (by simp), List.append_assoc]
        exact (List.prefix_append _ _).isInfix
    have joined : [' '].intercalate ((n :: rest).map (field true)) <:+: query true (n :: rest) :=
      ⟨opening, closing, rfl⟩
    exact ((selected.trans within).trans first).trans joined

section Spoken

variable {α β : Type}

def Spoken (m : ForgeM α) : Prop :=
  ∀ forge e, answer m forge = .error e → (message (.forge e)).isSome = true

theorem spoken_pure (a : α) : Spoken (pure a : ForgeM α) := fun _ _ h => by cases h

theorem spoken_read (f : ForgeService → α) : Spoken (read f : ForgeM α) := fun _ _ h => by cases h

theorem spoken_bind {m : ForgeM α} {g : α → ForgeM β} (first : Spoken m)
    (rest : ∀ a, Spoken (g a)) :
    Spoken (m >>= g) := by
  intro forge e raised
  rw [answer_bind] at raised
  cases answered : answer m forge with
  | error e' =>
    rw [answered] at raised
    cases raised
    exact first forge e answered
  | ok a =>
    rw [answered] at raised
    exact rest a _ e raised

theorem spoken_orRaise {e : ForgeError} (spoken : (message (.forge e)).isSome = true)
    (found : Option α) :
    Spoken (orRaise e found : ForgeM α) := by
  intro forge e' raised
  rw [error_of_orRaise raised]
  exact spoken

theorem spoken_ite {c : Prop} [Decidable c] {m n : ForgeM α} (hm : Spoken m) (hn : Spoken n) :
    Spoken (if c then m else n) := by
  split
  · exact hm
  · exact hn

theorem spoken_rescue {m : ForgeM α} (f : ForgeError → Option α) (h : Spoken m) :
    Spoken (rescue f m) := by
  intro forge e raised
  rw [answer_rescue] at raised
  cases answered : answer m forge with
  | ok a =>
    rw [answered] at raised
    cases raised
  | error e' =>
    rw [answered] at raised
    dsimp only at raised
    cases handled : f e' with
    | some a => simp [handled] at raised
    | none =>
      rw [handled] at raised
      cases raised
      exact h forge e answered

theorem spoken_openRepo (full : String) : Spoken (ForgeService.openRepo full) :=
  spoken_bind (spoken_read _) fun _ => spoken_orRaise rfl _

theorem spoken_getRepo (owner name : String) : Spoken (ForgeService.getRepo owner name) :=
  spoken_bind (spoken_openRepo _) fun _ => spoken_pure _

variable [GitHost]

theorem spoken_resolveRef (repo : Repo) (ref : String) :
    Spoken (ForgeService.resolveRef repo ref) :=
  spoken_bind (spoken_openRepo _) fun _ => spoken_orRaise rfl _

theorem spoken_mergeability (repo : Repo) (pull : PullRequest) :
    Spoken (ForgeService.mergeability repo pull) := by
  refine spoken_bind (spoken_read _) fun levers => ?_
  dsimp only
  have merges : Spoken (ForgeService.isMergeable repo pull.base pull.head) :=
    spoken_bind (spoken_resolveRef _ _) fun _ =>
      spoken_bind (spoken_resolveRef _ _) fun _ => spoken_pure _
  have pure (a : Option Bool × MergeableState) := spoken_pure a
  refine spoken_ite (pure _) (spoken_ite (pure _) ?_)
  split
  · exact pure _
  · refine spoken_ite (pure _) (spoken_ite (pure _) (spoken_ite (pure _) (spoken_ite (pure _) ?_)))
    exact spoken_bind merges fun _ => spoken_ite (pure _) (pure _)

theorem spoken_getPull (owner name : String) (number : Nat) :
    Spoken (ForgeService.getPull owner name number) := by
  refine spoken_bind (spoken_getRepo owner name) fun repo => ?_
  refine spoken_bind (spoken_bind (spoken_read _) fun _ => spoken_orRaise rfl _) fun pull => ?_
  have head : Spoken (ForgeService.viewedHead repo pull) := by
    unfold ForgeService.viewedHead
    split
    · exact spoken_pure _
    · exact spoken_resolveRef _ _
  refine spoken_bind head fun _ => spoken_bind (spoken_rescue _ (spoken_resolveRef _ _)) fun _ => ?_
  exact spoken_bind (spoken_mergeability repo pull) fun _ => spoken_pure _

end Spoken

section Reads

variable {tracker : Tracker} {owner name : String}

theorem error_of_onForge {α : Type} {m : ForgeM α} {e : TrackerError}
    (h : answer (Tracker.onForge m) tracker = .error e) :
    ∃ e', e = .forge e' ∧ answer m tracker.forge = .error e' := by
  simp only [answer, Tracker.onForge, EStateM.run] at h ⊢
  cases run : m tracker.forge with
  | ok a t =>
    rw [run] at h
    cases h
  | error e' t =>
    rw [run] at h
    cases h
    exact ⟨e', rfl, rfl⟩

instance (owner name : String) (number : Nat) : Keeps id (getIssue owner name number) := by
  unfold getIssue
  infer_instance

theorem message_getIssue {number : Nat} {e : TrackerError}
    (h : answer (getIssue owner name number) tracker = .error e) : (message e).isSome = true := by
  rw [getIssue, answer_bind] at h
  cases found : answer (Tracker.getRepo owner name) tracker with
  | error e' =>
    rw [found] at h
    cases h
    obtain ⟨e', rfl, raised⟩ := error_of_onForge found
    exact spoken_getRepo owner name _ _ raised
  | ok repo =>
    rw [found] at h
    have missing : e = .issueNotFound _ := error_of_orRaise h
    rw [missing]
    rfl

variable [GitHost]

instance (owner name : String) (number : Nat) :
    Keeps id (ForgeService.getPull owner name number) := by
  unfold ForgeService.getPull
  infer_instance

instance (owner name : String) (number : Nat) : Keeps id (getPull owner name number) := by
  unfold getPull
  infer_instance

theorem message_getPull {number : Nat} {e : TrackerError}
    (h : answer (getPull owner name number) tracker = .error e) : (message e).isSome = true := by
  rw [getPull, answer_bind] at h
  cases found : answer (Tracker.onForge (ForgeService.getPull owner name number)) tracker with
  | error e' =>
    rw [found] at h
    cases h
    obtain ⟨e', rfl, raised⟩ := error_of_onForge found
    exact spoken_getPull owner name number _ _ raised
  | ok view =>
    rw [found] at h
    cases h

def single (tracker : Tracker) (owner name : String) (number : Nat) : Except String IssueOrPull :=
  match answer (getIssue owner name number) tracker with
  | .ok issue => .ok ⟨issue.title, issue.body, issue.comments⟩
  | .error (.issueNotFound _) =>
    (answer (getPull owner name number) tracker).mapError fun e => (message e).getD ""
  | .error e => .error ((message e).getD "")

omit [GitHost] in
theorem run_orMessage {answered : Except TrackerError IssueOrPull}
    (spoken : ∀ e, answered = .error e → (message e).isSome = true) :
    (orMessage answered).run tracker = .ok (answered.mapError fun e =>
      (message e).getD "") tracker := by
  cases answered with
  | ok item => rfl
  | error e =>
    obtain ⟨text, told⟩ := Option.isSome_iff_exists.mp (spoken e rfl)
    simp only [orMessage, told]
    simp [Except.mapError, told]

theorem run_readItem (number : Nat) :
    (readItem owner name number).run tracker = .ok (single tracker owner name number) tracker := by
  rw [readItem, run_bind_of_read rfl, single]
  cases issued : answer (getIssue owner name number) tracker with
  | ok issue => rfl
  | error e =>
    have told : (orMessage (.error e)).run tracker = .ok (.error ((message e).getD "")) tracker :=
      run_orMessage fun e' same => by
        cases same
        exact message_getIssue issued
    cases e with
    | issueNotFound text =>
      dsimp only
      rw [run_bind_of_read rfl]
      exact run_orMessage fun e => message_getPull
    | _ => exact told

def batch (tracker : Tracker) (owner name : String) (comments : Bool) (numbers : List Nat)
    (answer : Answer) : Answer :=
  numbers.foldl (fun answer n =>
    answer.add comments (fieldName n) (single tracker owner name n)) answer

theorem run_readAliases {comments : Bool} {numbers : List Nat}
    (short : ∀ n ∈ numbers, n < 10 ^ intMaxStrDigits)
    (answer : Answer) :
    (readAliases owner name comments (numbers.map fun n =>
      (fieldName n, toString n)) answer).run tracker =
      .ok (.ok (batch tracker owner name comments numbers answer)) tracker := by
  induction numbers generalizing answer with
  | nil => rfl
  | cons n rest ih =>
    rw [List.map_cons, readAliases, intOfText_toString (short n List.mem_cons_self)]
    dsimp only
    rw [Int.toNat_natCast, EStateM.run_bind, run_readItem]
    exact ih (fun m mem => short m (List.mem_cons_of_mem _ mem)) _

end Reads

section Answers

variable {comments : Bool} {numbers : List Nat} {answer : Answer}

def shown (comments : Bool) : Except String IssueOrPull → Json
  | .ok item => node comments item
  | .error _ => .null

def refusal (n : Nat) : Except String IssueOrPull → Option Json
  | .ok _ => none
  | .error message => some (graphqlError message "NOT_FOUND" (some ["repository", fieldName n]))

theorem repo_add (aliased : String) (item : Except String IssueOrPull) :
    (answer.add comments aliased item).repo = answer.repo.set aliased (shown comments item) := by
  cases item <;> rfl

theorem errors_add (n : Nat) (item : Except String IssueOrPull) :
    (answer.add comments (fieldName n) item).errors = answer.errors ++ (refusal n item).toList := by
  cases item with
  | ok item => exact (List.append_nil _).symm
  | error message => rfl

theorem fieldName_inj {m n : Nat} (same : fieldName m = fieldName n) : m = n := by
  have rest : (toString m).toList = (toString n).toList := by
    have same := congrArg String.toList same
    simpa only [fieldName, String.toList_append, List.append_cancel_left_eq] using same
  exact Flat.toString_inj (String.toList_inj.mp rest)

/-- The fields of a batch show the items of their numbers, in whatever order and however often they
are named; and there is an error for each field that shows nothing, in their order. -/
structure Batched (read : Nat → Except String IssueOrPull) (comments : Bool) (numbers : List Nat)
    (answer : Answer) :
    Prop where
  fields : ∀ n ∈ numbers, answer.repo.get? (fieldName n) = some (shown comments (read n))
  named : ∀ k x, answer.repo.get? k = some x → ∃ n ∈ numbers, k = fieldName n
  errors : answer.errors = numbers.filterMap fun n => refusal n (read n)

theorem Batched.snoc {read : Nat → Except String IssueOrPull}
    (batched : Batched read comments numbers answer) (n : Nat) :
    Batched read comments (numbers ++ [n]) (answer.add comments (fieldName n) (read n)) := by
  constructor
  · intro m mem
    rw [repo_add, Dict.get?_set]
    split
    case isTrue same => rw [fieldName_inj same]
    case isFalse apart =>
      refine batched.fields m ((List.mem_append.mp mem).resolve_right fun last => apart ?_)
      rw [List.mem_singleton.mp last]
  · intro k x held
    rw [repo_add, Dict.get?_set] at held
    split at held
    case isTrue same => exact ⟨n, by simp, same⟩
    case isFalse =>
      obtain ⟨m, mem, same⟩ := batched.named k x held
      exact ⟨m, List.mem_append_left _ mem, same⟩
  · rw [errors_add, batched.errors, List.filterMap_append, List.filterMap_cons]
    cases refusal n (read n) <;> simp

variable [GitHost] {tracker : Tracker} {owner name : String}

theorem batched_batch {before : List Nat}
    (batched : Batched (single tracker owner name) comments before answer) :
    Batched (single tracker owner name) comments (before ++ numbers)
      (batch tracker owner name comments numbers answer) := by
  induction numbers generalizing before answer with
  | nil => rwa [List.append_nil]
  | cons n rest ih =>
    have step := ih (batched.snoc n)
    rwa [List.append_assoc] at step

variable [Alphabet]

def request (owner name : String) (comments : Bool) (numbers : List Nat) : List (String × Json) :=
  [("query", .str (String.ofList (query comments numbers))),
    ("variables", .obj [("owner", .str owner), ("name", .str name)])]

theorem run_graphql (some : numbers ≠ []) :
    (graphql (request owner name comments numbers)).run tracker =
      (do
        let answer ← readAliases owner name comments (numbers.map fun n =>
          (fieldName n, toString n)) {}
        return answer.map Answer.content : TrackerM (Except Crash Json)).run tracker := by
  have asked : (Json.str (String.ofList (query comments numbers))).truthy = true := by
    have long : query comments numbers ≠ [] := by
      rw [query, List.append_assoc]
      exact List.append_ne_nil_of_left_ne_nil (by decide) _
    refine decide_eq_true fun blank => long ?_
    have letters := congrArg String.toList blank
    rwa [String.toList_ofList] at letters
  have given : (Json.obj [("owner", .str owner), ("name", .str name)]).truthy = true := rfl
  have selected : decide ("comments".toList <:+: query comments numbers) = comments :=
    Bool.eq_iff_iff.mpr (decide_eq_true_iff.trans (comments_query comments some))
  have found := aliases_query comments some
  obtain ⟨n, rest, rfl⟩ := List.exists_cons_of_ne_nil some
  rw [List.map_cons] at found ⊢
  simp only [graphql, request, Json.get, Json.lookup, String.reduceEq, if_true, if_false,
    Option.getD_some, asked,
    given, Json.text_str, found, String.toList_ofList, selected]

/-- A batch of reads changes nothing, and shows of each number what the single reads of it answer.
-/
theorem batch_reads (some : numbers ≠ []) (short : ∀ n ∈ numbers, n < 10 ^ intMaxStrDigits) :
    ∃ answer, (graphql (request owner name comments numbers)).run tracker = .ok
      (.ok answer.content) tracker ∧
      Batched (single tracker owner name) comments numbers answer := by
  refine ⟨batch tracker owner name comments numbers {}, ?_, ?_⟩
  · rw [run_graphql some, EStateM.run_bind, run_readAliases short]
    rfl
  · have none : Batched (single tracker owner name) comments [] {} :=
      ⟨by simp, fun k x h => (by cases h), rfl⟩
    exact batched_batch none

end Answers

section

attribute [local instance] GitHost.plain

abbrev ascii : Alphabet := ⟨fun _ => false⟩

attribute [local instance] ascii

def commented : Tracker :=
  let bare : GitRepo := { defaultBranch := "main", branches := ∅ }
  let git : GitBackend :=
    { root := "/repos", backing := fun _ => some "o/r.git", repos := .ofList [("o/r.git", bare)] }
  Machine.after Tracker.next [.createIssue "o" "r" "first" "the body" "octocat" [],
    .createIssueComment "o" "r" 1 "seen" "octocat"] (.fresh git (fun _ => default) (fun _ => 0))

theorem batch_reads_commented : ∃ answer,
    (graphql (request "o" "r" true [1, 7, 1])).run commented = .ok (.ok answer.content) commented ∧
      Batched (single commented "o" "r") true [1, 7, 1] answer := by
  refine batch_reads (by simp) fun n mem => ?_
  have small : n < 10 := by
    simp only [List.mem_cons, List.not_mem_nil, or_false] at mem
    omega
  exact small.trans_le (Nat.le_self_pow (by decide) 10)

end

end Graphql

end BlizzardMock.Forge
