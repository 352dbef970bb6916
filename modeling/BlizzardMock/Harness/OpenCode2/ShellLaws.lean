import BlizzardMock.Data.Flat
import BlizzardMock.Harness.OpenCode2.Shell

namespace BlizzardMock.Harness.OpenCode2.Shell

open Substitution

inductive Ref
  | pid
  | bare (name : Text)
  | braced (name : Text) (default : Option Text)

def findPlain (text : Text) : Option (Ref × Nat) :=
  ((findDollars text).map fun m => (.pid, m.2)).or ((findBare text).map fun m => (.bare m.1, m.2))

def findRef (text : Text) : Option (Ref × Nat) :=
  ((findBraced text).map fun m => (.braced m.1.1 m.1.2, m.2)).or (findPlain text)

def Ref.value (env : Env) (pid : Int) (word : Text → Text) : Ref → Text
  | .pid => digits pid
  | .bare name => bareValue env name
  | .braced name default => bracedValue env name (default.map word)

def expandWord (env : Env) (pid : Int) (word : Text) : Text :=
  sub findPlain (Ref.value env pid id) word

def expandOnce (text : Text) (env : Env) (pid : Int) : Text :=
  sub findRef (Ref.value env pid (expandWord env pid)) text

def Ref.inserted (env : Env) (pid : Int) : Ref → Text
  | .pid => digits pid
  | .bare name => '$' :: name
  | .braced name default => bracedValue env name (default.map (dollars pid))

def seen (env : Env) (pid : Int) (text : Text) : Text := sub findRef (Ref.inserted env pid) text

def continues (name : Text) (c : Char) : Bool := if name = [] then isNameStart c else isNameChar c

def closed : Text → Option Char → Bool
  | [], _ => true
  | c :: rest, next =>
    !(c = '$' && rest.all isNameChar && rest.head?.all isNameStart && next.any (continues rest)) &&
      closed rest next

def wordApart (pid : Int) (word : Text) : Bool :=
  all findPlain (fun _ _ => true) (fun ref rest =>
    closed (ref.inserted (fun _ => none) pid) (dollars pid rest).head?) word

def Ref.apart (env : Env) (pid : Int) : Ref → Bool
  | .pid => true
  | .bare _ => true
  | .braced name default =>
    match (env name).filter (· ≠ []) with
    | some value => all findBare (fun _ _ => true) (fun _ _ => false) value
    | none => default.all (wordApart pid)

def apart (env : Env) (pid : Int) (text : Text) : Bool :=
  all findRef (fun c rest => (findBraced (c :: dollars pid rest)).isNone)
    (fun ref rest => ref.apart env pid && closed (ref.inserted env pid)
      (seen env pid rest).head?) text

def isName (name : Text) : Bool := name.head?.any isNameStart && name.all isNameChar

theorem isNameChar_of_start {c : Char} (h : isNameStart c = true) : isNameChar c = true := by
  rw [isNameChar, h, Bool.true_or]

theorem nameAt_append {name rest : Text} (named : isName name = true)
    (ends : rest.head?.any isNameChar = false) :
    nameAt (name ++ rest) = some name := by
  obtain ⟨starts, chars⟩ := Bool.and_eq_true_iff.mp named
  have stops : rest.takeWhile isNameChar = [] := by
    cases rest with
    | nil => rfl
    | cons c rest => exact List.takeWhile_cons_of_neg (by simpa using ends)
  have head : (name ++ rest).head?.any isNameStart = true := by
    cases name with
    | nil => exact absurd starts (by decide)
    | cons c name => exact starts
  rw [nameAt, if_pos head, List.takeWhile_append_of_pos (List.all_eq_true.mp chars), stops,
    List.append_nil]

theorem nameAt_spec {text name : Text} (h : nameAt text = some name) :
    isName name = true ∧ ∃ rest, text = name ++ rest ∧ rest.head?.any isNameChar = false := by
  rw [nameAt] at h
  split at h
  · next starts =>
    obtain rfl := Option.some.inj h
    refine ⟨Bool.and_eq_true_iff.mpr ⟨?_, ?_⟩, text.dropWhile isNameChar,
      List.takeWhile_append_dropWhile.symm, ?_⟩
    · cases text with
      | nil => exact starts
      | cons c text => rw [List.takeWhile_cons_of_pos (isNameChar_of_start starts)]; exact starts
    · exact List.all_takeWhile
    · have := List.head?_dropWhile_not isNameChar text
      cases first : (text.dropWhile isNameChar).head? with
      | none => rfl
      | some c => rw [first] at this; exact this
  · cases h

theorem nameAt_eq_none {text : Text} : nameAt text = none ↔ text.head?.any isNameStart = false := by
  rw [nameAt]
  split
  · next starts => exact iff_of_false nofun (by rw [starts]; nofun)
  · next starts => exact iff_of_true rfl (Bool.eq_false_iff.mpr starts)

theorem notMem_name {name : Text} (named : isName name = true) {c : Char}
    (other : isNameChar c = false) : c ∉ name :=
  fun mem => by simp [List.all_eq_true.mp (Bool.and_eq_true_iff.mp named).2 c mem] at other

theorem findBare_other {c : Char} (other : c ≠ '$') (rest : Text) : findBare (c :: rest) = none :=
  if_neg fun h => other (Option.some.inj h)

theorem findBare_append {name rest : Text} (named : isName name = true)
    (ends : rest.head?.any isNameChar = false) :
    findBare ('$' :: (name ++ rest)) = some (name, name.length + 1) := by
  rw [findBare, if_pos List.head?_cons, List.drop_succ_cons, List.drop_zero,
    nameAt_append named ends, Option.map_some]

theorem findBare_spec {text name : Text} {len : Nat} (h : findBare text = some (name, len)) :
    isName name = true ∧ len = name.length + 1 ∧
      ∃ rest, text = '$' :: (name ++ rest) ∧ rest.head?.any isNameChar = false := by
  rw [findBare] at h
  split at h
  · next dollar =>
    obtain ⟨name', here, same⟩ := Option.map_eq_some_iff.mp h
    cases same
    obtain ⟨named, rest, behind, ends⟩ := nameAt_spec here
    refine ⟨named, rfl, rest, ?_, ends⟩
    rw [← behind, List.drop_one, List.eq_cons_of_mem_head? dollar]
    rfl
  · cases h

theorem findBare_none {rest : Text} : findBare ('$' :: rest) = none ↔
      rest.head?.any isNameStart = false := by
  rw [findBare, if_pos List.head?_cons, List.drop_succ_cons, List.drop_zero, Option.map_eq_none_iff,
    nameAt_eq_none]

theorem findBare_positive (text name : Text) (len : Nat) (h : findBare text = some (name, len)) :
    0 < len := by
  rw [(findBare_spec h).2.1]
  exact Nat.succ_pos _

theorem closed_of_append (xs : Text) {rest : Text} {next : Option Char}
    (h : closed (xs ++ rest) next = true) :
    closed rest next = true := by
  induction xs with
  | nil => exact h
  | cons c xs ih => exact ih (Bool.and_eq_true_iff.mp h).2

theorem closed_name {name : Text} {next : Option Char} (named : isName name = true)
    (h : closed ('$' :: name) next = true) : next.any isNameChar = false := by
  obtain ⟨starts, chars⟩ := Bool.and_eq_true_iff.mp named
  cases name with
  | nil => exact absurd starts (by decide)
  | cons c name =>
    have here := (Bool.and_eq_true_iff.mp h).1
    cases next with
    | none => rfl
    | some d => simpa [chars, continues, show isNameStart c = true from starts] using here

theorem bare_append {value : Text → Text} {before after : Text}
    (h : closed before after.head? = true) :
    sub findBare value (before ++ after) = sub findBare value before ++
      sub findBare value after := by
  induction before using scan findBare_positive with
  | nil => rfl
  | cons c rest none ih =>
    obtain ⟨here, behind⟩ := Bool.and_eq_true_iff.mp h
    have none' : findBare (c :: (rest ++ after)) = Option.none := by
      by_cases dollar : c = '$'
      · subst dollar
        have stops := findBare_none.mp none
        refine findBare_none.mpr ?_
        cases rest with
        | nil => simpa [show continues [] = isNameStart from funext fun _ => if_pos rfl] using here
        | cons d rest => exact stops
      · exact findBare_other dollar _
    rw [List.cons_append, sub_cons none', sub_cons none, ih behind, List.cons_append]
  | found text name len found some ih =>
    obtain ⟨named, rfl, rest, rfl, ends⟩ := findBare_spec found
    have left : ('$' :: (name ++ rest)).drop (name.length + 1) = rest := List.drop_left
    have stops : (rest ++ after).head?.any isNameChar = false := by
      cases rest with
      | nil =>
        rw [List.append_nil] at h
        exact closed_name named h
      | cons d rest => exact ends
    have found' := findBare_append named stops
    have left' : ('$' :: (name ++ (rest ++ after))).drop (name.length + 1) = rest ++ after :=
      List.drop_left
    rw [List.cons_append, List.append_assoc,
      sub_match found' (List.cons_ne_nil _ _) (Nat.succ_pos _),
      sub_match found some (Nat.succ_pos _), left, left', List.append_assoc]
    rw [left] at ih
    rw [ih (closed_of_append ('$' :: name) h)]

def tail : Option Text → Text
  | none => []
  | some word => ':' :: '-' :: word

def bracedAt (name : Text) (default : Option Text) (rest : Text) : Text :=
  '$' :: '{' :: (name ++ (tail default ++ '}' :: rest))

theorem drop_bracedAt (name : Text) (default : Option Text) (rest : Text) :
    (bracedAt name default rest).drop (name.length + (tail default).length + 3) = rest := by
  have whole : bracedAt name default rest =
    ('$' :: '{' :: (name ++ (tail default ++ ['}']))) ++ rest := by
    simp only [bracedAt, List.cons_append, List.append_assoc, List.nil_append]
  rw [whole]
  refine List.drop_left' ?_
  simp only [List.length_cons, List.length_append, List.length_nil]
  omega

theorem findBraced_append {name rest : Text} {default : Option Text} (named : isName name = true)
    (inside : ∀ word ∈ default, '}' ∉ word) :
    findBraced (bracedAt name default rest) = some
      ((name, default), name.length + (tail default).length + 3) := by
  have ends : (tail default ++ '}' :: rest).head?.any isNameChar = false := by cases default <;> rfl
  have behind : (bracedAt name default rest).drop (2 + name.length) = tail default ++
    '}' :: rest := by
    rw [bracedAt, Nat.add_comm, List.drop_succ_cons, List.drop_succ_cons, List.drop_left]
  have here : nameAt ((bracedAt name default rest).drop 2) = some name := nameAt_append named ends
  have opened : ['$', '{'].isPrefixOf (bracedAt name default rest) = true := rfl
  rw [findBraced, if_pos opened, here, Option.bind_some, behind]
  cases default with
  | none => rfl
  | some word =>
    dsimp only [tail, List.cons_append]
    rw [if_neg (by simp), if_pos ⟨rfl, List.mem_append_right _ List.mem_cons_self⟩, List.drop_succ_cons,
      List.drop_succ_cons, List.drop_zero, Flat.takeWhile_before (inside word rfl)]
    rfl

theorem findBraced_spec {text name : Text} {default : Option Text} {len : Nat}
    (h : findBraced text = some ((name, default), len)) :
    isName name = true ∧ (∀ word ∈ default, '}' ∉ word) ∧
      len = name.length + (tail default).length + 3 ∧
      ∃ rest, text = bracedAt name default rest := by
  rw [findBraced] at h
  split at h
  · next opened =>
    obtain ⟨body, rfl⟩ := List.isPrefixOf_iff_prefix.mp opened
    obtain ⟨name', here, h⟩ := Option.bind_eq_some_iff.mp h
    obtain ⟨named, after, behind, -⟩ := nameAt_spec here
    obtain rfl : body = name' ++ after := behind
    have left : (['$', '{'] ++ (name' ++ after)).drop (2 + name'.length) = after := by
      rw [← List.append_assoc]
      exact List.drop_left' List.length_append
    simp only [left] at h
    split at h
    · next closes =>
      cases h
      refine ⟨named, nofun, rfl, after.tail, ?_⟩
      rw [bracedAt, tail, List.nil_append, ← List.eq_cons_of_mem_head? closes]
      rfl
    · split at h
      · next found =>
        obtain ⟨after, rfl⟩ := List.isPrefixOf_iff_prefix.mp found.1
        obtain ⟨word, rest, same, inside⟩ := List.eq_append_cons_of_mem found.2
        rw [same, Flat.takeWhile_before inside] at h
        cases h
        obtain rfl : after = word ++ '}' :: rest := same
        refine ⟨named, ?_, rfl, rest, rfl⟩
        rintro _ ⟨⟩
        exact inside
      · cases h
  · cases h

theorem notMem_digits {c : Char} (other : c.isDigit = false) (minus : c ≠ '-') (pid : Int) :
    c ∉ digits pid := by
  cases pid with
  | ofNat n => exact Flat.notMem_toString other n
  | negSucc n =>
    have same : digits (.negSucc n) = '-' :: (toString (n + 1)).toList := String.toList_append
    rw [same, List.mem_cons, not_or]
    exact ⟨minus, Flat.notMem_toString other (n + 1)⟩

theorem findDollars_cons {c : Char} {rest : Text} :
    findDollars (c :: rest) = none ↔ (c = '$' → rest.head? ≠ some '$') := by
  rw [findDollars]
  cases rest <;> simp [List.isPrefixOf, @eq_comm Char '$']

theorem findDollars_spec {text : Text} {u : Unit} {len : Nat}
    (h : findDollars text = some (u, len)) :
    len = 2 ∧ ∃ rest, text = '$' :: '$' :: rest := by
  rw [findDollars] at h
  split at h
  · next first =>
    cases h
    obtain ⟨rest, rfl⟩ := List.isPrefixOf_iff_prefix.mp first
    exact ⟨rfl, rest, rfl⟩
  · cases h

theorem findDollars_positive (text : Text) (u : Unit) (len : Nat)
    (h : findDollars text = some (u, len)) : 0 < len := by
  rw [(findDollars_spec h).1]
  decide

theorem dollars_cons {c : Char} {rest : Text}
    (single : findDollars (c :: rest) = none) (pid : Int) :
    dollars pid (c :: rest) = c :: dollars pid rest :=
  sub_cons single

theorem dollars_dollars (pid : Int) (rest : Text) :
    dollars pid ('$' :: '$' :: rest) = digits pid ++ dollars pid rest :=
  sub_match (show findDollars ('$' :: '$' :: rest) = some ((), 2) from rfl)
    (List.cons_ne_nil _ _) (by decide)

theorem dollars_append {before : Text} (none : '$' ∉ before) (pid : Int) (rest : Text) :
    dollars pid (before ++ rest) = before ++ dollars pid rest :=
  sub_append (fun _ mem _ => findDollars_cons.mpr fun same => absurd (same ▸ mem) none) rest

theorem dollars_stop {c : Char} (other : c ≠ '$') (pid : Int) (text rest : Text) :
    dollars pid (text ++ c :: rest) = dollars pid text ++ c :: dollars pid rest := by
  induction text using scan findDollars_positive with
  | nil => exact dollars_cons (findDollars_cons.mpr fun same => absurd same other) pid
  | cons a text none ih =>
    have none' : findDollars (a :: (text ++ c :: rest)) = Option.none := by
      refine findDollars_cons.mpr fun same => ?_
      cases text with
      | nil => exact fun h => other (Option.some.inj h)
      | cons b text => exact findDollars_cons.mp none same
    rw [List.cons_append, dollars_cons none', dollars_cons none, ih, List.cons_append]
  | found text m len found some ih =>
    obtain ⟨rfl, behind, rfl⟩ := findDollars_spec found
    have ih : dollars pid (behind ++ c :: rest) = dollars pid behind ++ c :: dollars pid rest := ih
    rw [List.cons_append, List.cons_append, dollars_dollars, dollars_dollars, ih, List.append_assoc]

theorem notMem_dollars {c : Char} (digit : c.isDigit = false) (minus : c ≠ '-') {text : Text}
    (none : c ∉ text)
    (pid : Int) : c ∉ dollars pid text := fun mem =>
  (mem_sub mem).elim none fun ⟨_, mem⟩ => notMem_digits digit minus pid mem

def Ref.before (rest : Text) : Ref → Text
  | .pid => '$' :: '$' :: rest
  | .bare name => '$' :: (name ++ rest)
  | .braced name default => bracedAt name default rest

def Ref.Found (rest : Text) : Ref → Prop
  | .pid => True
  | .bare name => isName name = true ∧ rest.head?.any isNameChar = false
  | .braced name default => isName name = true ∧ ∀ word ∈ default, '}' ∉ word

theorem findPlain_spec {text : Text} {ref : Ref} {len : Nat}
    (h : findPlain text = some (ref, len)) :
    0 < len ∧ ∃ rest, text = ref.before rest ∧ text.drop len = rest ∧ ref.Found rest := by
  obtain here | ⟨-, here⟩ := Option.or_eq_some_iff.mp h
  · obtain ⟨⟨u, n⟩, found, same⟩ := Option.map_eq_some_iff.mp here
    cases same
    obtain ⟨rfl, rest, rfl⟩ := findDollars_spec found
    exact ⟨Nat.succ_pos 1, rest, rfl, rfl, trivial⟩
  · obtain ⟨⟨name, n⟩, found, same⟩ := Option.map_eq_some_iff.mp here
    cases same
    obtain ⟨named, rfl, rest, rfl, ends⟩ := findBare_spec found
    exact ⟨Nat.succ_pos _, rest, rfl, List.drop_left, named, ends⟩

theorem findPlain_braced {text name : Text} {default : Option Text} {len : Nat} :
    findPlain text ≠ some (.braced name default, len) := fun h => by
  obtain here | ⟨-, here⟩ := Option.or_eq_some_iff.mp h
  all_goals
    obtain ⟨m, -, same⟩ := Option.map_eq_some_iff.mp here
    cases same

theorem findRef_spec {text : Text} {ref : Ref} {len : Nat} (h : findRef text = some (ref, len)) :
    0 < len ∧ ∃ rest, text = ref.before rest ∧ text.drop len = rest ∧ ref.Found rest := by
  obtain here | ⟨-, here⟩ := Option.or_eq_some_iff.mp h
  · obtain ⟨⟨⟨name, default⟩, n⟩, found, same⟩ := Option.map_eq_some_iff.mp here
    cases same
    obtain ⟨named, inside, rfl, rest, rfl⟩ := findBraced_spec found
    exact ⟨Nat.succ_pos _, rest, rfl, drop_bracedAt name default rest, named, inside⟩
  · exact findPlain_spec here

theorem findPlain_positive (text : Text) (ref : Ref) (len : Nat)
    (h : findPlain text = some (ref, len)) : 0 < len :=
  (findPlain_spec h).1

theorem findRef_positive (text : Text) (ref : Ref) (len : Nat)
    (h : findRef text = some (ref, len)) : 0 < len :=
  (findRef_spec h).1

theorem findPlain_none {text : Text} (h : findPlain text = none) : findDollars text = none ∧
      findBare text = none := by
  obtain ⟨dollars, bare⟩ := Option.or_eq_none_iff.mp h
  exact ⟨Option.map_eq_none_iff.mp dollars, Option.map_eq_none_iff.mp bare⟩

theorem findRef_none {text : Text} (h : findRef text = none) : findBraced text = none ∧
      findPlain text = none := by
  obtain ⟨braced, plain⟩ := Option.or_eq_none_iff.mp h
  exact ⟨Option.map_eq_none_iff.mp braced, plain⟩

theorem findBraced_other {c : Char} (other : c ≠ '$') (rest : Text) :
    findBraced (c :: rest) = none :=
  if_neg fun h => other (List.cons_prefix_cons.mp (List.isPrefixOf_iff_prefix.mp h)).1.symm

theorem findBraced_open {c : Char} (other : c ≠ '{') (rest : Text) :
    findBraced ('$' :: c :: rest) = none := by
  refine if_neg fun h => other ?_
  have := (List.cons_prefix_cons.mp (List.isPrefixOf_iff_prefix.mp h)).2
  exact (List.cons_prefix_cons.mp this).1.symm

theorem findPlain_other {c : Char} (other : c ≠ '$') (rest : Text) :
    findPlain (c :: rest) = none := by
  rw [findPlain, findDollars_cons.mpr fun same => absurd same other, findBare_other other]
  rfl

theorem findRef_other {c : Char} (other : c ≠ '$') (rest : Text) : findRef (c :: rest) = none := by
  rw [findRef, findBraced_other other, findPlain_other other]
  rfl

theorem findBare_passed {find : Text → Option (Ref × Nat)} {inserted : Ref → Text}
    {c : Char} {rest : Text}
    (other : ∀ c ≠ '$', ∀ rest, find (c :: rest) = none) (none : findPlain (c :: rest) = none) :
    findBare (c :: sub find inserted rest) = Option.none := by
  by_cases dollar : c = '$'
  · subst dollar
    obtain ⟨single, bare⟩ := findPlain_none none
    have stops := findBare_none.mp bare
    refine findBare_none.mpr ?_
    cases rest with
    | nil => rfl
    | cons d rest =>
      have apart : d ≠ '$' := fun same => findDollars_cons.mp single rfl (congrArg some same)
      rw [sub_cons (other d apart rest)]
      exact stops
  · exact findBare_other dollar _

theorem dollars_bare {name : Text} (named : isName name = true) (pid : Int) (rest : Text) :
    dollars pid ('$' :: (name ++ rest)) = '$' :: (name ++ dollars pid rest) := by
  have none : '$' ∉ name := notMem_name named (by decide)
  have single : findDollars ('$' :: (name ++ rest)) = Option.none := by
    refine findDollars_cons.mpr fun _ => ?_
    cases name with
    | nil => exact absurd named (by decide)
    | cons c name => exact fun h => none (Option.some.inj h ▸ List.mem_cons_self)
  rw [dollars_cons single, dollars_append none]

theorem dollars_braced {name : Text} (named : isName name = true) (default : Option Text)
    (pid : Int) (rest : Text) :
    dollars pid (bracedAt name default rest) = bracedAt name (default.map (dollars pid))
      (dollars pid rest) := by
  have before : '$' ∉ '{' :: name := by
    rw [List.mem_cons, not_or]
    exact ⟨by decide, notMem_name named (by decide)⟩
  have closes : ∀ text, dollars pid (text ++ '}' :: rest) = dollars pid text ++
    '}' :: dollars pid rest :=
    fun text => dollars_stop (by decide) pid text rest
  have behind : dollars pid (tail default ++ '}' :: rest) =
      tail (default.map (dollars pid)) ++ '}' :: dollars pid rest := by
    cases default with
    | none => exact closes []
    | some word =>
      have marks : '$' ∉ [':', '-'] := by decide
      exact (dollars_append marks pid _).trans (congrArg ([':', '-'] ++ ·) (closes word))
  have single : findDollars (bracedAt name default rest) = none := rfl
  rw [bracedAt, bracedAt, dollars_cons single, ← behind]
  exact congrArg ('$' :: ·) (dollars_append before pid _)

theorem bare_digits (env : Env) (pid : Int) :
    sub findBare (bareValue env) (digits pid) = digits pid :=
  sub_self fun _ mem _ =>
    findBare_other (fun same => notMem_digits (by decide) (by decide) pid (same ▸ mem)) _

theorem bare_name {name : Text} (named : isName name = true) (env : Env) :
    sub findBare (bareValue env) ('$' :: name) = bareValue env name := by
  have found : findBare ('$' :: (name ++ [])) = some (name, name.length + 1) :=
    findBare_append named rfl
  rw [List.append_nil] at found
  rw [sub_match found (List.cons_ne_nil _ _) (Nat.succ_pos _), List.drop_succ_cons,
    List.drop_length, sub_nil,
    List.append_nil]

theorem dollars_word (pid : Int) (word : Text) :
    dollars pid word = sub findPlain (Ref.inserted (fun _ => none) pid) word := by
  induction word using scan findPlain_positive with
  | nil => rfl
  | cons c rest none ih => rw [sub_cons none, dollars_cons (findPlain_none none).1, ih]
  | found text ref len found some ih =>
    rw [sub_match found some (findPlain_positive _ _ _ found), ← ih]
    obtain ⟨-, rest, rfl, left, spelled⟩ := findPlain_spec found
    rw [left]
    cases ref with
    | pid => exact dollars_dollars pid rest
    | bare name => exact dollars_bare spelled.1 pid rest
    | braced name default => exact absurd found findPlain_braced

theorem expandOnce_word {word : Text} (inside : '}' ∉ word) (env : Env) (pid : Int) :
    expandOnce word env pid = expandWord env pid word := by
  refine sub_congr (fun suffix within => ?_) (fun suffix ref len found => ?_)
  · cases braced : findBraced suffix with
    | none => rw [findRef, braced, Option.map_none, Option.none_or]
    | some m =>
      obtain ⟨-, -, -, rest, rfl⟩ := findBraced_spec braced
      refine absurd (within.subset ?_) inside
      simp [bracedAt]
  · cases ref with
    | pid => rfl
    | bare name => rfl
    | braced name default => exact absurd found findPlain_braced

theorem word_expanded {pid : Int} {word : Text} (env : Env) (h : wordApart pid word = true) :
    sub findBare (bareValue env) (dollars pid word) = expandWord env pid word := by
  rw [dollars_word]
  refine sub_sub findPlain_positive (fun c rest none =>
    findBare_passed (fun _ => findPlain_other) none) ?_ h
  intro text ref len found reach
  obtain ⟨-, rest, rfl, left, spelled⟩ := findPlain_spec found
  rw [left] at reach ⊢
  rw [← dollars_word, bare_append reach]
  cases ref with
  | pid => exact congrArg (· ++ _) (bare_digits env pid)
  | bare name => exact congrArg (· ++ _) (bare_name spelled.1 env)
  | braced name default => exact absurd found findPlain_braced

theorem braced_dollars {env : Env} {pid : Int} {text : Text} (h : apart env pid text = true) :
    sub findBraced (fun m => bracedValue env m.1 m.2) (dollars pid text) = seen env pid text := by
  induction text using scan findRef_positive with
  | nil => rfl
  | cons c rest none ih =>
    obtain ⟨passed, behind⟩ := all_cons none h
    have single := (findPlain_none (findRef_none none).2).1
    rw [dollars_cons single, sub_cons (Option.isNone_iff_eq_none.mp passed), ih behind]
    exact (sub_cons none).symm
  | found text ref len found some ih =>
    have length := findRef_positive _ _ _ found
    have behind := ih (all_match found some length h).2
    rw [seen, sub_match found some length]
    obtain ⟨-, rest, rfl, left, spelled⟩ := findRef_spec found
    rw [left] at behind ⊢
    rw [← seen, ← behind]
    cases ref with
    | pid =>
      refine (congrArg _ (dollars_dollars pid rest)).trans
        (sub_append (fun c mem _ => findBraced_other ?_ _) _)
      exact fun same => notMem_digits (by decide) (by decide) pid (same ▸ mem)
    | bare name =>
      have plain : ∀ c ∈ name, ∀ rest, findBraced (c :: rest) = Option.none :=
        fun c mem rest => findBraced_other (fun same =>
          notMem_name spelled.1 (by decide) (same ▸ mem)) rest
      have none : findBraced ('$' :: (name ++ dollars pid rest)) = Option.none := by
        cases name with
        | nil => exact absurd spelled.1 (by decide)
        | cons c name =>
          have opened : '{' ∉ c :: name := notMem_name spelled.1 (by decide)
          exact findBraced_open (fun same => opened (same ▸ List.mem_cons_self)) _
      rw [Ref.before, dollars_bare spelled.1, sub_cons none, sub_append plain]
      rfl
    | braced name default =>
      have inside : ∀ word ∈ default.map (dollars pid), '}' ∉ word := by
        intro word mem
        obtain ⟨plain, here, rfl⟩ := Option.mem_map.mp mem
        exact notMem_dollars (by decide) (by decide) (spelled.2 plain here) pid
      have found := @findBraced_append name (dollars pid rest) _ spelled.1 inside
      rw [Ref.before, dollars_braced spelled.1,
        sub_match found (List.cons_ne_nil _ _) (Nat.succ_pos _), drop_bracedAt]
      rfl

theorem bare_inserted {env : Env} {pid : Int} {ref : Ref} {rest : Text} (spelled : ref.Found rest)
    (h : ref.apart env pid = true) :
    sub findBare (bareValue env) (ref.inserted env pid) = ref.value env pid
      (expandWord env pid) := by
  cases ref with
  | pid => exact bare_digits env pid
  | bare name => exact bare_name spelled.1 env
  | braced name default =>
    rw [Ref.apart] at h
    rw [Ref.inserted, Ref.value, bracedValue, bracedValue]
    split at h
    · next value here =>
      rw [here, Option.getD_some, Option.getD_some]
      exact sub_of_all findBare_positive h
    · next here =>
      rw [here, Option.getD_none, Option.getD_none]
      cases default with
      | none => rfl
      | some word => exact word_expanded env h

/-- The three passes expand a text as one pass does, where it is apart. -/
theorem expand_eq_expandOnce {text : Text} {env : Env} {pid : Int} (h : apart env pid text = true) :
    expand text env pid = expandOnce text env pid := by
  rw [expand, braced_dollars h]
  refine sub_sub findRef_positive (fun c rest none =>
    findBare_passed (fun _ => findRef_other) (findRef_none none).2) ?_ h
  intro text ref len found fits
  obtain ⟨own, reach⟩ := Bool.and_eq_true_iff.mp fits
  obtain ⟨-, rest, rfl, -, spelled⟩ := findRef_spec found
  rw [← seen, bare_append reach, bare_inserted spelled own]

def env (vars : List (String × String)) : Env :=
  fun name => (vars.map fun v => (v.1.toList, v.2.toList)).lookup name

theorem expand_eq_expandOnce_defaults :
    expand "A=${X:-} B=${Y:-d} $X".toList (env [("X", "1")]) 42 =
      expandOnce "A=${X:-} B=${Y:-d} $X".toList (env [("X", "1")]) 42 ∧
    expandOnce "A=${X:-} B=${Y:-d} $X".toList (env [("X", "1")]) 42 = "A=1 B=d 1".toList :=
  ⟨expand_eq_expandOnce rfl, rfl⟩

/-- A value goes on with the name before it, the process id with another, and a value is read as a
name. -/
theorem values_read_again :
    expand "$A${B}".toList (env [("A", "a"), ("B", "b")]) 42 = [] ∧
    expandOnce "$A${B}".toList (env [("A", "a"), ("B", "b")]) 42 = "ab".toList ∧
    expand "$A$$".toList (env [("A", "a")]) 42 = [] ∧
    expandOnce "$A$$".toList (env [("A", "a")]) 42 = "a42".toList ∧
    expand "${X}".toList (env [("X", "$Y"), ("Y", "1")]) 42 = "1".toList ∧
    expandOnce "${X}".toList (env [("X", "$Y"), ("Y", "1")]) 42 = "$Y".toList :=
  ⟨rfl, rfl, rfl, rfl, rfl, rfl⟩

end BlizzardMock.Harness.OpenCode2.Shell
