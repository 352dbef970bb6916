import BlizzardMock.Data.LastWrite
import BlizzardMock.Idp.Api
import BlizzardMock.Python.UrlLaws

/-! Who a token signs in: the identity an authorization chose, whose code was exchanged for the
token, with no reset in between, and nobody else. -/

namespace BlizzardMock.Idp

theorem urlencode_injective {xs ys : List (Text × Text)} (h : Url.urlencode xs = Url.urlencode ys) :
    xs = ys := by
  let _ : Url.Replacing := ⟨fun _ => []⟩
  rw [← Url.parseQsl_urlencode xs, h, Url.parseQsl_urlencode]

theorem callback_injective {redirectUri : String} {xs ys : List (String × String)}
    (h : callback redirectUri xs = callback redirectUri ys) : xs = ys := by
  have same := urlencode_injective
    (List.cons.inj (List.append_cancel_left (Reply.redirect.inj h))).2
  refine List.map_injective_iff.mpr ?_ same
  rintro ⟨k, v⟩ ⟨k', v'⟩ pairs
  rw [Prod.mk.injEq, String.toList_inj, String.toList_inj] at pairs
  exact Prod.ext pairs.1 pairs.2

inductive Request.Authorizes : Request → String → String → Option String → Prop
  | github (redirectUri state : String) (loginHint : Option String) :
      Authorizes (.githubAuthorize redirectUri state loginHint) redirectUri state loginHint
  | oidc (redirectUri state : String) (loginHint : Option String) :
      Authorizes (.oidcAuthorize redirectUri state loginHint) redirectUri state loginHint

inductive Request.Redeems : Request → String → Prop
  | github (code : String) : Redeems (.githubAccessToken code) code
  | oidc (base code clientId : String) : Redeems (.oidcToken base code clientId) code

section Laws

variable [Casing] [Signing]

/-- An authorization of a profile is answered with a code. -/
def Signs (idp : IdpState) (request : Request) (code : String) (profile : Profile) : Prop :=
  ∃ redirectUri state loginHint, request.Authorizes redirectUri state loginHint ∧
    idp.hinted loginHint = some profile ∧
    reply request idp = callback redirectUri [("code", code), ("state", state)]

/-- An exchange of a code is answered with a token of a profile, and with an id token of the same
profile where the shape has one. -/
inductive Grants (idp : IdpState) : Request → String → String → Profile → Prop
  | github {code token : String} {profile : Profile}
      (answered : reply (.githubAccessToken code) idp = .json 200 (tokenContent token)) :
      Grants idp (.githubAccessToken code) code token profile
  | oidc {base code clientId token : String} {profile : Profile} (now : Int)
      (answered : reply (.oidcToken base code clientId) idp =
        .json 200 (idTokenContent
          (Signing.encode (idTokenPayload profile base clientId now)) token)) :
      Grants idp (.oidcToken base code clientId) code token profile

def mints (request : Request) (idp : IdpState) : Option Profile :=
  match request with
  | .githubAuthorize _ _ loginHint => if idp.refuseCallback then none else idp.hinted loginHint
  | .oidcAuthorize _ _ loginHint => if idp.refuseCallback then none else idp.hinted loginHint
  | _ => none

def redeems : Request → Option String
  | .githubAccessToken code => some code
  | .oidcToken _ code _ => some code
  | _ => none

def resets : Request → Bool
  | .reset => true
  | _ => false

def writesCode (code : String) (request : Request) (idp : IdpState) : Option (Option Profile) :=
  if resets request = true ∨ redeems request = some code then some none
  else (mints request idp).bind fun profile =>
    if idp.secrets.head = code then some (some profile) else none

def writesToken (token : String) (request : Request) (idp : IdpState) : Option (Option Profile) :=
  if resets request = true then some none
  else ((redeems request).bind idp.codes.get?).bind fun profile =>
    if idp.secrets.head = token then some (some profile) else none

omit [Signing] in
theorem authorize_codes (idp : IdpState) (redirectUri state : String) (loginHint : Option String)
    (code : String) :
    (authorize idp redirectUri state loginHint).2.codes.get? code =
      ((if idp.refuseCallback then none else idp.hinted loginHint).bind fun profile =>
        if idp.secrets.head = code then some (some profile) else none).getD
          (idp.codes.get? code) := by
  simp only [authorize]
  split
  · rfl
  · cases idp.hinted loginHint with
    | none => rfl
    | some profile =>
      simp only [IdpState.mintCode, Dict.get?_set, Option.bind_some, eq_comm (a := code)]
      split <;> rfl

theorem next_codes (code : String) (request : Request) (idp : IdpState) :
    (next request idp).codes.get? code = (writesCode code request idp).getD
      (idp.codes.get? code) := by
  cases request with
  | githubAuthorize redirectUri state loginHint =>
    exact (authorize_codes idp redirectUri state loginHint code).trans
      (by simp [writesCode, mints, redeems, resets])
  | oidcAuthorize redirectUri state loginHint =>
    exact (authorize_codes idp redirectUri state loginHint code).trans
      (by simp [writesCode, mints, redeems, resets])
  | githubAccessToken other =>
    simp only [next, serve, githubAccessToken, IdpState.consumeCode, writesCode, mints,
      redeems, resets]
    cases idp.codes.get? other <;> by_cases same : other = code <;>
      simp [same, IdpState.mintAccessToken, Dict.get?_erase, eq_comm (a := code)]
  | oidcToken base other clientId =>
    simp only [next, serve, oidcToken, IdpState.consumeCode, writesCode, mints, redeems, resets]
    cases idp.codes.get? other <;> by_cases same : other = code <;>
      simp [same, IdpState.mintAccessToken, Dict.get?_erase, eq_comm (a := code)]
  | setProfile fields =>
    simp only [next, serve, setProfile, writesCode, mints, redeems, resets]
    cases fields.validate <;> simp [IdpState.setProfile]
  | registerIdentity fields =>
    simp only [next, serve, registerIdentity, writesCode, mints, redeems, resets]
    cases fields.validate with
    | error message => simp
    | ok profile =>
      dsimp only
      split <;> simp [IdpState.registerIdentity]
  | reset => simp [next, serve, writesCode, resets, IdpState.reset]
  | _ => simp [next, serve, writesCode, mints, redeems, resets]

omit [Signing] in
theorem authorize_accessTokens (idp : IdpState) (redirectUri state : String)
    (loginHint : Option String) :
    (authorize idp redirectUri state loginHint).2.accessTokens = idp.accessTokens := by
  simp only [authorize]
  split
  · rfl
  · cases idp.hinted loginHint <;> rfl

theorem next_tokens (token : String) (request : Request) (idp : IdpState) :
    (next request idp).accessTokens.get? token =
      (writesToken token request idp).getD (idp.accessTokens.get? token) := by
  cases request with
  | githubAuthorize redirectUri state loginHint =>
    simp [next, serve, githubAuthorize, authorize_accessTokens, writesToken, redeems, resets]
  | oidcAuthorize redirectUri state loginHint =>
    simp [next, serve, oidcAuthorize, authorize_accessTokens, writesToken, redeems, resets]
  | githubAccessToken other =>
    simp only [next, serve, githubAccessToken, IdpState.consumeCode, writesToken, redeems, resets]
    cases found : idp.codes.get? other with
    | none => simp [found]
    | some profile => by_cases same : idp.secrets.head = token <;>
        simp [found, same, IdpState.mintAccessToken, Dict.get?_set, eq_comm (a := token)]
  | oidcToken base other clientId =>
    simp only [next, serve, oidcToken, IdpState.consumeCode, writesToken, redeems, resets]
    cases found : idp.codes.get? other with
    | none => simp [found]
    | some profile => by_cases same : idp.secrets.head = token <;>
        simp [found, same, IdpState.mintAccessToken, Dict.get?_set, eq_comm (a := token)]
  | setProfile fields =>
    simp only [next, serve, setProfile, writesToken, redeems, resets]
    cases fields.validate <;> simp [IdpState.setProfile]
  | registerIdentity fields =>
    simp only [next, serve, registerIdentity, writesToken, redeems, resets]
    cases fields.validate with
    | error message => simp
    | ok profile =>
      dsimp only
      split <;> simp [IdpState.registerIdentity]
  | reset => simp [next, serve, writesToken, resets, IdpState.reset]
  | _ => simp [next, serve, writesToken, redeems, resets]

def Past (secrets : Stream' String) (place : Nat) (idp : IdpState) : Prop :=
  ∃ later, place ≤ later ∧ idp.secrets = secrets.drop later

theorem next_secrets (request : Request) (idp : IdpState) :
    (next request idp).secrets = idp.secrets ∨ (next request idp).secrets = idp.secrets.tail := by
  have authorized (redirectUri state : String) (loginHint : Option String) :
      (authorize idp redirectUri state loginHint).2.secrets = idp.secrets ∨
        (authorize idp redirectUri state loginHint).2.secrets = idp.secrets.tail := by
    simp only [authorize]
    split
    · exact .inl rfl
    · cases idp.hinted loginHint with
      | none => exact .inl rfl
      | some profile => exact .inr rfl
  cases request with
  | githubAuthorize redirectUri state loginHint => exact authorized redirectUri state loginHint
  | oidcAuthorize redirectUri state loginHint => exact authorized redirectUri state loginHint
  | githubAccessToken code =>
    simp only [next, serve, githubAccessToken, IdpState.consumeCode]
    cases idp.codes.get? code with
    | none => exact .inl rfl
    | some profile => exact .inr rfl
  | oidcToken base code clientId =>
    simp only [next, serve, oidcToken, IdpState.consumeCode]
    cases idp.codes.get? code with
    | none => exact .inl rfl
    | some profile => exact .inr rfl
  | setProfile fields =>
    simp only [next, serve, setProfile]
    cases fields.validate <;> exact .inl rfl
  | registerIdentity fields =>
    simp only [next, serve, registerIdentity]
    cases fields.validate with
    | error message => exact .inl rfl
    | ok profile =>
      dsimp only
      split <;> exact .inl rfl
  | _ => exact .inl rfl

theorem next_past {secrets : Stream' String} {place : Nat} (request : Request) {idp : IdpState}
    (past : Past secrets place idp) : Past secrets place (next request idp) := by
  obtain ⟨later, further, drawn⟩ := past
  rcases next_secrets request idp with same | one
  · exact ⟨later, further, same.trans drawn⟩
  · refine ⟨later + 1, by omega, ?_⟩
    rw [one, drawn, Stream'.tail_drop']

omit [Signing] in
theorem head_ne_of_past {secrets : Stream' String}
    (distinct : Function.Injective secrets.get) {place : Nat}
    {idp : IdpState} (past : Past secrets (place + 1) idp) :
    idp.secrets.head ≠ secrets.get place := by
  obtain ⟨later, further, drawn⟩ := past
  rw [drawn, Stream'.head_drop]
  intro same
  have := distinct same
  omega

theorem secrets_of_mints {request : Request} {idp : IdpState} {profile : Profile}
    (minted : mints request idp = some profile) : (next request idp).secrets =
      idp.secrets.tail := by
  have authorized (redirectUri state : String) (loginHint : Option String)
      (minted : (if idp.refuseCallback then none else idp.hinted loginHint) = some profile) :
      (authorize idp redirectUri state loginHint).2.secrets = idp.secrets.tail := by
    simp only [authorize]
    split at minted
    case isTrue => cases minted
    case isFalse refused => simp [refused, minted, IdpState.mintCode]
  cases request with
  | githubAuthorize redirectUri state loginHint =>
    exact authorized redirectUri state loginHint minted
  | oidcAuthorize redirectUri state loginHint => exact authorized redirectUri state loginHint minted
  | _ => cases minted

theorem secrets_of_redeems {request : Request} {idp : IdpState} {code : String} {profile : Profile}
    (redeemed : redeems request = some code) (held : idp.codes.get? code = some profile) :
    (next request idp).secrets = idp.secrets.tail := by
  cases request with
  | githubAccessToken other =>
    cases redeemed
    simp [next, serve, githubAccessToken, IdpState.consumeCode, held, IdpState.mintAccessToken]
  | oidcToken base other clientId =>
    cases redeemed
    simp [next, serve, oidcToken, IdpState.consumeCode, held, IdpState.mintAccessToken]
  | _ => cases redeemed

section Runs

variable {secrets : Stream' String} (distinct : Function.Injective secrets.get)
include distinct

theorem quiet_code {place : Nat} {requests : List Request} {idp : IdpState}
    (past : Past secrets (place + 1) idp) :
    Machine.Meets next (fun request idp =>
      writesCode (secrets.get place) request idp = none) requests idp ↔
      ∀ request ∈ requests, resets request = false ∧
        redeems request ≠ some (secrets.get place) := by
  induction requests generalizing idp with
  | nil => simp [Machine.Meets]
  | cons request rest ih =>
    rw [Machine.Meets, ih (next_past request past), List.forall_mem_cons]
    refine and_congr_left fun _ => ?_
    have other := head_ne_of_past distinct past
    simp [writesCode, other]

theorem quiet_token {place : Nat} {requests : List Request} {idp : IdpState}
    (past : Past secrets (place + 1) idp) :
    Machine.Meets next (fun request idp =>
      writesToken (secrets.get place) request idp = none) requests idp ↔
      ∀ request ∈ requests, resets request = false := by
  induction requests generalizing idp with
  | nil => simp [Machine.Meets]
  | cons request rest ih =>
    rw [Machine.Meets, ih (next_past request past), List.forall_mem_cons]
    refine and_congr_left fun _ => ?_
    have other := head_ne_of_past distinct past
    simp [writesToken, other]

omit distinct in
theorem past_run (secrets : Stream' String) (clock : Stream' Int) (requests : List Request) :
    Past secrets 0 (Machine.after next requests (fresh secrets clock)) :=
  Machine.invariant_always (fun request _ past => next_past request past) requests ⟨0, le_rfl, rfl⟩

omit distinct [Signing] in
theorem writesCode_some {code : String} {request : Request} {idp : IdpState} {profile : Profile} :
    writesCode code request idp = some (some profile) ↔
      mints request idp = some profile ∧ idp.secrets.head = code := by
  have plain (minted : mints request idp = some profile) :
      ¬ (resets request = true ∨ redeems request = some code) := by
    cases request <;> simp_all [mints, resets, redeems]
  rw [writesCode]
  constructor
  · intro written
    split at written
    · cases written
    · obtain ⟨other, minted, drawn⟩ := Option.bind_eq_some_iff.mp written
      split at drawn
      case isTrue same =>
        cases drawn
        exact ⟨minted, same⟩
      case isFalse => cases drawn
  · rintro ⟨minted, same⟩
    rw [if_neg (plain minted), minted, Option.bind_some, if_pos same]

omit distinct [Signing] in
theorem writesToken_some {token : String} {request : Request} {idp : IdpState} {profile : Profile} :
    writesToken token request idp = some (some profile) ↔
      ∃ code, redeems request = some code ∧ idp.codes.get? code = some profile ∧
        idp.secrets.head = token := by
  rw [writesToken]
  constructor
  · intro written
    split at written
    · cases written
    · obtain ⟨other, held, drawn⟩ := Option.bind_eq_some_iff.mp written
      obtain ⟨code, redeemed, held⟩ := Option.bind_eq_some_iff.mp held
      split at drawn
      case isTrue same =>
        cases drawn
        exact ⟨code, redeemed, held, same⟩
      case isFalse => cases drawn
  · rintro ⟨code, redeemed, held, same⟩
    have plain : resets request = false := by
      cases request with
      | reset => cases redeemed
      | _ => rfl
    simp [plain, redeemed, held, same]

theorem code_iff {clock : Stream' Int} {requests : List Request} {code : String}
    {profile : Profile} :
    (Machine.after next requests (fresh secrets clock)).codes.get? code = some profile ↔
      ∃ xs sign ys, requests = xs ++ sign :: ys ∧
        mints sign (Machine.after next xs (fresh secrets clock)) = some profile ∧
        (Machine.after next xs (fresh secrets clock)).secrets.head = code ∧
        ∀ request ∈ ys, resets request = false ∧ redeems request ≠ some code := by
  refine (Machine.cell_iff (g := fun idp : IdpState => idp.codes.get? code)
    (next_codes code)).trans ?_
  rw [or_iff_left (by rintro ⟨held, _⟩; cases held)]
  refine exists_congr fun xs => exists_congr fun sign => exists_congr fun ys =>
    and_congr_right fun _ => ?_
  rw [writesCode_some, and_assoc]
  refine and_congr_right fun minted => and_congr_right fun drawn => ?_
  obtain ⟨place, _, past⟩ := past_run secrets clock xs
  rw [past, Stream'.head_drop] at drawn
  subst drawn
  refine quiet_code distinct ⟨place + 1, le_rfl, ?_⟩
  rw [secrets_of_mints minted, past, Stream'.tail_drop']

theorem token_iff {clock : Stream' Int} {requests : List Request} {token : String}
    {profile : Profile} :
    (Machine.after next requests (fresh secrets clock)).accessTokens.get? token = some profile ↔
      ∃ xs exchange zs code, requests = xs ++ exchange :: zs ∧ redeems exchange = some code ∧
        (Machine.after next xs (fresh secrets clock)).codes.get? code = some profile ∧
        (Machine.after next xs (fresh secrets clock)).secrets.head = token ∧
        ∀ request ∈ zs, resets request = false := by
  refine (Machine.cell_iff (g := fun idp : IdpState => idp.accessTokens.get? token)
    (next_tokens token)).trans ?_
  rw [or_iff_left (by rintro ⟨held, _⟩; cases held)]
  refine exists_congr fun xs => exists_congr fun exchange => exists_congr fun zs => ?_
  rw [writesToken_some]
  have quiet {code : String} (redeemed : redeems exchange = some code)
      (held : (Machine.after next xs (fresh secrets clock)).codes.get? code = some profile)
      (drawn : (Machine.after next xs (fresh secrets clock)).secrets.head = token) :
      Machine.Meets next (fun request idp => writesToken token request idp = none) zs
        (next exchange (Machine.after next xs (fresh secrets clock))) ↔
          ∀ request ∈ zs, resets request = false := by
    obtain ⟨place, _, past⟩ := past_run secrets clock xs
    rw [past, Stream'.head_drop] at drawn
    subst drawn
    refine quiet_token distinct ⟨place + 1, le_rfl, ?_⟩
    rw [secrets_of_redeems redeemed held, past, Stream'.tail_drop']
  constructor
  · rintro ⟨split, ⟨code, redeemed, held, drawn⟩, left⟩
    exact ⟨code, split, redeemed, held, drawn, (quiet redeemed held drawn).mp left⟩
  · rintro ⟨code, split, redeemed, held, drawn, left⟩
    exact ⟨split, ⟨code, redeemed, held, drawn⟩, (quiet redeemed held drawn).mpr left⟩

end Runs

theorem signs_iff {idp : IdpState} {request : Request} {code : String} {profile : Profile} :
    Signs idp request code profile ↔ mints request idp = some profile ∧
      idp.secrets.head = code := by
  have answered (redirectUri state : String) (loginHint : Option String)
      (hinted : idp.hinted loginHint = some profile) :
      (authorize idp redirectUri state loginHint).1 = callback redirectUri
        [("code", code), ("state", state)] ↔
        idp.refuseCallback = false ∧ idp.secrets.head = code := by
    simp only [authorize]
    cases refused : idp.refuseCallback with
    | true =>
      simp only [if_true, reduceCtorEq, false_and, iff_false]
      intro same
      have := callback_injective same
      simp at this
    | false =>
      simp only [hinted, IdpState.mintCode, Bool.false_eq_true, if_false, true_and]
      constructor
      · intro same
        have := callback_injective same
        simpa using this
      · intro same
        rw [same]
  have minted (loginHint : Option String) :
      (if idp.refuseCallback then none else idp.hinted loginHint) = some profile ↔
        idp.refuseCallback = false ∧ idp.hinted loginHint = some profile := by
    cases idp.refuseCallback <;> simp
  constructor
  · rintro ⟨redirectUri, state, loginHint, authorizes, hinted, same⟩
    cases authorizes with
    | github =>
      have := (answered redirectUri state loginHint hinted).mp same
      exact ⟨(minted loginHint).mpr ⟨this.1, hinted⟩, this.2⟩
    | oidc =>
      have := (answered redirectUri state loginHint hinted).mp same
      exact ⟨(minted loginHint).mpr ⟨this.1, hinted⟩, this.2⟩
  · rintro ⟨mint, drawn⟩
    cases request with
    | githubAuthorize redirectUri state loginHint =>
      obtain ⟨refused, hinted⟩ := (minted loginHint).mp mint
      exact ⟨redirectUri, state, loginHint, .github _ _ _, hinted,
        (answered redirectUri state loginHint hinted).mpr ⟨refused, drawn⟩⟩
    | oidcAuthorize redirectUri state loginHint =>
      obtain ⟨refused, hinted⟩ := (minted loginHint).mp mint
      exact ⟨redirectUri, state, loginHint, .oidc _ _ _, hinted,
        (answered redirectUri state loginHint hinted).mpr ⟨refused, drawn⟩⟩
    | _ => cases mint

theorem grants_of_held {idp : IdpState} {request : Request} {code : String} {profile : Profile}
    (redeemed : redeems request = some code) (held : idp.codes.get? code = some profile) :
    Grants idp request code idp.secrets.head profile := by
  cases request with
  | githubAccessToken other =>
    cases redeemed
    refine .github ?_
    simp [reply, serve, githubAccessToken, IdpState.consumeCode, held, IdpState.mintAccessToken]
  | oidcToken base other clientId =>
    cases redeemed
    refine .oidc idp.clock.head ?_
    simp [reply, serve, oidcToken, IdpState.consumeCode, held, IdpState.mintAccessToken]
  | _ => cases redeemed

theorem held_of_grants {idp : IdpState} {request : Request} {code token : String}
    {profile : Profile}
    (grants : Grants idp request code token profile) :
    redeems request = some code ∧ (∃ held, idp.codes.get? code = some held) ∧
      idp.secrets.head = token := by
  cases grants with
  | github answered =>
    simp only [reply, serve, githubAccessToken, IdpState.consumeCode] at answered
    cases held : idp.codes.get? code with
    | none => simp [held] at answered
    | some other =>
      simp only [held, IdpState.mintAccessToken, tokenContent, Reply.json.injEq, Json.obj.injEq,
        List.cons.injEq, Prod.mk.injEq, Json.str.injEq, true_and, and_true] at answered
      exact ⟨rfl, ⟨other, rfl⟩, answered⟩
  | oidc now answered =>
    simp only [reply, serve, oidcToken, IdpState.consumeCode] at answered
    cases held : idp.codes.get? code with
    | none => simp [held] at answered
    | some other =>
      simp only [held, IdpState.mintAccessToken, idTokenContent, Reply.json.injEq, Json.obj.injEq,
        List.cons.injEq, Prod.mk.injEq, Json.str.injEq, true_and, and_true] at answered
      exact ⟨rfl, ⟨other, rfl⟩, answered.2⟩

omit [Signing] in
theorem profileForBearer_token (idp : IdpState) (token : String) :
    profileForBearer idp (some (tokenPrefix ++ token)) = idp.accessTokens.get? token := by
  rw [profileForBearer, Option.bind_some, if_pos (startsWith_append _ _), String.toList_append,
    show tokenPrefix.length = tokenPrefix.toList.length from rfl, List.drop_left,
      String.ofList_toList]
  rfl

theorem user_iff {idp : IdpState} {token login : String} {id : Int} :
    reply (.githubUser (some (tokenPrefix ++ token))) idp =
        .json 200 (.obj [("id", .int id), ("login", .str login)]) ↔
      ∃ profile, idp.accessTokens.get? token = some profile ∧ intOfText profile.subject = .ok id ∧
        profile.handle = login := by
  simp only [reply, serve, githubUser, profileForBearer_token]
  cases idp.accessTokens.get? token with
  | none => simp [unauthorized]
  | some profile =>
    simp only [Option.some.injEq, exists_eq_left']
    cases intOfText profile.subject <;> simp

section Protocol

variable {secrets : Stream' String} (distinct : Function.Injective secrets.get)
include distinct

/-- A token signs an identity in when an authorization of that identity was answered with a code,
the first exchange of the code was answered with the token, and no reset came after either; whatever
was asked, set and signed in beside that. -/
theorem signed_in_iff {clock : Stream' Int} {requests : List Request}
    {token login : String} {id : Int} :
    reply (.githubUser (some (tokenPrefix ++ token)))
      (Machine.after next requests (fresh secrets clock)) =
        .json 200 (.obj [("id", .int id), ("login", .str login)]) ↔
      ∃ xs sign ys exchange zs code profile, requests = (xs ++ sign :: ys) ++ exchange :: zs ∧
        Signs (Machine.after next xs (fresh secrets clock)) sign code profile ∧
        (∀ request ∈ ys, resets request = false ∧ redeems request ≠ some code) ∧
        Grants (Machine.after next (xs ++ sign :: ys) (fresh secrets clock)) exchange code
          token profile ∧
        (∀ request ∈ zs, resets request = false) ∧
        intOfText profile.subject = .ok id ∧ profile.handle = login := by
  rw [user_iff]
  constructor
  · rintro ⟨profile, out, subject, handle⟩
    obtain ⟨before, exchange, zs, code, split, redeemed, held, drawn, quiet⟩ :=
      (token_iff distinct).mp out
    obtain ⟨xs, sign, ys, split', minted, head, unspent⟩ := (code_iff distinct).mp held
    subst split'
    exact ⟨xs, sign, ys, exchange, zs, code, profile, split, signs_iff.mpr ⟨minted, head⟩, unspent,
      drawn ▸ grants_of_held redeemed held, quiet, subject, handle⟩
  · rintro ⟨xs, sign, ys, exchange, zs, code, profile, split, signs, unspent, grants, quiet,
      subject, handle⟩
    obtain ⟨minted, head⟩ := signs_iff.mp signs
    have held := (code_iff distinct).mpr ⟨xs, sign, ys, rfl, minted, head, unspent⟩
    obtain ⟨redeemed, _, drawn⟩ := held_of_grants grants
    exact ⟨profile, (token_iff distinct).mpr ⟨_, exchange, zs, code, split, redeemed, held,
      drawn, quiet⟩,
      subject, handle⟩

/-- A code that was exchanged is never exchanged again, in neither shape. -/
theorem code_spent {clock : Stream' Int} {xs ys : List Request} {first second : Request}
    {code token token' : String} {profile profile' : Profile}
    (granted : Grants (Machine.after next xs (fresh secrets clock)) first code token profile) :
    ¬ Grants (Machine.after next (xs ++ first :: ys) (fresh secrets clock)) second code token'
      profile' := by
  intro again
  obtain ⟨redeemed, ⟨held, out⟩, _⟩ := held_of_grants granted
  obtain ⟨us, sign, vs, rfl, minted, head, _⟩ := (code_iff distinct).mp out
  obtain ⟨place, _, past⟩ := past_run secrets clock us
  rw [past, Stream'.head_drop] at head
  subst head
  let minting := Machine.after next us (fresh secrets clock)
  have minted' : Past secrets (place + 1) (next sign minting) :=
    ⟨place + 1, le_rfl, by rw [secrets_of_mints minted, past, Stream'.tail_drop']⟩
  have before : Past secrets (place + 1) (Machine.after next vs (next sign minting)) :=
    Machine.invariant_always (fun request _ past => next_past request past) vs minted'
  -- from its exchange on the code is out for nobody, and what is drawn is past it
  have gone : (next first (Machine.after next vs (next sign minting))).codes.get?
    (secrets.get place) = none := by
    rw [next_codes, writesCode, if_pos (.inr redeemed)]
    rfl
  have later := Machine.invariant_always
    (I := fun idp => idp.codes.get? (secrets.get place) = none ∧ Past secrets (place + 1) idp)
    (fun request idp kept => by
      have other := head_ne_of_past distinct kept.2
      refine ⟨?_, next_past request kept.2⟩
      rw [next_codes, writesCode]
      by_cases touched : resets request = true ∨ redeems request = some (secrets.get place)
      · rw [if_pos touched]
        rfl
      · rw [if_neg touched]
        cases mints request idp with
        | none => exact kept.1
        | some minted =>
          rw [Option.bind_some, if_neg other]
          exact kept.1)
    ys ⟨gone, next_past first before⟩
  have reached : Machine.after next ((us ++ sign :: vs) ++ first :: ys) (fresh secrets clock) =
      Machine.after next ys (next first (Machine.after next vs (next sign minting))) := by
    rw [Machine.after_append, Machine.after_cons, Machine.after_append, Machine.after_cons]
  obtain ⟨_, ⟨other, held'⟩, _⟩ := held_of_grants again
  rw [reached, later.1] at held'
  cases held'

end Protocol

end Laws

section Toy

def toySecrets : Stream' String := fun n => String.ofList (List.replicate n 'a')

theorem toySecrets_distinct : Function.Injective toySecrets.get := by
  intro m n same
  have lengths := congrArg String.length same
  simpa [Stream'.get, toySecrets] using lengths

abbrev Signing.plain : Signing := ⟨Json.dumps⟩

def toyClock : Stream' Int := fun n => n

attribute [local instance] Casing.plain Signing.plain

theorem signed_in_toy :
    reply (.githubUser (some (tokenPrefix ++ "a"))) (Machine.after next
      [.githubAuthorize "http://hub/callback" "s" none,
        .setProfile { subject := "7", handle := "mona" },
        .githubAccessToken ""] (fresh toySecrets toyClock)) =
      .json 200 (.obj [("id", .int 1001), ("login", .str "octocat")]) :=
  (signed_in_iff toySecrets_distinct).mpr
    ⟨[], _, [_], _, [], "", defaultProfile,
      rfl, ⟨_, _, _, .github _ _ _, rfl, rfl⟩, by simp [resets, redeems],
      .github rfl, by simp, rfl, rfl⟩

theorem code_spent_toy :
    let spent := Machine.after next
      ([.githubAuthorize "http://hub/callback" "s" none] ++ .githubAccessToken "" :: [])
      (fresh toySecrets toyClock)
    ¬ ∃ token profile, Grants spent (.oidcToken "http://idp" "" "hub") "" token profile := by
  rintro spent ⟨token, profile, again⟩
  have granted : Grants (Machine.after next [.githubAuthorize "http://hub/callback" "s" none]
      (fresh toySecrets toyClock)) (.githubAccessToken "") "" "a" defaultProfile := .github rfl
  exact code_spent toySecrets_distinct granted again

end Toy

end BlizzardMock.Idp
