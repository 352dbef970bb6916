import BlizzardMock.Idp.State
import BlizzardMock.Python.Url

namespace BlizzardMock.Idp

class Signing where
  encode : Json → String

inductive Reply
  | json (status : Nat) (content : Json)
  | redirect (location : Text)
  | invalid (message : String)
  | crashed

inductive Request
  | setProfile (fields : ProfileFields)
  | getProfile
  | registerIdentity (fields : ProfileFields)
  | getIdentities
  | setRefuseCallback (refuse : Bool)
  | reset
  | githubAuthorize (redirectUri state : String) (loginHint : Option String)
  | githubAccessToken (code : String)
  | githubUser (authorization : Option String)
  | githubUserEmails (authorization : Option String)
  | oidcAuthorize (redirectUri state : String) (loginHint : Option String)
  | oidcToken (base code clientId : String)

variable [Casing]

section Routes

variable (idp : IdpState)

def callback (redirectUri : String) (query : List (String × String)) : Reply :=
  .redirect (redirectUri.toList ++ '?' ::
    Url.urlencode (query.map fun item => (item.1.toList, item.2.toList)))

/-- The profile an authorization is for: the current one, or that of the identity a hint names. -/
def IdpState.hinted (loginHint : Option String) : Option Profile :=
  match loginHint with
  | none => some idp.profile
  | some hint => idp.identityForHint hint

def authorize (redirectUri state : String) (loginHint : Option String) : Reply × IdpState :=
  let denied := callback redirectUri [("error", "access_denied"), ("state", state)]
  if idp.refuseCallback then (denied, idp)
  else match idp.hinted loginHint with
    | none => (denied, idp)
    | some profile =>
      let (code, idp) := idp.mintCode profile
      (callback redirectUri [("code", code), ("state", state)], idp)

def githubAuthorize (redirectUri state : String) (loginHint : Option String) : Reply × IdpState :=
  authorize idp redirectUri state loginHint

def oidcAuthorize (redirectUri state : String) (loginHint : Option String) : Reply × IdpState :=
  authorize idp redirectUri state loginHint

def tokenContent (token : String) : Json :=
  .obj [("access_token", .str token), ("token_type", .str "bearer"), ("scope", .str "user:email")]

def githubAccessToken (code : String) : Reply × IdpState :=
  match idp.consumeCode code with
  | (none, idp) => (.json 400 (.obj [("error", .str "bad_verification_code")]), idp)
  | (some profile, idp) =>
    let (token, idp) := idp.mintAccessToken profile
    (.json 200 (tokenContent token), idp)

def idTokenTtlSeconds : Int := 300

def idTokenPayload (profile : Profile) (issuer audience : String) (now : Int) : Json :=
  .obj ([("iss", .str issuer), ("aud", .str audience), ("sub", .str profile.subject),
    ("iat", .int now),
    ("exp", .int (now + idTokenTtlSeconds)), ("preferred_username", .str profile.handle)] ++
      match profile.email with
      | none => []
      | some email => [("email", .str email), ("email_verified", .bool profile.emailVerified)])

def idTokenContent (idToken token : String) : Json :=
  .obj [("id_token", .str idToken), ("access_token", .str token), ("token_type", .str "bearer"),
    ("expires_in", .int 300)]

def oidcToken [Signing] (base code clientId : String) : Reply × IdpState :=
  match idp.consumeCode code with
  | (none, idp) => (.json 400 (.obj [("error", .str "invalid_grant")]), idp)
  | (some profile, idp) =>
    let idToken := Signing.encode (idTokenPayload profile base clientId idp.clock.head)
    let (token, idp) := { idp with clock := idp.clock.tail }.mintAccessToken profile
    (.json 200 (idTokenContent idToken token), idp)

def tokenPrefix : String := "token "

def profileForBearer (authorization : Option String) : Option Profile :=
  authorization.bind fun header =>
    if startsWith header tokenPrefix then
      idp.profileForAccessToken (String.ofList (header.toList.drop tokenPrefix.length))
    else none

def unauthorized : Reply := .json 401 (.obj [("message", .str "Bad credentials")])

def githubUser (authorization : Option String) : Reply :=
  match profileForBearer idp authorization with
  | none => unauthorized
  | some profile => match intOfText profile.subject with
    | .ok id => .json 200 (.obj [("id", .int id), ("login", .str profile.handle)])
    | .error _ => .crashed

def emails (profile : Profile) : List Json :=
  let entry (email : String) (isPrimary verified : Bool) : Json :=
    .obj [("email", .str email), ("primary", .bool isPrimary), ("verified", .bool verified)]
  (profile.email.map (entry · true profile.emailVerified)).toList ++
    profile.secondaryEmails.map fun other => entry other.email false other.verified

def githubUserEmails (authorization : Option String) : Reply :=
  match profileForBearer idp authorization with
  | none => unauthorized
  | some profile => .json 200 (.arr (emails profile))

def dumpProfile (profile : Profile) : Json :=
  .obj [("subject", .str profile.subject), ("handle", .str profile.handle),
    ("email", profile.email.elim .null .str), ("email_verified", .bool profile.emailVerified),
    ("secondary_emails", .arr (profile.secondaryEmails.map fun other =>
      .obj [("email", .str other.email), ("verified", .bool other.verified)])),
    ("role", profile.role.elim .null .str)]

def setProfile (fields : ProfileFields) : Reply × IdpState :=
  match fields.validate with
  | .error message => (.invalid message, idp)
  | .ok profile => (.json 200 (.obj [("profile", dumpProfile profile)]), idp.setProfile profile)

def registerIdentity (fields : ProfileFields) : Reply × IdpState :=
  match fields.validate with
  | .error message => (.invalid message, idp)
  | .ok profile => match profile.email with
    | none => (.json 422 (.obj [("detail", .str "an identity needs a primary email")]), idp)
    | some email =>
      (.json 200 (.obj [("identity", dumpProfile profile)]), idp.registerIdentity profile email)

end Routes

variable [Signing]

def serve (request : Request) (idp : IdpState) : Reply × IdpState :=
  match request with
  | .setProfile fields => setProfile idp fields
  | .getProfile => (.json 200 (.obj [("profile", dumpProfile idp.profile)]), idp)
  | .registerIdentity fields => registerIdentity idp fields
  | .getIdentities =>
    (.json 200 (.obj [("identities", .arr (idp.identities.values.map dumpProfile))]), idp)
  | .setRefuseCallback refuse =>
    (.json 200 (.obj [("refuse_callback", .bool refuse)]), { idp with refuseCallback := refuse })
  | .reset => (.json 200 (.obj [("reset", .bool true)]), idp.reset)
  | .githubAuthorize redirectUri state loginHint => githubAuthorize idp redirectUri state loginHint
  | .githubAccessToken code => githubAccessToken idp code
  | .githubUser authorization => (githubUser idp authorization, idp)
  | .githubUserEmails authorization => (githubUserEmails idp authorization, idp)
  | .oidcAuthorize redirectUri state loginHint => oidcAuthorize idp redirectUri state loginHint
  | .oidcToken base code clientId => oidcToken idp base code clientId

def reply (request : Request) (idp : IdpState) : Reply := (serve request idp).1

def next (request : Request) (idp : IdpState) : IdpState := (serve request idp).2

def fresh (secrets : Stream' String) (clock : Stream' Int) : IdpState := { secrets, clock }

end BlizzardMock.Idp
