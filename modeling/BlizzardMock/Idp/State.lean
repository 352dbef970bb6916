import Mathlib.Data.Stream.Init
import BlizzardMock.Data.Dict
import BlizzardMock.Python.Text

namespace BlizzardMock.Idp

/-- `str.lower` -/
class Casing where
  lower : String → String

abbrev Casing.plain : Casing := ⟨id⟩

structure SecondaryEmail where
  email : String
  verified : Bool := true

structure ProfileFields where
  subject : String := "1001"
  handle : String := "octocat"
  email : Option String := some "octocat@example.com"
  emailVerified : Bool := true
  secondaryEmails : List SecondaryEmail := []
  role : Option String := none

section Casing

variable [Casing]

def ProfileFields.addresses (fields : ProfileFields) : List String :=
  fields.secondaryEmails.map (Casing.lower ·.email) ++ (fields.email.map Casing.lower).toList

structure Profile extends ProfileFields where
  distinct : toProfileFields.addresses.Nodup

/-- `_addresses_are_distinct` -/
def ProfileFields.validate (fields : ProfileFields) : Except String Profile :=
  if distinct : fields.addresses.Nodup then .ok { fields with distinct := distinct }
  else .error "an address appears twice among the primary and secondary emails"

def defaultProfile : Profile := ⟨{}, List.nodup_singleton _⟩

structure IdpState where
  profile : Profile := defaultProfile
  refuseCallback : Bool := false
  identities : Dict String Profile := ∅
  codes : Dict String Profile := ∅
  accessTokens : Dict String Profile := ∅
  /-- What `secrets.token_urlsafe` answers from here on. -/
  secrets : Stream' String
  /-- The seconds `time.time` answers from here on. -/
  clock : Stream' Int

namespace IdpState

variable (idp : IdpState)

def setProfile (profile : Profile) : IdpState := { idp with profile }

def registerIdentity (profile : Profile) (email : String) : IdpState :=
  { idp with identities := idp.identities.set (Casing.lower email) profile }

def identityForHint (hint : String) : Option Profile := idp.identities.get? (Casing.lower hint)

def reset : IdpState :=
  { idp with
    profile := defaultProfile, refuseCallback := false, identities := ∅, codes := ∅, accessTokens := ∅ }

def mintCode (profile : Profile) : String × IdpState :=
  (idp.secrets.head,
    { idp with codes := idp.codes.set idp.secrets.head profile, secrets := idp.secrets.tail })

def consumeCode (code : String) : Option Profile × IdpState :=
  (idp.codes.get? code, { idp with codes := idp.codes.erase code })

def mintAccessToken (profile : Profile) : String × IdpState :=
  (idp.secrets.head,
    { idp with
      accessTokens := idp.accessTokens.set idp.secrets.head profile, secrets := idp.secrets.tail })

def profileForAccessToken (token : String) : Option Profile := idp.accessTokens.get? token

end IdpState

end Casing

end BlizzardMock.Idp
