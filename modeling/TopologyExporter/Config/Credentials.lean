import TopologyExporter.GoLib.Cidr
import TopologyExporter.GoLib.Strings

/-! # Credentials in the configuration

Named profiles, the assignments that bind them to addresses and networks, and the order
of the profiles for all others. Validation of a configuration without profiles looks at
nothing else: the assignments and the fallback order are then not checked.
-/

namespace TopologyExporter.Config

open Go

/-- Secrets are named by the environment variables that hold them. -/
structure CredentialProfile where
  name : GoString
  profileType : GoString
  communityEnv : GoString
  usernameEnv : GoString
  authProtocol : GoString
  authKeyEnv : GoString
  privProtocol : GoString
  privKeyEnv : GoString
  retries : Int
  contextName : GoString
deriving DecidableEq

def profileTypeSNMPv2c : GoString := str "snmp_v2c"

def profileTypeSNMPv3 : GoString := str "snmp_v3"

structure CredentialAssignment where
  ip : GoString
  cidr : GoString
  profiles : List GoString
deriving DecidableEq

structure CredentialsConfig where
  profiles : List CredentialProfile
  assignments : List CredentialAssignment
  fallbackOrder : List GoString
  trialRatePerSecond : Int
deriving DecidableEq

inductive ProtocolError where
  | broken (name : GoString)
  | unknown (raw : GoString)
deriving DecidableEq

inductive CredentialsError where
  | trialRate
  | nameRequired
  | duplicateName (name : GoString)
  | negativeRetries (name : GoString)
  | communityEnvRequired (name : GoString)
  | usernameEnvRequired (name : GoString)
  | authProtocol (name : GoString) (error : ProtocolError)
  | privProtocol (name : GoString) (error : ProtocolError)
  | authKeyEnvRequired (name : GoString)
  | privKeyEnvRequired (name : GoString)
  | unknownType (name profileType : GoString)
  | ipOrCIDRRequired
  | ipAndCIDR (index : Nat)
  | invalidIP (ip : GoString)
  | invalidCIDR (cidr : GoString)
  | unknownAssigned (name : GoString)
  | unknownFallback (name : GoString)
deriving DecidableEq

section Validation

-- upper case, as the standard library maps it
variable (toUpper : GoString → GoString)

def normalizeProtocol (allowed : List GoString) (broken raw : GoString) :
    Except ProtocolError GoString :=
  let value := toUpper (Strings.trimSpace raw)
  if value = [] then .ok []
  else if value ∈ allowed then .ok value
  else if value = broken then .error (.broken broken)
  else .error (.unknown raw)

def normalizeAuthProtocol : GoString → Except ProtocolError GoString :=
  normalizeProtocol toUpper [str "SHA", str "SHA-256", str "SHA-384", str "SHA-512"] (str "MD5")

def normalizePrivProtocol : GoString → Except ProtocolError GoString :=
  normalizeProtocol toUpper [str "AES", str "AES-192", str "AES-256"] (str "DES")

/-- The checks of one profile, with its protocols in normal form; `known` are the names
before it. -/
def validateProfile (known : List GoString) (profile : CredentialProfile) :
    Except CredentialsError CredentialProfile :=
  if profile.name = [] then .error .nameRequired
  else if profile.name ∈ known then .error (.duplicateName profile.name)
  else if profile.retries < 0 then .error (.negativeRetries profile.name)
  else if profile.profileType = profileTypeSNMPv2c then
    if profile.communityEnv = [] then .error (.communityEnvRequired profile.name)
    else .ok profile
  else if profile.profileType = profileTypeSNMPv3 then
    if profile.usernameEnv = [] then .error (.usernameEnvRequired profile.name)
    else do
      let authProtocol ← (normalizeAuthProtocol toUpper profile.authProtocol).mapError
        (.authProtocol profile.name)
      let privProtocol ← (normalizePrivProtocol toUpper profile.privProtocol).mapError
        (.privProtocol profile.name)
      if authProtocol ≠ [] ∧ profile.authKeyEnv = [] then
        .error (.authKeyEnvRequired profile.name)
      else if privProtocol ≠ [] ∧ profile.privKeyEnv = [] then
        .error (.privKeyEnvRequired profile.name)
      else .ok { profile with authProtocol, privProtocol }
  else .error (.unknownType profile.name profile.profileType)

def validateProfiles (known : List GoString) :
    List CredentialProfile → Except CredentialsError (List CredentialProfile)
  | [] => .ok []
  | profile :: rest => do
      let valid ← validateProfile toUpper known profile
      let others ← validateProfiles (profile.name :: known) rest
      .ok (valid :: others)

/-- The checks of one assignment; `known` are the names of the profiles. -/
def validateAssignment (known : List GoString) (index : Nat) (assignment : CredentialAssignment) :
    Option CredentialsError :=
  if assignment.ip = [] ∧ assignment.cidr = [] then some .ipOrCIDRRequired
  else if assignment.ip ≠ [] ∧ assignment.cidr ≠ [] then some (.ipAndCIDR index)
  else if assignment.ip ≠ [] ∧ Net.parseIP assignment.ip = none then
    some (.invalidIP assignment.ip)
  else if assignment.cidr ≠ [] ∧ Net.parseCIDR assignment.cidr = none then
    some (.invalidCIDR assignment.cidr)
  else (assignment.profiles.find? (fun name => name ∉ known)).map .unknownAssigned

def validateAssignments (known : List GoString) (index : Nat) :
    List CredentialAssignment → Option CredentialsError
  | [] => none
  | assignment :: rest =>
      (validateAssignment known index assignment).or (validateAssignments known (index + 1) rest)

/-- The configuration with the protocols of its profiles in normal form. -/
def validateCredentials (credentials : CredentialsConfig) :
    Except CredentialsError CredentialsConfig :=
  if credentials.trialRatePerSecond < 1 then .error .trialRate
  else if credentials.profiles = [] then .ok credentials
  else do
    let profiles ← validateProfiles toUpper [] credentials.profiles
    let known := profiles.map CredentialProfile.name
    match validateAssignments known 0 credentials.assignments with
    | some error => .error error
    | none =>
        match credentials.fallbackOrder.find? (fun name => name ∉ known) with
        | some name => .error (.unknownFallback name)
        | none => .ok { credentials with profiles }

end Validation

/-! ## What validation guarantees -/

/-- The assignment has an address or a network that parses, and not both. -/
def CredentialAssignment.Parses (assignment : CredentialAssignment) : Prop :=
  (∃ ip, Net.parseIP assignment.ip = some ip) ∧ assignment.cidr = [] ∨
    assignment.ip = [] ∧ ∃ net, Net.parseCIDR assignment.cidr = some net

theorem parses_of_validateAssignment {known : List GoString} {index : Nat}
    {assignment : CredentialAssignment}
    (hvalid : validateAssignment known index assignment = none) : assignment.Parses := by
  unfold validateAssignment at hvalid
  split_ifs at hvalid with hnone hboth hip hcidr
  by_cases haddress : assignment.ip = []
  · right
    refine ⟨haddress, Option.ne_none_iff_exists'.mp ?_⟩
    exact fun hparse => hcidr ⟨fun hempty => hnone ⟨haddress, hempty⟩, hparse⟩
  · left
    refine ⟨Option.ne_none_iff_exists'.mp fun hparse => hip ⟨haddress, hparse⟩, ?_⟩
    exact not_not.mp fun hnetwork => hboth ⟨haddress, hnetwork⟩

theorem parses_of_validateAssignments {known : List GoString} {index : Nat}
    {assignments : List CredentialAssignment}
    (hvalid : validateAssignments known index assignments = none) :
    ∀ assignment ∈ assignments, assignment.Parses := by
  induction assignments generalizing index with
  | nil => simp
  | cons assignment rest ih =>
      rw [validateAssignments, Option.or_eq_none_iff] at hvalid
      exact List.forall_mem_cons.mpr ⟨parses_of_validateAssignment hvalid.1, ih hvalid.2⟩

/-- If there are profiles, every assignment parses. -/
theorem parses_of_validate {toUpper : GoString → GoString} {raw credentials : CredentialsConfig}
    (hvalid : validateCredentials toUpper raw = .ok credentials) (hprofiles : raw.profiles ≠ []) :
    ∀ assignment ∈ credentials.assignments, assignment.Parses := by
  rw [validateCredentials, if_neg hprofiles] at hvalid
  split_ifs at hvalid with hrate
  cases hchecked : validateProfiles toUpper [] raw.profiles with
  | error error =>
      rw [hchecked] at hvalid
      cases hvalid
  | ok profiles =>
      rw [hchecked] at hvalid
      simp only [bind, Except.bind] at hvalid
      split at hvalid
      next => cases hvalid
      next hassignments =>
        split at hvalid
        next => cases hvalid
        next =>
          cases hvalid
          exact parses_of_validateAssignments hassignments

end TopologyExporter.Config
