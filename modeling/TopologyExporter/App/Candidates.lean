import TopologyExporter.Credentials.Cache
import TopologyExporter.Foundation.Buffers

/-! # Credential candidates

The credentials to try for a device: the cached profile first, then those that the
resolver suggests. Secrets are copied from the environment to buffers of their own, so
that they can be overwritten; what holds a secret has the place of its buffer.
-/

namespace TopologyExporter.App.Probing

open Go Credentials

open TopologyExporter.Config (CredentialProfile CredentialsConfig profileTypeSNMPv2c
  profileTypeSNMPv3)

abbrev Secrets := List (List UInt8)

/-- The parameters of a walk that come from a profile. -/
structure Params where
  ip : Net.IP
  port : UInt16
  timeout : Duration
  community : Option Nat
  v3 : Bool
  username : GoString
  authProto : GoString
  authKey : Option Nat
  privProto : GoString
  privKey : Option Nat
  contextName : GoString
  retries : Int

/-- The places of the secrets. -/
def Params.secrets (params : Params) : List Nat :=
  params.community.toList ++ params.authKey.toList ++ params.privKey.toList

/-- The value of a variable of the environment, empty if it is not set. -/
def getenv (environment : Map GoString GoString) (name : GoString) : GoString :=
  if name = [] then [] else (environment.lookup name).getD []

inductive ParamsError where
  | empty (variableName : GoString)
  | emptyOrUnset (variableName : GoString)
  | unknownType (profileType : GoString)
deriving DecidableEq

/-- The result of building parameters. They are returned with an error too. -/
structure Built where
  memory : Secrets
  params : Params
  error : Option ParamsError

section Candidates

variable (environment : Map GoString GoString)

def profileToParams (memory : Secrets) (ip : Net.IP) (port : UInt16) (timeout : Duration)
    (profile : CredentialProfile) : Built :=
  let params : Params :=
    { ip, port, timeout, community := none, v3 := false, username := [], authProto := []
      authKey := none, privProto := [], privKey := none, contextName := profile.contextName
      retries := profile.retries }
  if profile.profileType = profileTypeSNMPv2c then
    let community := getenv environment profile.communityEnv
    if community = [] then ⟨memory, params, some (.empty profile.communityEnv)⟩
    else ⟨memory ++ [community], { params with community := some memory.length }, none⟩
  else if profile.profileType = profileTypeSNMPv3 then
    let params := { params with v3 := true, username := getenv environment profile.usernameEnv }
    if params.username = [] then ⟨memory, params, some (.empty profile.usernameEnv)⟩
    else
      let authKey := getenv environment profile.authKeyEnv
      if profile.authKeyEnv ≠ [] ∧ authKey = [] then
        ⟨memory, params, some (.emptyOrUnset profile.authKeyEnv)⟩
      else
        let params := { params with authKey := some memory.length }
        let memory := memory ++ [authKey]
        let privKey := getenv environment profile.privKeyEnv
        if profile.privKeyEnv ≠ [] ∧ privKey = [] then
          ⟨memory, params, some (.emptyOrUnset profile.privKeyEnv)⟩
        else
          ⟨memory ++ [privKey],
            { params with
              privKey := some memory.length
              authProto := profile.authProtocol
              privProto := profile.privProtocol }, none⟩
  else ⟨memory, params, some (.unknownType profile.profileType)⟩

structure CredentialCandidate where
  params : Params
  profileName : GoString

/-- The settings that a probe depends on. -/
structure ProbeConfig where
  credentials : CredentialsConfig
  timeoutPerDevice : Duration
  communityEnv : GoString

/-- The candidates so far. -/
structure Gathered where
  memory : Secrets
  candidates : List CredentialCandidate
  seen : List GoString

variable (cfg : ProbeConfig) (resolver : Resolver) (ip : Net.IP)

/-- One round of the loop over the suggested profiles. -/
def addCandidate (port : UInt16) (gathered : Gathered) (name : GoString) : Gathered :=
  if name ∈ gathered.seen then gathered
  else
    match resolver.profile name with
    | none => gathered
    | some profile =>
        let built := profileToParams environment gathered.memory ip port cfg.timeoutPerDevice
          profile
        match built.error with
        | some _ => { gathered with memory := built.memory }
        | none =>
            { memory := built.memory
              candidates := gathered.candidates ++ [⟨built.params, name⟩]
              seen := name :: gathered.seen }

/-- The port of a target. -/
def portOf (port : Int) : UInt16 := if UInt16.ofInt port = 0 then 161 else UInt16.ofInt port

/-- The candidate without a profile, with its community at the given place. -/
def communityCandidate (port : UInt16) (community : Nat) : CredentialCandidate :=
  { params :=
      { ip, port, timeout := cfg.timeoutPerDevice, community := some community, v3 := false
        username := [], authProto := [], authKey := none, privProto := [], privKey := none
        contextName := [], retries := 0 }
    profileName := [] }

/-- Adds the candidate without a profile, if there is a community. -/
def withCommunity (port : UInt16) (gathered : Gathered) : Gathered :=
  let community := getenv environment cfg.communityEnv
  if community = [] then gathered
  else
    { gathered with
      memory := gathered.memory ++ [community]
      candidates := gathered.candidates ++
        [communityCandidate cfg ip port gathered.memory.length] }

/-- The resolver, from which an entry may have been evicted, and the candidates. -/
def credentialCandidates (port : Int) (now : Time) (memory : Secrets) : Resolver × Gathered :=
  let (resolver, cached) := resolver.cachedProfile (Net.ipString ip) now
  -- For the cached profile the loop's round does the same, since nothing has been seen yet.
  let gathered := cached.toList.foldl (addCandidate environment cfg resolver ip (portOf port))
    ⟨memory, [], []⟩
  if cfg.credentials.profiles = [] then
    (resolver, withCommunity environment cfg ip (portOf port) gathered)
  else
    (resolver, (resolver.resolve ip).foldl
      (addCandidate environment cfg resolver ip (portOf port)) gathered)

/-- The profiles for which parameters are built: the cached one and, if profiles are
configured, those that the resolver suggests. -/
def namesTried (now : Time) : List GoString :=
  (resolver.cachedProfile (Net.ipString ip) now).2.toList ++
    if cfg.credentials.profiles = [] then [] else resolver.resolve ip

/-- The candidates do not depend on the eviction of an entry. -/
theorem snd_credentialCandidates (port : Int) (now : Time) (memory : Secrets) :
    (credentialCandidates environment cfg resolver ip port now memory).2 =
      if cfg.credentials.profiles = [] then
        withCommunity environment cfg ip (portOf port) ((namesTried cfg resolver ip now).foldl
          (addCandidate environment cfg resolver ip (portOf port)) ⟨memory, [], []⟩)
      else (namesTried cfg resolver ip now).foldl
        (addCandidate environment cfg resolver ip (portOf port)) ⟨memory, [], []⟩ := by
  obtain ⟨kept, hresolver⟩ := resolver.fst_cachedProfile (Net.ipString ip) now
  have hpair : resolver.cachedProfile (Net.ipString ip) now =
      ({ resolver with cache := kept }, (resolver.cachedProfile (Net.ipString ip) now).2) :=
    Prod.ext hresolver rfl
  unfold credentialCandidates namesTried
  rw [hpair]
  dsimp only
  split_ifs with hempty
  · rw [List.append_nil]
    rfl
  · rw [List.foldl_append]
    rfl

end Candidates

/-! ## Where the profiles come from -/

section Origin

variable {environment : Map GoString GoString} {cfg : ProbeConfig} {resolver : Resolver}
  {ip : Net.IP} {port : UInt16}

/-- What a round adds has the name of a profile of the resolver. -/
theorem candidates_addCandidate (gathered : Gathered) (name : GoString) :
    ∃ added, (addCandidate environment cfg resolver ip port gathered name).candidates =
        gathered.candidates ++ added ∧ added.length ≤ 1 ∧
      ∀ candidate ∈ added, candidate.profileName = name ∧
        ∃ profile, resolver.profile name = some profile := by
  unfold addCandidate
  split_ifs with hseen
  · exact ⟨[], by simp, by simp, by simp⟩
  · split
    next => exact ⟨[], by simp, by simp, by simp⟩
    next profile hprofile =>
      dsimp only
      split
      next => exact ⟨[], by simp, by simp, by simp⟩
      next =>
        refine ⟨_, rfl, le_rfl, ?_⟩
        intro candidate hcandidate
        cases List.mem_singleton.mp hcandidate
        exact ⟨rfl, profile, hprofile⟩

theorem candidates_foldl_addCandidate (names : List GoString) (gathered : Gathered) :
    ∃ added, (names.foldl (addCandidate environment cfg resolver ip port) gathered).candidates =
        gathered.candidates ++ added ∧ added.length ≤ names.length ∧
      ∀ candidate ∈ added, candidate.profileName ∈ names ∧
        ∃ profile, resolver.profile candidate.profileName = some profile := by
  induction names generalizing gathered with
  | nil => exact ⟨[], by simp, by simp, by simp⟩
  | cons name rest ih =>
      obtain ⟨first, hfirst, hlength, hname⟩ := candidates_addCandidate gathered name
      obtain ⟨others, hothers, hlengths, hnames⟩ :=
        ih (addCandidate environment cfg resolver ip port gathered name)
      refine ⟨first ++ others, ?_, ?_, ?_⟩
      · rw [List.foldl_cons, hothers, hfirst, List.append_assoc]
      · rw [List.length_append, List.length_cons]
        omega
      · intro candidate hcandidate
        rcases List.mem_append.mp hcandidate with hmem | hmem
        · obtain ⟨rfl, hprofile⟩ := hname candidate hmem
          exact ⟨List.mem_cons_self, hprofile⟩
        · obtain ⟨hother, hprofile⟩ := hnames candidate hmem
          exact ⟨List.mem_cons_of_mem _ hother, hprofile⟩

/-- The candidates are the cached profile and those that the resolver suggests, or the
community. -/
theorem candidates_credentialCandidates (port : Int) (now : Time) (memory : Secrets) :
    ∃ first others, (credentialCandidates environment cfg resolver ip port now
          memory).2.candidates = first ++ others ∧
      first.length ≤ 1 ∧
      (∀ candidate ∈ first,
        (resolver.cachedProfile (Net.ipString ip) now).2 = some candidate.profileName ∧
          ∃ profile, resolver.profile candidate.profileName = some profile) ∧
      (cfg.credentials.profiles = [] → others = [] ∨
        ∃ place, others = [communityCandidate cfg ip (portOf port) place] ∧
          (credentialCandidates environment cfg resolver ip port now memory).2.memory[place]? =
            some (getenv environment cfg.communityEnv)) ∧
      (cfg.credentials.profiles ≠ [] → ∀ candidate ∈ others,
        candidate.profileName ∈ resolver.resolve ip ∧
          ∃ profile, resolver.profile candidate.profileName = some profile) := by
  -- the cached name is tried first, and what follows depends on whether there are profiles
  rw [snd_credentialCandidates, namesTried, List.foldl_append]
  generalize (resolver.cachedProfile (Net.ipString ip) now).2 = cached
  obtain ⟨first, hfirst, hlength, hnames⟩ := @candidates_foldl_addCandidate environment cfg
    resolver ip (portOf port) cached.toList ⟨memory, [], []⟩
  generalize cached.toList.foldl (addCandidate environment cfg resolver ip (portOf port))
    ⟨memory, [], []⟩ = gathered at hfirst ⊢
  rw [List.nil_append] at hfirst
  have honce : first.length ≤ 1 := hlength.trans Option.length_toList_le
  have hcached : ∀ candidate ∈ first, cached = some candidate.profileName ∧
      ∃ profile, resolver.profile candidate.profileName = some profile := by
    intro candidate hcandidate
    obtain ⟨hname, hprofile⟩ := hnames candidate hcandidate
    exact ⟨Option.mem_toList.mp hname, hprofile⟩
  by_cases hempty : cfg.credentials.profiles = []
  · rw [if_pos hempty, if_pos hempty, List.foldl_nil, withCommunity]
    split_ifs with hcommunity
    · exact ⟨first, [], by simp [hfirst], honce, hcached, fun _ => Or.inl rfl,
        fun hprofiles => absurd hempty hprofiles⟩
    · exact ⟨first, _, by rw [hfirst], honce, hcached,
        fun _ => Or.inr ⟨_, rfl, List.getElem?_concat_length⟩,
        fun hprofiles => absurd hempty hprofiles⟩
  · rw [if_neg hempty, if_neg hempty]
    obtain ⟨others, hothers, -, hsuggested⟩ := @candidates_foldl_addCandidate environment cfg
      resolver ip (portOf port) (resolver.resolve ip) gathered
    rw [hfirst] at hothers
    exact ⟨first, others, hothers, honce, hcached, fun hprofiles => absurd hprofiles hempty,
      fun _ => hsuggested⟩

end Origin

/-- A candidate without a profile stands alone, if no profiles are configured, and carries the
configured community. Any other has a profile of the configuration. The resolver suggests it for
the address, or it is the first candidate and has been cached for the address, no more than two
hours ago. -/
theorem candidate_suggested_or_cached (environment : Map GoString GoString) (cfg : ProbeConfig)
    (created : Time) (base : Resolver) (hnew : newResolver cfg.credentials created = some base)
    (limiter : Trials.TokenBucket) (cache : Map GoString CacheEntry) (ip : Net.IP) (port : Int)
    (now : Time) (memory : Secrets) (candidate : CredentialCandidate)
    (hcandidate : candidate ∈ (credentialCandidates environment cfg { base with limiter, cache } ip
      port now memory).2.candidates) :
    (cfg.credentials.profiles = [] ∧ candidate.profileName = [] ∧
        (credentialCandidates environment cfg { base with limiter, cache } ip port now
          memory).2.candidates = [candidate] ∧
        ∃ place, candidate.params.community = some place ∧
          (credentialCandidates environment cfg { base with limiter, cache } ip port now
            memory).2.memory[place]? = some (getenv environment cfg.communityEnv)) ∨
      (∃ profile ∈ cfg.credentials.profiles, profile.name = candidate.profileName) ∧
        (candidate.profileName ∈ base.resolve ip ∨
          (credentialCandidates environment cfg { base with limiter, cache } ip port now
            memory).2.candidates.head? = some candidate ∧
          ∃ entry, cache.lookup (Net.ipString ip) = some entry ∧
            now.sub entry.cachedAt ≤ cacheTTL ∧ entry.profile = candidate.profileName) := by
  obtain ⟨first, others, hcandidates, honce, hcached, hcommunity, hsuggested⟩ :=
    @candidates_credentialCandidates environment cfg { base with limiter, cache } ip port now memory
  have hconfigured : ∀ name, (∃ profile, base.profile name = some profile) →
      ∃ profile ∈ cfg.credentials.profiles, profile.name = name := by
    intro name hprofile
    obtain ⟨profile, hprofile⟩ := hprofile
    exact ⟨profile, Resolver.profile_of_newResolver hnew hprofile⟩
  rw [hcandidates] at hcandidate ⊢
  rcases List.mem_append.mp hcandidate with hfirst | hother
  · right
    obtain ⟨hname, hprofile⟩ := hcached candidate hfirst
    refine ⟨hconfigured _ hprofile, Or.inr ⟨?_, ?_⟩⟩
    · cases first with
      | nil => cases hfirst
      | cons head rest =>
          cases rest with
          | nil => exact congrArg some (List.mem_singleton.mp hfirst).symm
          | cons => simp at honce
    · rw [Resolver.snd_cachedProfile] at hname
      obtain ⟨entry, hentry, hfresh⟩ := Option.bind_eq_some_iff.mp hname
      refine ⟨entry, hentry, ?_⟩
      split_ifs at hfresh with hage
      exact ⟨hage, Option.some.inj hfresh⟩
  · by_cases hempty : cfg.credentials.profiles = []
    · left
      -- without profiles nothing is cached that could be tried
      have hnone : first = [] := by
        rw [List.eq_nil_iff_forall_not_mem]
        intro found hfound
        obtain ⟨profile, hmem, -⟩ := hconfigured _ (hcached found hfound).2
        rw [hempty] at hmem
        cases hmem
      rcases hcommunity hempty with hnothing | ⟨place, hone, hplace⟩
      · rw [hnothing] at hother
        cases hother
      · rw [hone] at hother
        cases List.mem_singleton.mp hother
        exact ⟨hempty, rfl, by rw [hnone, hone]; rfl, place, rfl, hplace⟩
    · right
      obtain ⟨hname, hprofile⟩ := hsuggested hempty candidate hother
      exact ⟨hconfigured _ hprofile, Or.inl hname⟩

/-! ### An office -/

/-- An edge network with a profile of its own. -/
def officeProbe : ProbeConfig :=
  ⟨officeCredentials [⟨[], str "10.0.0.0/24", [str "edge"]⟩], 5 * Time.second, []⟩

def officeEnvironment : Map GoString GoString :=
  (∅ : Map GoString GoString).insert (str "COMMUNITY") (str "secret")

/-- The candidates for a device of the edge network. -/
def officeCandidates (resolver : Resolver) : List CredentialCandidate :=
  (credentialCandidates officeEnvironment officeProbe resolver [10, 0, 0, 1] 161
    ⟨0, none⟩ []).2.candidates

/-- With nothing cached, only the profile of the edge is tried. -/
theorem edge_profile_tried :
    (newResolver officeProbe.credentials ⟨0, none⟩).map (fun base =>
        (officeCandidates base).map CredentialCandidate.profileName) = some [str "edge"] ∧
      ∃ base, newResolver officeProbe.credentials ⟨0, none⟩ = some base ∧
        ∀ candidate ∈ officeCandidates { base with cache := ∅ },
          candidate.profileName ∈ base.resolve [10, 0, 0, 1] := by
  have hvalid : Config.validateCredentials id officeProbe.credentials =
      .ok officeProbe.credentials := by decide +kernel
  obtain ⟨base, hnew⟩ := newResolver_of_validate hvalid (List.cons_ne_nil _ _) ⟨0, none⟩
  refine ⟨by decide +kernel, base, hnew, ?_⟩
  intro candidate hcandidate
  rcases candidate_suggested_or_cached officeEnvironment officeProbe ⟨0, none⟩ base hnew
      base.limiter ∅ [10, 0, 0, 1] 161 ⟨0, none⟩ [] candidate hcandidate with
    ⟨hempty, -⟩ | ⟨-, hsuggested | ⟨-, entry, hentry, -⟩⟩
  · cases hempty
  · exact hsuggested
  · rw [AList.lookup_empty] at hentry
    cases hentry

/-- A snapshot from before the network was assigned makes the profile of the core the first
to be tried, although the resolver does not suggest it. -/
theorem core_profile_tried_from_snapshot :
    (∀ toUpper, Config.validateCredentials toUpper officeProbe.credentials =
        .ok officeProbe.credentials) ∧
      (newResolver officeProbe.credentials ⟨0, none⟩).map (fun base =>
        ((officeCandidates (base.loadCache .insertion
          ((∅ : Map GoString GoString).insert (str "10.0.0.1") (str "core")) ⟨0, none⟩)).map
            CredentialCandidate.profileName, base.resolve [10, 0, 0, 1])) =
        some ([str "core", str "edge"], [str "edge"]) := by
  exact ⟨fun _ => by rfl, by decide +kernel⟩

end TopologyExporter.App.Probing
