import TopologyExporter.App.Candidates
import TopologyExporter.Discovery.Types

/-! # Credential trials

A device is probed with one candidate after the other until one succeeds. On every way
out, the secrets of all candidates but the winner are overwritten. Those of a profile that
fails half-way through being built never become a candidate's, and stay.
-/

namespace TopologyExporter.App.Probing

open Go Credentials Buffers

open Discovery (Device)

open TopologyExporter.Config (CredentialProfile profileTypeSNMPv3)

/-! ## Trials -/

inductive ContextError where
  | canceled
  | deadlineExceeded
deriving DecidableEq

inductive TrialError where
  | context (error : ContextError)
  | walk (detail : GoString)
deriving DecidableEq

/-- What happens when a candidate is tried: the error of the limiter, the result of the
walk, and the error of the context after a walk that failed. -/
structure Attempt where
  acquireTrial : Option ContextError
  walk : Except TrialError Device
  contextErr : Option ContextError

inductive ProbeError where
  | noCandidates (ip : Net.IP)
  | failed (lastErr : Option TrialError)

structure Outcome where
  resolver : Resolver
  memory : Secrets
  result : Except ProbeError (Device × Params × GoString)

/-- Overwrites the secrets and drops the references to them. -/
def Params.zeroize (memory : Secrets) (params : Params) : Secrets × Params :=
  (wipeAll memory params.secrets,
    { params with community := none, authKey := none, privKey := none })

def zeroizeAll (memory : Secrets) (candidates : List CredentialCandidate) : Secrets :=
  candidates.foldl (fun memory candidate => (candidate.params.zeroize memory).1) memory

section Trials

variable (attempts : Nat → Attempt) (resolver : Resolver) (ip : Net.IP)

/-- The loop over the candidates, from the given trial on. -/
def tryCandidates : Nat → Option TrialError → Bool → Secrets → List CredentialCandidate → Outcome
  | _, lastErr, allTimedOut, memory, [] =>
      { resolver := if allTimedOut then resolver else resolver.recordFailure (Net.ipString ip)
        memory
        result := .error (.failed lastErr) }
  | trial, _, allTimedOut, memory, candidate :: rest =>
      match (attempts trial).acquireTrial with
      | some error =>
          ⟨resolver, zeroizeAll memory (candidate :: rest),
            .error (.failed (some (.context error)))⟩
      | none =>
          match (attempts trial).walk with
          | .ok device =>
              ⟨resolver, zeroizeAll memory rest,
                .ok (device, candidate.params, candidate.profileName)⟩
          | .error error =>
              let memory := (candidate.params.zeroize memory).1
              match (attempts trial).contextErr with
              | some done =>
                  ⟨resolver, zeroizeAll memory rest, .error (.failed (some (.context done)))⟩
              | none =>
                  tryCandidates (trial + 1) (some error)
                    (allTimedOut && error = .context .deadlineExceeded) memory rest

/-- Probes an address with each candidate. -/
def walkSystemWithCredentials (environment : Map GoString GoString) (cfg : ProbeConfig)
    (port : Int) (now : Time) (memory : Secrets) : Outcome :=
  let (resolver, gathered) := credentialCandidates environment cfg resolver ip port now memory
  if gathered.candidates = [] then ⟨resolver, gathered.memory, .error (.noCandidates ip)⟩
  else tryCandidates attempts resolver ip 0 none true gathered.memory gathered.candidates

end Trials

/-- The places of the secrets that are returned. -/
def Outcome.returned (outcome : Outcome) : List Nat :=
  match outcome.result with
  | .ok (_, params, _) => params.secrets
  | .error _ => []

/-- The places of the secrets of the candidates. -/
def secretsOf (candidates : List CredentialCandidate) : List Nat :=
  candidates.flatMap (fun candidate => candidate.params.secrets)

theorem zeroizeAll_eq (memory : Secrets) (candidates : List CredentialCandidate) :
    zeroizeAll memory candidates = wipeAll memory (secretsOf candidates) := by
  induction candidates generalizing memory with
  | nil => rfl
  | cons candidate rest ih =>
      rw [secretsOf, List.flatMap_cons, wipeAll_append]
      exact ih _

/-- On every way out of the loop, memory is clean but for what is returned if and only if it
was clean but for the candidates. -/
theorem clean_tryCandidates_iff {attempts : Nat → Attempt} {resolver : Resolver} {ip : Net.IP}
    {start trial : Nat} {lastErr : Option TrialError} {allTimedOut : Bool} {memory : Secrets}
    {candidates : List CredentialCandidate} :
    Clean start
        (tryCandidates attempts resolver ip trial lastErr allTimedOut memory candidates).memory
        (tryCandidates attempts resolver ip trial lastErr allTimedOut memory candidates).returned ↔
      Clean start memory (secretsOf candidates) := by
  induction candidates generalizing trial lastErr allTimedOut memory with
  | nil => rfl
  | cons candidate rest ih =>
      have hcons : secretsOf (candidate :: rest) = candidate.params.secrets ++ secretsOf rest :=
        List.flatMap_cons ..
      rw [tryCandidates]
      split
      next error =>
        -- The limiter was interrupted.
        rw [zeroizeAll_eq, clean_wipeAll_iff, Outcome.returned, List.append_nil]
      next =>
        split
        next device =>
          -- The candidate wins.
          rw [zeroizeAll_eq, clean_wipeAll_iff, Outcome.returned, hcons]
          apply clean_congr
          intro place
          rw [List.mem_append, List.mem_append, or_comm]
        next error =>
          dsimp only
          split
          next done =>
            -- The context is done.
            rw [zeroizeAll_eq, clean_wipeAll_iff, Outcome.returned, List.append_nil,
              Params.zeroize, clean_wipeAll_iff, hcons]
          next =>
            rw [ih, Params.zeroize, clean_wipeAll_iff, hcons]

/-! ## Building candidates -/

/-- An authentication key is copied, and then there is no privacy key. -/
def Abandoned (environment : Map GoString GoString) (profile : CredentialProfile) : Prop :=
  profile.profileType = profileTypeSNMPv3 ∧ getenv environment profile.usernameEnv ≠ [] ∧
    (∃ byte ∈ getenv environment profile.authKeyEnv, byte ≠ 0) ∧
    profile.privKeyEnv ≠ [] ∧ getenv environment profile.privKeyEnv = []

section Building

variable {environment : Map GoString GoString} {start : Nat} {memory : Secrets} {ip : Net.IP}
  {port : UInt16} {timeout : Duration} {profile : CredentialProfile} {live : List Nat}

theorem length_profileToParams (profile : CredentialProfile) :
    memory.length ≤ (profileToParams environment memory ip port timeout profile).memory.length := by
  unfold profileToParams
  dsimp only
  split_ifs <;> simp

theorem secrets_lt_profileToParams (profile : CredentialProfile) :
    ∀ place ∈ (profileToParams environment memory ip port timeout profile).params.secrets,
      place < (profileToParams environment memory ip port timeout profile).memory.length := by
  unfold profileToParams
  dsimp only
  split_ifs <;> simp [Params.secrets]

/-- Parameters hold all that was allocated for them. -/
theorem clean_profileToParams_iff
    (hbuilt : (profileToParams environment memory ip port timeout profile).error = none) :
    (Clean start (profileToParams environment memory ip port timeout profile).memory
        ((profileToParams environment memory ip port timeout profile).params.secrets ++ live) ↔
      Clean start memory live) ∧ ¬ Abandoned environment profile := by
  unfold profileToParams at hbuilt ⊢
  dsimp only at hbuilt ⊢
  split_ifs at hbuilt ⊢ with hv2c hcommunity hv3 husername hauth hpriv
  · refine ⟨clean_append_live_iff, ?_⟩
    intro habandoned
    rw [habandoned.1] at hv2c
    exact absurd hv2c (by decide)
  · refine ⟨?_, fun habandoned => hpriv ⟨habandoned.2.2.2.1, habandoned.2.2.2.2⟩⟩
    rw [← @clean_append_live_iff _ _ memory (getenv environment profile.authKeyEnv),
      ← @clean_append_live_iff _ _ (memory ++ [getenv environment profile.authKeyEnv])
        (getenv environment profile.privKeyEnv)]
    apply clean_congr
    intro place
    simp [Params.secrets, or_left_comm]

/-- An error drops what was allocated. -/
theorem clean_profileToParams_iff_of_error (hstart : start ≤ memory.length)
    (hlive : memory.length ∉ live)
    (herror : (profileToParams environment memory ip port timeout profile).error ≠ none) :
    Clean start (profileToParams environment memory ip port timeout profile).memory live ↔
      Clean start memory live ∧ ¬ Abandoned environment profile := by
  unfold profileToParams at herror ⊢
  dsimp only at herror ⊢
  split_ifs at herror ⊢ with hv2c hcommunity hv3 husername hauth hpriv
  · refine (and_iff_left fun habandoned => ?_).symm
    rw [habandoned.1] at hv2c
    exact absurd hv2c (by decide)
  · exact absurd rfl herror
  · exact (and_iff_left fun habandoned => habandoned.2.1 husername).symm
  · refine (and_iff_left fun habandoned => ?_).symm
    obtain ⟨-, -, ⟨byte, hbyte, -⟩, -⟩ := habandoned
    rw [hauth.2] at hbyte
    cases hbyte
  · -- Here the authentication key is dropped.
    rw [clean_append_dropped_iff hstart hlive]
    refine and_congr_right fun _ => ?_
    simp [Abandoned, hv3, husername, hpriv]
  · exact absurd rfl herror
  · exact (and_iff_left fun habandoned => hv3 habandoned.1).symm

end Building

/-- The profile with the name is abandoned half-way. -/
def Leaks (environment : Map GoString GoString) (resolver : Resolver) (name : GoString) : Prop :=
  ∃ profile, resolver.profile name = some profile ∧ Abandoned environment profile

section Gathering

variable {environment : Map GoString GoString} {cfg : ProbeConfig} {resolver : Resolver}
  {ip : Net.IP} {port : UInt16} {start : Nat}

/-- The candidates refer to buffers that have been allocated. -/
structure Sound (environment : Map GoString GoString) (resolver : Resolver) (start : Nat)
    (gathered : Gathered) : Prop where
  start_le : start ≤ gathered.memory.length
  secrets_lt : ∀ place ∈ secretsOf gathered.candidates, place < gathered.memory.length
  seen : ∀ name ∈ gathered.seen, ¬ Leaks environment resolver name

theorem secretsOf_append (first second : List CredentialCandidate) :
    secretsOf (first ++ second) = secretsOf first ++ secretsOf second := List.flatMap_append

theorem secretsOf_singleton (candidate : CredentialCandidate) :
    secretsOf [candidate] = candidate.params.secrets := List.flatMap_singleton ..

/-- One round loses a secret only if the profile is abandoned. -/
theorem sound_addCandidate {gathered : Gathered}
    (hsound : Sound environment resolver start gathered) (name : GoString) :
    Sound environment resolver start
        (addCandidate environment cfg resolver ip port gathered name) ∧
      (Clean start (addCandidate environment cfg resolver ip port gathered name).memory
          (secretsOf (addCandidate environment cfg resolver ip port gathered name).candidates) ↔
        Clean start gathered.memory (secretsOf gathered.candidates) ∧
          ¬ Leaks environment resolver name) := by
  obtain ⟨hstart, hlt, hseen⟩ := hsound
  unfold addCandidate
  split_ifs with hmem
  · exact ⟨⟨hstart, hlt, hseen⟩, (and_iff_left (hseen name hmem)).symm⟩
  · split
    next hprofile =>
      refine ⟨⟨hstart, hlt, hseen⟩, (and_iff_left ?_).symm⟩
      intro hleaks
      obtain ⟨profile, hfound, -⟩ := hleaks
      rw [hprofile] at hfound
      cases hfound
    next profile hprofile =>
      have hleaks : Leaks environment resolver name ↔ Abandoned environment profile := by
        simp [Leaks, hprofile]
      -- secrets are read into new places, behind those of the rounds before
      have hlength := @length_profileToParams environment gathered.memory ip port
        cfg.timeoutPerDevice profile
      dsimp only
      split
      next error herror =>
        refine ⟨⟨hstart.trans hlength, fun place hplace => (hlt place hplace).trans_le hlength,
          hseen⟩, ?_⟩
        rw [hleaks]
        apply clean_profileToParams_iff_of_error hstart
        · exact fun hplace => lt_irrefl _ (hlt _ hplace)
        · exact fun hnone => by rw [hnone] at herror; cases herror
      next hnone =>
        have hclean := @clean_profileToParams_iff environment start gathered.memory ip port
          cfg.timeoutPerDevice profile (secretsOf gathered.candidates) hnone
        rw [← hleaks] at hclean
        refine ⟨⟨hstart.trans hlength, ?_, ?_⟩, ?_⟩
        · intro place hplace
          rw [secretsOf_append, secretsOf_singleton, List.mem_append] at hplace
          cases hplace with
          | inl hbefore => exact (hlt place hbefore).trans_le hlength
          | inr hnew => exact secrets_lt_profileToParams profile place hnew
        · exact List.forall_mem_cons.mpr ⟨hclean.2, hseen⟩
        · rw [and_iff_left hclean.2, ← hclean.1, secretsOf_append, secretsOf_singleton]
          apply clean_congr
          intro place
          rw [List.mem_append, List.mem_append, or_comm]

theorem sound_foldl_addCandidate {gathered : Gathered}
    (hsound : Sound environment resolver start gathered) (names : List GoString) :
    Sound environment resolver start
        (names.foldl (addCandidate environment cfg resolver ip port) gathered) ∧
      (Clean start (names.foldl (addCandidate environment cfg resolver ip port) gathered).memory
          (secretsOf (names.foldl (addCandidate environment cfg resolver ip port)
            gathered).candidates) ↔
        Clean start gathered.memory (secretsOf gathered.candidates) ∧
          ∀ name ∈ names, ¬ Leaks environment resolver name) := by
  induction names generalizing gathered with
  | nil => exact ⟨hsound, by simp⟩
  | cons name rest ih =>
      obtain ⟨hnext, hclean⟩ := sound_addCandidate hsound name
      obtain ⟨hfinal, hrest⟩ := ih hnext
      refine ⟨hfinal, ?_⟩
      rw [List.foldl_cons, hrest, hclean, List.forall_mem_cons, and_assoc]

end Gathering

theorem clean_withCommunity_iff {environment : Map GoString GoString} {cfg : ProbeConfig}
    {ip : Net.IP} {port : UInt16} {start : Nat} {gathered : Gathered} :
    Clean start (withCommunity environment cfg ip port gathered).memory
        (secretsOf (withCommunity environment cfg ip port gathered).candidates) ↔
      Clean start gathered.memory (secretsOf gathered.candidates) := by
  unfold withCommunity
  dsimp only
  split_ifs with hcommunity
  · rfl
  · rw [← @clean_append_live_iff _ _ gathered.memory (getenv environment cfg.communityEnv)]
    apply clean_congr
    intro place
    rw [secretsOf_append, secretsOf_singleton]
    simp [Params.secrets, communityCandidate, or_comm]

theorem clean_credentialCandidates_iff {environment : Map GoString GoString} {cfg : ProbeConfig}
    {resolver : Resolver} {ip : Net.IP} {port : Int} {now : Time} {memory : Secrets} :
    Clean memory.length
        (credentialCandidates environment cfg resolver ip port now memory).2.memory
        (secretsOf (credentialCandidates environment cfg resolver ip port now
          memory).2.candidates) ↔
      ∀ name ∈ namesTried cfg resolver ip now, ¬ Leaks environment resolver name := by
  have hsound : Sound environment resolver memory.length ⟨memory, [], []⟩ :=
    ⟨le_rfl, by simp [secretsOf], by simp⟩
  obtain ⟨-, hclean⟩ := @sound_foldl_addCandidate environment cfg resolver ip (portOf port)
    memory.length _ hsound (namesTried cfg resolver ip now)
  replace hclean := hclean.trans (and_iff_right (clean_length memory))
  rw [snd_credentialCandidates]
  split_ifs with hempty
  · rw [clean_withCommunity_iff]
    exact hclean
  · exact hclean

/-- When a probe returns, all secrets that were allocated have been overwritten, except for
those that are returned, if and only if no profile is abandoned after its authentication
key was copied. -/
theorem secrets_overwritten_iff (environment : Map GoString GoString) (cfg : ProbeConfig)
    (resolver : Resolver) (attempts : Nat → Attempt) (ip : Net.IP) (port : Int) (now : Time)
    (memory : Secrets) :
    Clean memory.length
        (walkSystemWithCredentials attempts resolver ip environment cfg port now memory).memory
        (walkSystemWithCredentials attempts resolver ip environment cfg port now memory).returned ↔
      ∀ name ∈ namesTried cfg resolver ip now, ∀ profile, resolver.profile name = some profile →
        ¬ Abandoned environment profile := by
  have hcandidates := @clean_credentialCandidates_iff environment cfg resolver ip port now memory
  simp only [Leaks, not_exists, not_and] at hcandidates
  rw [← hcandidates]
  unfold walkSystemWithCredentials
  generalize credentialCandidates environment cfg resolver ip port now memory = gathered
  dsimp only
  split_ifs with hnone
  · rw [hnone]
    rfl
  · exact clean_tryCandidates_iff

/-! ### A missing variable -/

/-- One profile with both keys. -/
def vaultProbe : ProbeConfig :=
  { credentials :=
      { profiles :=
          [{ name := str "vault", profileType := profileTypeSNMPv3, communityEnv := []
             usernameEnv := str "USERNAME", authProtocol := str "SHA", authKeyEnv := str "AUTH_KEY"
             privProtocol := str "AES", privKeyEnv := str "PRIV_KEY", retries := 0
             contextName := [] }]
        assignments := []
        fallbackOrder := [str "vault"]
        trialRatePerSecond := 1 }
    timeoutPerDevice := 5 * Time.second
    communityEnv := [] }

/-- The privacy key is not set. -/
def vaultEnvironment : Map GoString GoString :=
  ((∅ : Map GoString GoString).insert (str "USERNAME") (str "admin")).insert (str "AUTH_KEY")
    (str "secret")

/-- The authentication key is still in memory after the probe, and nobody refers to it. -/
theorem authentication_key_stays :
    Config.validateCredentials id vaultProbe.credentials = .ok vaultProbe.credentials ∧
      (newResolver vaultProbe.credentials ⟨0, none⟩).map (fun resolver =>
        let outcome := walkSystemWithCredentials (fun _ => ⟨none, .error (.walk []), none⟩) resolver
          [10, 0, 0, 1] vaultEnvironment vaultProbe 161 ⟨0, none⟩ []
        (outcome.memory, outcome.returned)) = some ([str "secret"], []) ∧
      ¬ Clean 0 [str "secret"] [] := by
  refine ⟨by decide, by decide, ?_⟩
  intro hclean
  rcases hclean 0 le_rfl with hlive | hwiped
  · cases hlive
  · exact absurd (hwiped _ rfl) (by decide)

end TopologyExporter.App.Probing
