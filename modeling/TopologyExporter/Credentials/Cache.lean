import TopologyExporter.Credentials.Resolver

/-! # The cache of winning profiles

The profile that worked for a device is kept for two hours, in a cache that is written
to the snapshot and loaded from it. The time at which a profile worked is not written:
what is loaded counts as new.
-/

namespace TopologyExporter.Credentials

open Go Config

def cacheTTL : Duration := 120 * Time.minute

namespace Resolver

variable (resolver : Resolver)

def recordSuccess (deviceID profileName : GoString) (now : Time) : Resolver :=
  { resolver with cache := resolver.cache.insert deviceID ⟨profileName, now⟩ }

def recordFailure (deviceID : GoString) : Resolver :=
  { resolver with cache := resolver.cache.erase deviceID }

/-- The cached profile for a device. An entry that is too old is evicted: it is still too
old when the clock is read again under the lock. -/
def cachedProfile (deviceID : GoString) (now : Time) : Resolver × Option GoString :=
  match resolver.cache.lookup deviceID with
  | none => (resolver, none)
  | some entry =>
      if cacheTTL < now.sub entry.cachedAt then (resolver.recordFailure deviceID, none)
      else (resolver, some entry.profile)

/-- The cache with the contents of a snapshot. -/
def loadCache (order : RangeOrder) (cache : Map GoString GoString) (now : Time) : Resolver :=
  { resolver with
    cache := ((cache.range order 0).filterMap (fun row =>
      (some ⟨row.2, now⟩).map (fun entry => (row.1, entry)))).foldl
        (fun table row => table.insert row.1 row.2) ∅ }

/-- The profiles that the cache holds for a snapshot. -/
def snapshotCache (order : RangeOrder) (now : Time) : Map GoString GoString :=
  ((resolver.cache.range order 0).filterMap (fun row =>
    (if now.sub row.2.cachedAt ≤ cacheTTL then some row.2.profile else none).map
      (fun profile => (row.1, profile)))).foldl
        (fun table row => table.insert row.1 row.2) ∅

/-- The profile with a name. -/
def profile (name : GoString) : Option CredentialProfile := resolver.profiles.lookup name

/-- Only the profiles of the configuration have a name. -/
theorem profile_of_newResolver {credentials : CredentialsConfig} {created : Time}
    {resolver : Resolver} (hnew : newResolver credentials created = some resolver)
    {name : GoString} {found : CredentialProfile} (hprofile : resolver.profile name = some found) :
    found ∈ credentials.profiles ∧ found.name = name := by
  obtain ⟨tables, -, hresolver⟩ := Option.bind_eq_some_iff.mp hnew
  cases hresolver
  have hfold : credentials.profiles.foldl (fun table profile =>
        table.insert profile.name profile) (∅ : Map GoString CredentialProfile) =
      (credentials.profiles.map (fun profile => (profile.name, profile))).foldl
        (fun table row => table.insert row.1 row.2) ∅ := by
    rw [List.foldl_map]
  dsimp only [profile] at hprofile
  rw [hfold, Map.lookup_foldl_insert, AList.lookup_empty, Option.or_none] at hprofile
  obtain ⟨row, hfind, rfl⟩ := Option.map_eq_some_iff.mp hprofile
  have hrow := List.mem_of_find?_eq_some hfind
  rw [List.mem_reverse] at hrow
  obtain ⟨profile, hmem, rfl⟩ := List.mem_map.mp hrow
  exact ⟨hmem, by simpa using List.find?_some hfind⟩

/-! ## What is cached -/

variable {resolver}

/-- An entry counts until it is too old. -/
theorem snd_cachedProfile (deviceID : GoString) (now : Time) :
    (resolver.cachedProfile deviceID now).2 =
      (resolver.cache.lookup deviceID).bind (fun entry =>
        if now.sub entry.cachedAt ≤ cacheTTL then some entry.profile else none) := by
  unfold cachedProfile
  cases resolver.cache.lookup deviceID with
  | none => rfl
  | some entry =>
      simp only [Option.bind_some]
      split_ifs with hold hfresh hfresh
      · exact absurd hfresh (not_le.mpr hold)
      · rfl
      · rfl
      · exact absurd (not_lt.mp hold) hfresh

/-- Only the cache may change. -/
theorem fst_cachedProfile (deviceID : GoString) (now : Time) :
    ∃ cache, (resolver.cachedProfile deviceID now).1 = { resolver with cache } := by
  unfold cachedProfile
  split
  next => exact ⟨resolver.cache, rfl⟩
  next =>
    split_ifs
    · exact ⟨_, rfl⟩
    · exact ⟨resolver.cache, rfl⟩

theorem cachedProfile_recordSuccess (deviceID name : GoString) (now later : Time) :
    ((resolver.recordSuccess deviceID name now).cachedProfile deviceID later).2 =
      if later.sub now ≤ cacheTTL then some name else none := by
  rw [snd_cachedProfile, recordSuccess, AList.lookup_insert]
  rfl

theorem cachedProfile_recordFailure (deviceID : GoString) (now : Time) :
    ((resolver.recordFailure deviceID).cachedProfile deviceID now).2 = none := by
  rw [snd_cachedProfile, recordFailure, AList.lookup_erase]
  rfl

/-- What is loaded counts as new, whatever the configuration. -/
theorem cachedProfile_loadCache (order : RangeOrder) (cache : Map GoString GoString)
    (deviceID : GoString) (loaded now : Time) :
    ((resolver.loadCache order cache loaded).cachedProfile deviceID now).2 =
      if now.sub loaded ≤ cacheTTL then cache.lookup deviceID else none := by
  have hlookup : (resolver.loadCache order cache loaded).cache.lookup deviceID =
      (cache.lookup deviceID).bind (fun name => some (CacheEntry.mk name loaded)) :=
    Map.lookup_foldl_insert_filterMap cache order 0 (fun name =>
      some (CacheEntry.mk name loaded)) deviceID
  rw [snd_cachedProfile, hlookup]
  cases cache.lookup deviceID with
  | none => rw [ite_self]; rfl
  | some name => rfl

/-- A snapshot holds what is cached when it is written. -/
theorem lookup_snapshotCache (order : RangeOrder) (deviceID : GoString) (now : Time) :
    (resolver.snapshotCache order now).lookup deviceID =
      (resolver.cachedProfile deviceID now).2 := by
  rw [snd_cachedProfile]
  exact Map.lookup_foldl_insert_filterMap resolver.cache order 0 (fun entry =>
    if now.sub entry.cachedAt ≤ cacheTTL then some entry.profile else none) deviceID

/-- A profile that was cached when the snapshot was written is cached for two more hours
after a restart, even with a resolver for another configuration. -/
theorem cachedProfile_restart (other : Resolver) (order reorder : RangeOrder) (deviceID : GoString)
    (written loaded now : Time) :
    ((other.loadCache reorder (resolver.snapshotCache order written) loaded).cachedProfile
        deviceID now).2 =
      if now.sub loaded ≤ cacheTTL then (resolver.cachedProfile deviceID written).2 else none := by
  rw [cachedProfile_loadCache, lookup_snapshotCache]

end Resolver

end TopologyExporter.Credentials
