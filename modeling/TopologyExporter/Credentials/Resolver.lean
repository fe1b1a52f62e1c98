import TopologyExporter.Config.Credentials
import TopologyExporter.Credentials.TokenBucket
import TopologyExporter.GoLib.AddressText
import TopologyExporter.GoLib.Maps

/-! # Credential resolution

The profiles for a device are those assigned to its address, or else to the most
specific network with its address, or else the fallback order. The code looks for the
address by its text, as the standard library prints it, and for the network by the
length of its prefix, as it is written.
-/

namespace TopologyExporter.Credentials

open Go Config

structure CidrAssignment where
  net : Net.IPNet
  prefixLen : Nat
  profiles : List GoString

structure CacheEntry where
  profile : GoString
  cachedAt : Time

structure Resolver where
  profiles : Map GoString CredentialProfile
  exactIP : Map GoString (List GoString)
  cidrs : List CidrAssignment
  fallback : List GoString
  limiter : Trials.TokenBucket
  cache : Map GoString CacheEntry

/-- One round of the loop over the assignments. -/
def addAssignment (tables : Map GoString (List GoString) × List CidrAssignment)
    (assignment : CredentialAssignment) :
    Option (Map GoString (List GoString) × List CidrAssignment) :=
  if assignment.ip ≠ [] then
    some (tables.1.insert assignment.ip assignment.profiles, tables.2)
  else if assignment.cidr ≠ [] then
    (Net.parseCIDR assignment.cidr).map (fun net => (tables.1,
      tables.2 ++ [⟨net, (Net.maskSize net.mask).1, assignment.profiles⟩]))
  else some tables

/-- A resolver for a configuration; `none` if a network does not parse. -/
def newResolver (credentials : CredentialsConfig) (now : Time) : Option Resolver := do
  let (exactIP, cidrs) ← credentials.assignments.foldlM addAssignment (∅, [])
  some {
    profiles := credentials.profiles.foldl (fun table profile =>
      table.insert profile.name profile) ∅
    exactIP
    cidrs := cidrs.insertionSort (fun first second => second.prefixLen ≤ first.prefixLen)
    fallback := credentials.fallbackOrder
    limiter := Trials.newTokenBucket credentials.trialRatePerSecond now
    cache := ∅ }

/-- The names of the profiles to try for an address. -/
def Resolver.resolve (resolver : Resolver) (ip : Net.IP) : List GoString :=
  match resolver.exactIP.lookup (Net.ipString ip) with
  | some profiles => profiles
  | none =>
      ((resolver.cidrs.find? (fun assignment => Net.contains assignment.net ip)).map
        CidrAssignment.profiles).getD resolver.fallback

/-! ## The tables of a resolver -/

/-- The network of an assignment, for one that parses. -/
def network (assignment : CredentialAssignment) : Net.IPNet :=
  (Net.parseCIDR assignment.cidr).getD ⟨[], []⟩

/-- The assignments with a network. -/
def assigned (assignments : List CredentialAssignment) : List CredentialAssignment :=
  assignments.filter (fun assignment => (Net.parseCIDR assignment.cidr).isSome)

/-- Those of them without an address. -/
def networkOnly (assignments : List CredentialAssignment) : List CredentialAssignment :=
  (assigned assignments).filter (fun assignment => assignment.ip = [])

theorem networkOnly_cons (assignment : CredentialAssignment) (rest : List CredentialAssignment) :
    networkOnly (assignment :: rest) =
      if assignment.ip = [] ∧ (Net.parseCIDR assignment.cidr).isSome then
        assignment :: networkOnly rest
      else networkOnly rest := by
  unfold networkOnly assigned
  cases hparse : (Net.parseCIDR assignment.cidr).isSome with
  | true =>
      by_cases hip : assignment.ip = []
      · simp [hparse, hip]
      · simp [hparse, hip]
  | false => simp [hparse]

variable {assignments : List CredentialAssignment}

/-- The tables after the loop. -/
theorem foldlM_addAssignment {tables final : Map GoString (List GoString) × List CidrAssignment}
    (hfold : assignments.foldlM addAssignment tables = some final) :
    final.1 = ((assignments.filter (fun assignment => assignment.ip ≠ [])).map
        (fun assignment => (assignment.ip, assignment.profiles))).foldl
          (fun table row => table.insert row.1 row.2) tables.1 ∧
      final.2 = tables.2 ++ (networkOnly assignments).map (fun assignment =>
        ⟨network assignment, (Net.maskSize (network assignment).mask).1, assignment.profiles⟩) := by
  induction assignments generalizing tables with
  | nil =>
      cases hfold
      simp [networkOnly, assigned]
  | cons assignment rest ih =>
      rw [List.foldlM_cons] at hfold
      obtain ⟨next, hnext, hrest⟩ := Option.bind_eq_some_iff.mp hfold
      obtain ⟨hexact, hcidrs⟩ := ih hrest
      unfold addAssignment at hnext
      split_ifs at hnext with hip hcidr
      · cases hnext
        rw [hexact, hcidrs, networkOnly_cons, if_neg (fun hboth => hip hboth.1),
          List.filter_cons_of_pos (by simp [hip])]
        exact ⟨rfl, rfl⟩
      · obtain ⟨net, hparse, rfl⟩ := Option.map_eq_some_iff.mp hnext
        rw [not_not] at hip
        have hnetwork : network assignment = net := by rw [network, hparse]; rfl
        rw [hexact, hcidrs, networkOnly_cons, if_pos ⟨hip, by rw [hparse]; rfl⟩,
          List.filter_cons_of_neg (by simp [hip])]
        simp [hnetwork]
      · cases hnext
        rw [not_not] at hip hcidr
        have hparse : Net.parseCIDR assignment.cidr = none := by rw [hcidr]; rfl
        rw [hexact, hcidrs, networkOnly_cons, if_neg (by simp [hparse]),
          List.filter_cons_of_neg (by simp [hip])]
        exact ⟨rfl, rfl⟩

theorem foldlM_addAssignment_of_parses (hparses : ∀ assignment ∈ assignments, assignment.Parses)
    (tables : Map GoString (List GoString) × List CidrAssignment) :
    ∃ final, assignments.foldlM addAssignment tables = some final := by
  induction assignments generalizing tables with
  | nil => exact ⟨tables, rfl⟩
  | cons assignment rest ih =>
      have hhead := hparses assignment List.mem_cons_self
      have hstep : ∃ next, addAssignment tables assignment = some next := by
        unfold addAssignment
        split_ifs with hip hcidr
        · exact ⟨_, rfl⟩
        · obtain ⟨-, hempty⟩ | ⟨-, net, hnet⟩ := hhead
          · exact absurd hempty hcidr
          · rw [hnet]
            exact ⟨_, rfl⟩
        · exact ⟨_, rfl⟩
      obtain ⟨next, hnext⟩ := hstep
      rw [List.foldlM_cons, hnext]
      exact ih (fun other hother => hparses other (List.mem_cons_of_mem _ hother)) next

/-- There is a resolver for every configuration with profiles that validation accepts. -/
theorem newResolver_of_validate {toUpper : GoString → GoString}
    {raw credentials : CredentialsConfig}
    (hvalid : validateCredentials toUpper raw = .ok credentials) (hprofiles : raw.profiles ≠ [])
    (now : Time) : ∃ resolver, newResolver credentials now = some resolver := by
  obtain ⟨tables, hfold⟩ := foldlM_addAssignment_of_parses (parses_of_validate hvalid hprofiles)
    (∅, [])
  rw [newResolver, hfold]
  exact ⟨_, rfl⟩

theorem canonical_assigned (assignments : List CredentialAssignment) :
    ∀ assignment ∈ assigned assignments,
      ∃ number ones, Net.Canonical (network assignment) number ones := by
  intro assignment hassignment
  obtain ⟨net, hparse⟩ := Option.isSome_iff_exists.mp (List.mem_filter.mp hassignment).2
  have hnetwork : network assignment = net := by rw [network, hparse]; rfl
  exact Net.parseCIDR_canonical (hnetwork ▸ hparse)

theorem canonical_networkOnly (assignments : List CredentialAssignment) :
    ∀ assignment ∈ networkOnly assignments,
      ∃ number ones, Net.Canonical (network assignment) number ones :=
  fun assignment hassignment =>
    canonical_assigned assignments assignment (List.mem_of_mem_filter hassignment)

/-- The network is written in IPv4-mapped notation. -/
def isMapped (assignment : CredentialAssignment) : Bool := Net.isMapped (network assignment)

/-- What the resolver takes for the most specific network: the narrowest in IPv4-mapped
notation if there is one, of the assignments without an address. -/
def taken (assignments : List CredentialAssignment) (ip : Net.IP) : Option CredentialAssignment :=
  (Net.narrowestNet network ((networkOnly assignments).filter isMapped) ip).or
    (Net.narrowestNet network (networkOnly assignments) ip)

section Resolve

variable {credentials : CredentialsConfig} {now : Time} {resolver : Resolver}

theorem find?_cidrs (hnew : newResolver credentials now = some resolver) (ip : Net.IP) :
    (resolver.cidrs.find? (fun assignment => Net.contains assignment.net ip)).map
        CidrAssignment.profiles =
      (taken credentials.assignments ip).map CredentialAssignment.profiles := by
  obtain ⟨⟨exactIP, cidrs⟩, hfold, hresolver⟩ := Option.bind_eq_some_iff.mp hnew
  cases hresolver
  obtain ⟨-, hcidrs⟩ := foldlM_addAssignment hfold
  rw [List.nil_append] at hcidrs
  have hsorted := List.map_insertionSort
    (fun first second : CredentialAssignment => (Net.maskSize (network second).mask).1 ≤
      (Net.maskSize (network first).mask).1)
    (fun first second : CidrAssignment => second.prefixLen ≤ first.prefixLen)
    (fun assignment : CredentialAssignment => (⟨network assignment,
      (Net.maskSize (network assignment).mask).1, assignment.profiles⟩ : CidrAssignment))
    (networkOnly credentials.assignments) (fun _ _ _ _ => Iff.rfl)
  dsimp only at hcidrs ⊢
  rw [hcidrs, ← hsorted, List.find?_map, Option.map_map]
  apply congrArg
  exact Net.find?_contains_eq (canonical_networkOnly _) ip

theorem lookup_exactIP (hnew : newResolver credentials now = some resolver) (text : GoString) :
    resolver.exactIP.lookup text =
      ((credentials.assignments.filter (fun assignment => assignment.ip ≠ [])).reverse.find?
        (fun assignment => assignment.ip = text)).map CredentialAssignment.profiles := by
  obtain ⟨⟨exactIP, cidrs⟩, hfold, hresolver⟩ := Option.bind_eq_some_iff.mp hnew
  cases hresolver
  obtain ⟨hexact, -⟩ := foldlM_addAssignment hfold
  dsimp only at hexact ⊢
  rw [hexact, Map.lookup_foldl_insert, AList.lookup_empty, Option.or_none, ← List.map_reverse,
    List.find?_map, Option.map_map]
  rfl

end Resolve

/-! ## What the profiles should be -/

/-- The text is one of the address. -/
def Denotes (text : GoString) (ip : Net.IP) : Prop :=
  ∃ parsed, Net.parseIP text = some parsed ∧ Net.ipEqual parsed ip = true

/-- The network of the assignment contains the address and is a subnet of every other one
that does. Of several with the same network, it is the first. -/
def MostSpecific (assignments : List CredentialAssignment) (ip : Net.IP)
    (assignment : CredentialAssignment) : Prop :=
  assignment ∈ assignments ∧ Net.contains (network assignment) ip = true ∧
    (∀ other ∈ assignments, Net.contains (network other) ip = true →
      Net.Subnet (network assignment) (network other)) ∧
    ∃ front back, assignments = front ++ assignment :: back ∧
      ∀ other ∈ front, Net.block (network other) ≠ Net.block (network assignment)

section Specification

variable (credentials : CredentialsConfig) (ip : Net.IP)

/-- The profiles of an assignment of the address, or else of the most specific network
with it, or else the fallback order. -/
def Specified (profiles : List GoString) : Prop :=
  (∃ assignment ∈ credentials.assignments, Denotes assignment.ip ip ∧
      assignment.profiles = profiles) ∨
    (∀ assignment ∈ credentials.assignments, ¬ Denotes assignment.ip ip) ∧
      ((∃ assignment, MostSpecific (assigned credentials.assignments) ip assignment ∧
          assignment.profiles = profiles) ∨
        (∀ assignment ∈ assigned credentials.assignments,
          Net.contains (network assignment) ip = false) ∧
          credentials.fallbackOrder = profiles)

/-- The address is assigned, in the spelling that the standard library prints. -/
def Spelled : Prop := ∃ assignment ∈ credentials.assignments, assignment.ip = Net.ipString ip

/-- The address is not assigned. The most specific network with it, if there is one, stands
alone in its assignment, and is in IPv4-mapped notation if any other network with the
address is. -/
def Undisturbed : Prop :=
  (∀ assignment ∈ credentials.assignments, ¬ Denotes assignment.ip ip) ∧
    ∀ assignment, MostSpecific (assigned credentials.assignments) ip assignment →
      assignment.ip = [] ∧ (isMapped assignment = true ∨
        ∀ other ∈ networkOnly credentials.assignments,
          Net.contains (network other) ip = true → isMapped other = false)

/-- No two assignments list the same profiles, and none lists the fallback order. -/
structure Distinguished : Prop where
  assignments : ∀ first ∈ credentials.assignments, ∀ second ∈ credentials.assignments,
    first.profiles = second.profiles → first = second
  fallback : ∀ assignment ∈ credentials.assignments, assignment.profiles ≠ credentials.fallbackOrder

/-- The profiles that the resolver finds by networks. -/
def profilesTaken : List GoString :=
  ((taken credentials.assignments ip).map CredentialAssignment.profiles).getD
    credentials.fallbackOrder

end Specification

section Theorem

variable {credentials : CredentialsConfig} {now : Time} {resolver : Resolver} {ip : Net.IP}
  {assignment : CredentialAssignment}

theorem mostSpecific_iff :
    MostSpecific (assigned credentials.assignments) ip assignment ↔
      Net.narrowestNet network (assigned credentials.assignments) ip = some assignment :=
  (Net.narrowestNet_eq_some_iff (canonical_assigned credentials.assignments)).symm

theorem denotes_ipString (hip : ip.length = 4 ∨ ip.length = 16) : Denotes (Net.ipString ip) ip :=
  Net.parseIP_ipString hip

/-- An assignment in the printed spelling is found. -/
theorem resolve_of_spelled (hnew : newResolver credentials now = some resolver)
    (hspelled : Spelled credentials ip) :
    ∃ assignment ∈ credentials.assignments, assignment.ip = Net.ipString ip ∧
      assignment.profiles = resolver.resolve ip := by
  have hlookup := lookup_exactIP hnew (Net.ipString ip)
  obtain ⟨assignment, hmem, hip⟩ := hspelled
  have hlisted : assignment ∈
      (credentials.assignments.filter (fun assignment => assignment.ip ≠ [])).reverse := by
    rw [List.mem_reverse, List.mem_filter]
    exact ⟨hmem, decide_eq_true (hip ▸ Net.ipString_ne_nil ip)⟩
  cases hfind : (credentials.assignments.filter
      (fun assignment => assignment.ip ≠ [])).reverse.find?
        (fun assignment => assignment.ip = Net.ipString ip) with
  | none => exact absurd (decide_eq_true hip) (List.find?_eq_none.mp hfind assignment hlisted)
  | some found =>
      rw [hfind] at hlookup
      have hfound := List.mem_of_find?_eq_some hfind
      rw [List.mem_reverse] at hfound
      have htext := List.find?_some hfind
      refine ⟨found, List.mem_of_mem_filter hfound, of_decide_eq_true htext, ?_⟩
      rw [Resolver.resolve, hlookup]
      rfl

/-- Otherwise the networks decide. -/
theorem resolve_of_not_spelled (hnew : newResolver credentials now = some resolver)
    (hspelled : ¬ Spelled credentials ip) :
    resolver.resolve ip = profilesTaken credentials ip := by
  have hlookup : resolver.exactIP.lookup (Net.ipString ip) = none := by
    rw [lookup_exactIP hnew, Option.map_eq_none_iff, List.find?_eq_none]
    intro assignment hassignment hip
    rw [List.mem_reverse] at hassignment
    exact hspelled ⟨assignment, List.mem_of_mem_filter hassignment, of_decide_eq_true hip⟩
  have hfallback : resolver.fallback = credentials.fallbackOrder := by
    obtain ⟨tables, -, hresolver⟩ := Option.bind_eq_some_iff.mp hnew
    cases hresolver
    rfl
  rw [Resolver.resolve, hlookup]
  simp only [find?_cidrs hnew, hfallback]
  rfl

theorem narrowestNet_mapped_eq_none
    (hothers : ∀ other ∈ networkOnly credentials.assignments,
      Net.contains (network other) ip = true → isMapped other = false) :
    Net.narrowestNet network ((networkOnly credentials.assignments).filter isMapped) ip =
      none := by
  have hcanonical : ∀ other ∈ (networkOnly credentials.assignments).filter isMapped,
      ∃ number ones, Net.Canonical (network other) number ones :=
    fun other hother => canonical_networkOnly _ other (List.mem_of_mem_filter hother)
  rw [Net.narrowestNet_eq_none_iff hcanonical]
  intro other hother
  obtain ⟨hmem, hmapped⟩ := List.mem_filter.mp hother
  by_contra hcontains
  rw [hothers other hmem (Bool.not_eq_false _ ▸ hcontains)] at hmapped
  cases hmapped

theorem taken_of_none (hnone : ∀ assignment ∈ assigned credentials.assignments,
    Net.contains (network assignment) ip = false) : taken credentials.assignments ip = none := by
  have honly : ∀ other ∈ networkOnly credentials.assignments,
      Net.contains (network other) ip = false :=
    fun other hother => hnone other (List.mem_of_mem_filter hother)
  have hmapped := @narrowestNet_mapped_eq_none credentials ip fun other hother hcontains =>
    absurd hcontains (Bool.eq_false_iff.mp (honly other hother))
  rw [taken, hmapped, (Net.narrowestNet_eq_none_iff (canonical_networkOnly _)).mpr honly]
  rfl

theorem taken_of_mostSpecific
    (hspecific : MostSpecific (assigned credentials.assignments) ip assignment)
    (hempty : assignment.ip = [])
    (hmapped : isMapped assignment = true ∨ ∀ other ∈ networkOnly credentials.assignments,
      Net.contains (network other) ip = true → isMapped other = false) :
    taken credentials.assignments ip = some assignment := by
  have honly : Net.narrowestNet network (networkOnly credentials.assignments) ip =
      some assignment :=
    Net.narrowestNet_filter (mostSpecific_iff.mp hspecific) (decide_eq_true hempty)
  cases hmapped with
  | inl hitself =>
      rw [taken, Net.narrowestNet_filter honly hitself]
      rfl
  | inr hothers =>
      rw [taken, narrowestNet_mapped_eq_none hothers, honly]
      rfl

theorem specified_of_undisturbed (hundisturbed : Undisturbed credentials ip) :
    Specified credentials ip (profilesTaken credentials ip) := by
  obtain ⟨hnone, hnetworks⟩ := hundisturbed
  refine Or.inr ⟨hnone, ?_⟩
  cases hnarrowest : Net.narrowestNet network (assigned credentials.assignments) ip with
  | none =>
      rw [Net.narrowestNet_eq_none_iff (canonical_assigned _)] at hnarrowest
      rw [profilesTaken, taken_of_none hnarrowest]
      exact Or.inr ⟨hnarrowest, rfl⟩
  | some assignment =>
      have hspecific := mostSpecific_iff.mpr hnarrowest
      obtain ⟨hempty, hmapped⟩ := hnetworks assignment hspecific
      rw [profilesTaken, taken_of_mostSpecific hspecific hempty hmapped]
      exact Or.inl ⟨assignment, hspecific, rfl⟩

theorem not_denotes_nil : ¬ Denotes [] ip := by
  intro hdenotes
  obtain ⟨parsed, hparse, -⟩ := hdenotes
  cases hparse

theorem mem_networkOnly {assignments : List CredentialAssignment}
    (hassignment : assignment ∈ networkOnly assignments) :
    assignment ∈ assignments ∧ assignment.ip = [] := by
  obtain ⟨hassigned, hempty⟩ := List.mem_filter.mp hassignment
  exact ⟨List.mem_of_mem_filter hassigned, of_decide_eq_true hempty⟩

/-- What is taken is a network of its own, in IPv4-mapped notation if any network with the
address is. -/
theorem taken_eq_some {assignments : List CredentialAssignment}
    (htaken : taken assignments ip = some assignment) :
    assignment ∈ networkOnly assignments ∧ (isMapped assignment = true ∨
      ∀ other ∈ networkOnly assignments, Net.contains (network other) ip = true →
        isMapped other = false) := by
  have hcanonical := canonical_networkOnly assignments
  have hmappedCanonical : ∀ other ∈ (networkOnly assignments).filter isMapped,
      ∃ number ones, Net.Canonical (network other) number ones :=
    fun other hother => hcanonical other (List.mem_of_mem_filter hother)
  rcases Option.or_eq_some_iff.mp htaken with hmapped | ⟨hnone, hnarrowest⟩
  · have hmem := ((Net.narrowestNet_eq_some_iff hmappedCanonical).mp hmapped).1
    obtain ⟨honly, hitself⟩ := List.mem_filter.mp hmem
    exact ⟨honly, Or.inl hitself⟩
  · refine ⟨((Net.narrowestNet_eq_some_iff hcanonical).mp hnarrowest).1, Or.inr ?_⟩
    intro other hother hcontains
    by_contra hmapped
    have houtside := (Net.narrowestNet_eq_none_iff hmappedCanonical).mp hnone other
      (List.mem_filter.mpr ⟨hother, Bool.not_eq_false _ ▸ hmapped⟩)
    rw [houtside] at hcontains
    cases hcontains

/-- Where the assignments can be told apart by their profiles, the right profiles are those
of the right assignment. -/
theorem undisturbed_of_specified (hdistinguished : Distinguished credentials)
    (hspecified : Specified credentials ip (profilesTaken credentials ip)) :
    Undisturbed credentials ip := by
  have hright : ∀ assignment ∈ credentials.assignments,
      assignment.profiles = profilesTaken credentials ip →
        taken credentials.assignments ip = some assignment := by
    intro assignment hmem hprofiles
    unfold profilesTaken at hprofiles
    cases htaken : taken credentials.assignments ip with
    | none =>
        rw [htaken] at hprofiles
        exact absurd hprofiles (hdistinguished.fallback assignment hmem)
    | some found =>
        rw [htaken] at hprofiles
        have hfound := (mem_networkOnly (taken_eq_some htaken).1).1
        rw [hdistinguished.assignments assignment hmem found hfound hprofiles]
  rcases hspecified with ⟨assignment, hmem, hdenotes, hprofiles⟩ | ⟨hnone, hnetworks⟩
  · have hempty := (mem_networkOnly (taken_eq_some (hright assignment hmem hprofiles)).1).2
    rw [hempty] at hdenotes
    exact absurd hdenotes not_denotes_nil
  · refine ⟨hnone, ?_⟩
    intro assignment hspecific
    rcases hnetworks with ⟨found, hfound, hprofiles⟩ | ⟨houtside, -⟩
    · rw [mostSpecific_iff] at hspecific
      have hsame := hspecific.symm.trans (mostSpecific_iff.mp hfound)
      cases hsame
      obtain ⟨honly, hmapped⟩ :=
        taken_eq_some (hright assignment (List.mem_of_mem_filter hfound.1) hprofiles)
      exact ⟨(mem_networkOnly honly).2, hmapped⟩
    · have hcontains := hspecific.2.1
      rw [houtside assignment hspecific.1] at hcontains
      cases hcontains

end Theorem

/-- The resolver returns what it should if the address is assigned in the printed spelling,
or if nothing disturbs the choice of a network. Where the assignments can be told apart by
their profiles, it does so only then. -/
theorem resolve_specified (credentials : CredentialsConfig) (now : Time) (resolver : Resolver)
    (hnew : newResolver credentials now = some resolver) (ip : Net.IP)
    (hip : ip.length = 4 ∨ ip.length = 16) :
    (Spelled credentials ip ∨ Undisturbed credentials ip →
        Specified credentials ip (resolver.resolve ip)) ∧
      (Distinguished credentials → Specified credentials ip (resolver.resolve ip) →
        Spelled credentials ip ∨ Undisturbed credentials ip) := by
  by_cases hspelled : Spelled credentials ip
  · refine ⟨fun _ => ?_, fun _ _ => Or.inl hspelled⟩
    obtain ⟨assignment, hmem, htext, hprofiles⟩ := resolve_of_spelled hnew hspelled
    exact Or.inl ⟨assignment, hmem, htext ▸ denotes_ipString hip, hprofiles⟩
  · rw [resolve_of_not_spelled hnew hspelled, or_iff_right hspelled]
    exact ⟨specified_of_undisturbed, undisturbed_of_specified⟩

/-- Profiles for the core, for the edge and for all other devices. -/
def officeCredentials (assignments : List CredentialAssignment) : CredentialsConfig :=
  { profiles := [str "core", str "edge", str "public"].map fun name =>
      { name, profileType := profileTypeSNMPv2c, communityEnv := str "COMMUNITY",
        usernameEnv := [], authProtocol := [], authKeyEnv := [], privProtocol := [],
        privKeyEnv := [], retries := 0, contextName := [] }
    assignments
    fallbackOrder := [str "public"]
    trialRatePerSecond := 1 }

def coreRouter : Net.IP := [0x20, 0x01, 0x0d, 0xb8, 0, 0, 0, 0, 0, 0, 0, 0, 0, 0, 0, 1]

/-- The core router is assigned, and its address spelled as given. -/
def coreCredentials (address : GoString) : CredentialsConfig :=
  officeCredentials [⟨address, [], [str "core"]⟩]

/-- A network at the edge, in the network of the core. -/
def edgeCredentials : CredentialsConfig :=
  officeCredentials [⟨[], str "10.0.0.0/24", [str "edge"]⟩,
    ⟨[], str "::ffff:10.0.0.0/104", [str "core"]⟩]

/-- In the printed spelling, the core router has the profiles of the core. -/
theorem lowercase_address_found :
    ∃ resolver, newResolver (coreCredentials (str "2001:db8::1")) ⟨0, none⟩ = some resolver ∧
      Specified (coreCredentials (str "2001:db8::1")) coreRouter
        (resolver.resolve coreRouter) := by
  have hvalid : validateCredentials id (coreCredentials (str "2001:db8::1")) =
      .ok (coreCredentials (str "2001:db8::1")) := by decide
  obtain ⟨resolver, hnew⟩ := newResolver_of_validate hvalid (List.cons_ne_nil _ _) ⟨0, none⟩
  refine ⟨resolver, hnew, (resolve_specified _ _ _ hnew _ (Or.inr rfl)).1 ?_⟩
  exact Or.inl ⟨⟨str "2001:db8::1", [], [str "core"]⟩, List.mem_singleton_self _, by decide⟩

/-- In capitals it falls through to the fallback, and at the edge the network around it is
taken, which is in IPv4-mapped notation. Validation accepts both. -/
theorem uppercase_address_and_mapped_network_missed :
    (∀ toUpper, validateCredentials toUpper (coreCredentials (str "2001:DB8::1")) =
        .ok (coreCredentials (str "2001:DB8::1"))) ∧
      (newResolver (coreCredentials (str "2001:DB8::1")) ⟨0, none⟩).map
        (fun resolver => resolver.resolve coreRouter) = some [str "public"] ∧
      ¬ Specified (coreCredentials (str "2001:DB8::1")) coreRouter [str "public"] ∧
      (∀ toUpper, validateCredentials toUpper edgeCredentials = .ok edgeCredentials) ∧
      (newResolver edgeCredentials ⟨0, none⟩).map
        (fun resolver => resolver.resolve [10, 0, 0, 1]) = some [str "core"] ∧
      ¬ Specified edgeCredentials [10, 0, 0, 1] [str "core"] := by
  refine ⟨fun _ => by rfl, by decide, ?_, fun _ => by rfl, by decide, ?_⟩
  · intro hspecified
    rcases hspecified with ⟨assignment, hmem, -, hprofiles⟩ | ⟨hnone, -⟩
    · cases List.mem_singleton.mp hmem
      exact absurd hprofiles (by decide)
    · exact hnone _ (List.mem_singleton_self _)
        ⟨coreRouter, by decide, by decide⟩
  · have hnarrowest : Net.narrowestNet network (assigned edgeCredentials.assignments)
        [10, 0, 0, 1] = some ⟨[], str "10.0.0.0/24", [str "edge"]⟩ := by decide
    intro hspecified
    rcases hspecified with ⟨assignment, hmem, ⟨ip, hparse, -⟩, -⟩ |
      ⟨-, ⟨assignment, hspecific, hprofiles⟩ | ⟨hnone, -⟩⟩
    · have haddress : ∀ assignment ∈ edgeCredentials.assignments,
          Net.parseIP assignment.ip = none := by decide
      rw [haddress assignment hmem] at hparse
      cases hparse
    · rw [mostSpecific_iff, hnarrowest] at hspecific
      cases hspecific
      exact absurd hprofiles (by decide)
    · rw [← Net.narrowestNet_eq_none_iff (canonical_assigned _), hnarrowest] at hnone
      cases hnone

end TopologyExporter.Credentials
