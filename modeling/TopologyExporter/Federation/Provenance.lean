import TopologyExporter.Federation.Registry

/-! # Where registered entries come from

A push is checked once, before it takes the lock, and may commit much later.
The entry it stores is still the one that was checked: every registered entry
goes back to a request that passed all the checks at the time the entry bears.
-/

namespace TopologyExporter.Federation

open Go Utf8 Discovery Transition

variable {hub : Setup} {action : Action} {state next : State}

/-! ## What the checks establish -/

theorem checkSpokeID_eq_none {id : GoString} :
    checkSpokeID id = none ↔
      id ≠ [] ∧ id.length ≤ 128 ∧ ∀ rune ∈ runes id, spokeIDChar rune = true := by
  unfold checkSpokeID
  by_cases hempty : id = []
  · simp [hempty]
  · rw [if_neg hempty]
    by_cases hlong : 128 < id.length
    · rw [if_pos hlong]
      simp only [reduceCtorEq, false_iff, not_and]
      exact fun _ hshort => absurd hlong (by omega)
    · rw [if_neg hlong, ← List.all_eq_true]
      by_cases hchars : (runes id).all spokeIDChar = true
      · simp only [hchars, if_true, true_iff, and_true]
        exact ⟨hempty, by omega⟩
      · simp [hchars]

theorem spokeIDChar_ascii {rune : Nat} (hchar : spokeIDChar rune = true) : rune < 0x80 := by
  simp only [spokeIDChar, Bool.or_eq_true, Bool.and_eq_true, decide_eq_true_eq, beq_iff_eq]
    at hchar
  omega

theorem spokeID_bytes {id : GoString} (hrunes : ∀ rune ∈ runes id, spokeIDChar rune = true) :
    ∀ byte ∈ id, spokeIDChar byte.toNat = true := by
  intro byte hbyte
  apply hrunes
  exact toNat_mem_runes (fun rune hrune => spokeIDChar_ascii (hrunes rune hrune)) byte hbyte

variable {cfg : FederationConfig} {now : Time} {request : Request} {id : CallID}

theorem checkCycleAt_eq_none {cycleAt : Time} :
    checkCycleAt cfg now cycleAt = none ↔
      cycleAt.isZero = false ∧ cycleAt.after (now.add (5 * Time.minute)) = false ∧
        now.sub cycleAt ≤ cfg.spokeTimeout := by
  unfold checkCycleAt
  by_cases hzero : cycleAt.isZero = true
  · simp [hzero]
  · rw [if_neg hzero]
    by_cases hfuture : cycleAt.after (now.add (5 * Time.minute)) = true
    · simp [hfuture]
    · rw [if_neg hfuture]
      simp only [ite_eq_right_iff, reduceCtorEq, imp_false, not_lt]
      simp [hzero, hfuture]

/-- What holds of a payload that was admitted at the given time. -/
structure Admitted (cfg : FederationConfig) (request : Request) (payload : SpokePayload)
    (now : Time) : Prop where
  body : ∃ wire, request.body = .ok wire ∧ wire.payload = payload
  size : checkSize payload = none
  accepted : AcceptedPayload payload
  spokeID : checkSpokeID payload.spokeID = none
  certificate : checkCertificate request payload.spokeID = none
  cycleAt : checkCycleAt cfg now payload.cycleAt = none

variable {payload : SpokePayload} {entry : SpokeEntry} {name : GoString}

theorem admitted_of_checkPush {isLeader : Bool} {order : RangeOrder}
    (hcheck : checkPush cfg isLeader order now request = .ok payload) :
    Admitted cfg request payload now := by
  unfold checkPush at hcheck
  split_ifs at hcheck
  split at hcheck
  · cases hcheck
  · cases hcheck
  · next wire _ hbody =>
      split at hcheck
      · cases hcheck
      · next hpayload =>
          cases hcheck
          simp only [checkPayload, Option.or_eq_none_iff, Option.map_eq_none_iff] at hpayload
          obtain ⟨hsize, hvalid, hid, hcertificate, hcycleAt⟩ := hpayload
          exact ⟨⟨wire, hbody, rfl⟩, hsize, validateSpokePayload_eq_none.mp hvalid, hid,
            hcertificate, hcycleAt⟩

/-! ## From the request to the registry -/

/-- The entry is what the call was admitted with. -/
def Origin (cfg : FederationConfig) (call : Call) (name : GoString) (entry : SpokeEntry) : Prop :=
  ∃ request, call.request = some request ∧ entry.payload.spokeID = name ∧
    Admitted cfg request entry.payload entry.lastSeen

/-- The job a call is working on. -/
def Call.job (call : Call) : Option Job :=
  match call.phase with
  | .prepared job => some job
  | .built job _ _ => some job
  | _ => none

/-- A call carries what it was admitted with, from phase to phase. -/
structure CallOrigin (cfg : FederationConfig) (id : CallID) (call : Call) : Prop where
  admitted : ∀ payload now, call.phase = .admitted payload now →
    ∃ request, call.request = some request ∧ Admitted cfg request payload now
  job : ∀ job name entry, call.job = some job → job.accepted = some (name, entry) →
    entry.call = id ∧ Origin cfg call name entry

structure Provenance (cfg : FederationConfig) (state : State) : Prop where
  calls : ∀ id call, state.calls.lookup id = some call → CallOrigin cfg id call
  spokes : ∀ name entry, state.spokes.lookup name = some entry →
    ∃ call, state.calls.lookup entry.call = some call ∧ Origin cfg call name entry

variable {call : Call}

/-- A call that is neither admitted nor working on a job carries nothing. -/
theorem callOrigin_of_idle (hadmitted : ∀ payload now, call.phase ≠ .admitted payload now)
    (hjob : call.job = none) : CallOrigin cfg id call := by
  constructor
  · intro payload now hphase
    exact absurd hphase (hadmitted payload now)
  · intro job name entry hsome
    rw [hjob] at hsome
    cases hsome

theorem publishedPhase_idle {job : Job} {graph : Discovery.Graph} {reason : RejectReason} :
    CallOrigin cfg id { call with phase := publishedPhase call job graph (some reason) } := by
  unfold publishedPhase
  cases call.request with
  | none => exact callOrigin_of_idle (fun _ _ => Phase.noConfusion) rfl
  | some request => exact callOrigin_of_idle (fun _ _ => Phase.noConfusion) rfl

/-- The step of a call carries its origin on. -/
theorem CallStep.origin {updated : Call} {core : State}
    (hstep : CallStep hub state id action updated core)
    (hcalls : ∀ call, state.calls.lookup id = some call → CallOrigin hub.cfg id call) :
    CallOrigin hub.cfg id updated := by
  cases hstep with
  | refused hnew hcheck => exact callOrigin_of_idle (fun _ _ => Phase.noConfusion) rfl
  | admitted hnew hcheck =>
      constructor
      · intro payload now hphase
        cases hphase
        exact ⟨_, rfl, admitted_of_checkPush hcheck⟩
      · intro job name entry hjob
        cases hjob
  | evictionStarted hnew =>
      split_ifs
      · exact callOrigin_of_idle (fun _ _ => Phase.noConfusion) rfl
      · exact callOrigin_of_idle (fun _ _ => Phase.noConfusion) rfl
  | tooSoon hcall hphase hrequest hretry =>
      exact callOrigin_of_idle (fun _ _ => Phase.noConfusion) rfl
  | prepared hcall hphase hrequest hretry hjob =>
      constructor
      · intro payload now hphase
        cases hphase
      · intro job name entry hsome haccepted
        cases hsome
        rw [hjob] at haccepted
        cases haccepted
        -- here a payload that was admitted becomes the entry of a job
        obtain ⟨request, hfound, hadmitted⟩ := (hcalls _ hcall).admitted _ _ hphase
        exact ⟨rfl, request, hfound, rfl, hadmitted⟩
  | deleted hcall hphase hrequest hevicted =>
      split_ifs
      · exact callOrigin_of_idle (fun _ _ => Phase.noConfusion) rfl
      · exact callOrigin_of_idle (fun _ _ => Phase.noConfusion) rfl
  | copied hcall hphase hrequest hjob =>
      constructor
      · intro payload now hphase
        cases hphase
      · intro job name entry hsome haccepted
        cases hsome
        rw [hjob] at haccepted
        cases haccepted
  | built hcall hphase hgraph =>
      constructor
      · intro payload now hphase
        cases hphase
      · intro job name entry hsome haccepted
        cases hsome
        -- a build keeps the job
        refine (hcalls _ hcall).job _ name entry ?_ haccepted
        rw [Call.job, hphase]
  | won hcall hphase hgen hbudget =>
      exact callOrigin_of_idle (fun _ _ => Phase.noConfusion) rfl
  | stale hcall hphase hgen => exact publishedPhase_idle
  | tooLarge hcall hphase hgen hbudget => exact publishedPhase_idle
  | @finished _ _ call _ hcall hphase =>
      unfold finishedPhase
      cases call.request with
      | none => exact callOrigin_of_idle (fun _ _ => Phase.noConfusion) rfl
      | some request => exact callOrigin_of_idle (fun _ _ => Phase.noConfusion) rfl

theorem Origin.of_request {later : Call} (horigin : Origin cfg call name entry)
    (hrequest : later.request = call.request) : Origin cfg later name entry := by
  obtain ⟨request, hfound, hrest⟩ := horigin
  exact ⟨request, hrequest.trans hfound, hrest⟩

theorem Provenance.step (hprovenance : Provenance hub.cfg state)
    (hstep : Stepped hub state action next) : Provenance hub.cfg next := by
  constructor
  · intro id call hcall
    rcases hstep.lookup_cases hcall with hold | ⟨core, hown, -⟩
    · exact hprovenance.calls id call hold
    · exact hown.origin (hprovenance.calls id)
  · intro name entry hentry
    -- in both cases the call is there before the step, and keeps its request
    have hbefore : ∃ call, state.calls.lookup entry.call = some call ∧
        Origin hub.cfg call name entry := by
      rcases hstep.entry_cases hentry with
        hold | ⟨id, call, job, graph, unmatched, hcall, hphase, haccepted, -, -⟩
      · exact hprovenance.spokes name entry hold
      · have hjob : call.job = some job := by rw [Call.job, hphase]
        obtain ⟨rfl, horigin⟩ := (hprovenance.calls id call hcall).job job name entry hjob haccepted
        exact ⟨call, hcall, horigin⟩
    obtain ⟨call, hcall, horigin⟩ := hbefore
    obtain ⟨later, hlater, hrequest, -⟩ := hstep.persists hcall
    exact ⟨later, hlater, horigin.of_request hrequest⟩

theorem provenance_of_fresh (hfresh : Fresh state) : Provenance cfg state := by
  constructor
  · intro id call hcall
    rw [hfresh.calls] at hcall
    cases hcall
  · intro name entry hentry
    rw [hfresh.spokes] at hentry
    cases hentry

/-! ## Mutual TLS -/

/-- Every request presents a certificate. -/
def Action.MutualTLS : Action → Prop
  | .receive _ request _ _ => ∃ certCN rest, request.peerCertificates = some (certCN :: rest)
  | _ => True

def Certified (state : State) : Prop :=
  ∀ id call request, state.calls.lookup id = some call → call.request = some request →
    ∃ certCN rest, request.peerCertificates = some (certCN :: rest)

theorem Certified.step (hcertified : Certified state) (htls : action.MutualTLS)
    (hstep : Stepped hub state action next) : Certified next := by
  intro id call request hcall hrequest
  rcases hstep.lookup_cases hcall with hold | ⟨core, hown, -⟩
  · exact hcertified id call request hold hrequest
  · cases hfound : state.calls.lookup id with
    | some earlier =>
        have hkept := (hown.persists hfound).1
        exact hcertified id earlier request hfound (hkept.symm.trans hrequest)
    | none =>
        -- the call has just begun, with the request of this action
        cases hown with
        | refused hnew hcheck =>
            cases hrequest
            exact htls
        | admitted hnew hcheck =>
            cases hrequest
            exact htls
        | evictionStarted hnew => cases hrequest
        | tooSoon hold _ _ _ | prepared hold _ _ _ _ | deleted hold _ _ _ | copied hold _ _ _
        | built hold _ _ | won hold _ _ _ | stale hold _ _ | tooLarge hold _ _ _
        | finished hold _ =>
            rw [hfound] at hold
            cases hold

/-- What the hub can vouch for about an entry and the request that stored it. -/
structure Authentic (cfg : FederationConfig) (request : Request) (name : GoString)
    (entry : SpokeEntry) : Prop where
  body : ∃ wire, request.body = .ok wire ∧ wire.payload = entry.payload
  certCN : ∃ rest, request.peerCertificates = some (name :: rest)
  name_length : 1 ≤ name.length ∧ name.length ≤ 128
  name_bytes : ∀ byte ∈ name, spokeIDChar byte.toNat = true
  valid : ∀ order, validateSpokePayload order entry.payload = none
  size : entry.payload.devices.length ≤ 10000 ∧ entry.payload.edges.length ≤ 50000
  cycleAt_set : entry.payload.cycleAt ≠ Time.zero
  cycleAt_future : entry.payload.cycleAt.wall ≤ entry.lastSeen.wall + 5 * Time.minute
  cycleAt_stale : cfg.spokeTimeout < Strconv.maxInt →
    entry.lastSeen.wall - entry.payload.cycleAt.wall ≤ cfg.spokeTimeout

/-- The time of the cycle, as it arrives in a body, against the time of the
arrival. -/
structure Timely (cfg : FederationConfig) (payload : SpokePayload) (now : Time) : Prop where
  set : payload.cycleAt ≠ Time.zero
  future : payload.cycleAt.wall ≤ now.wall + 5 * Time.minute
  stale : cfg.spokeTimeout < Strconv.maxInt →
    now.wall - payload.cycleAt.wall ≤ cfg.spokeTimeout

theorem Admitted.timely (hadmitted : Admitted cfg request payload now) :
    Timely cfg payload now := by
  obtain ⟨hset, hfuture, hstale⟩ := checkCycleAt_eq_none.mp hadmitted.cycleAt
  have hmono : payload.cycleAt.mono = none := by
    obtain ⟨wire, -, hwire⟩ := hadmitted.body
    rw [← hwire]
    exact wire.cycleAt_mono
  refine ⟨?_, ?_, ?_⟩
  · intro hzero
    rw [hzero] at hset
    cases hset
  · rw [Time.after_of_mono_none hmono, decide_eq_false_iff_not, not_lt] at hfuture
    exact hfuture
  · intro htimeout
    rw [Time.sub_of_mono_none hmono] at hstale
    exact Time.le_of_saturate_le htimeout hstale

theorem Admitted.authentic {certCN : GoString} {rest : List GoString}
    (hadmitted : Admitted cfg request entry.payload entry.lastSeen)
    (hname : entry.payload.spokeID = name)
    (hcertificate : request.peerCertificates = some (certCN :: rest)) :
    Authentic cfg request name entry := by
  subst hname
  obtain ⟨hset, hfuture, hstale⟩ := hadmitted.timely
  obtain ⟨hnonempty, hlength, hchars⟩ := checkSpokeID_eq_none.mp hadmitted.spokeID
  have hcn : certCN = entry.payload.spokeID := by
    have hcheck := hadmitted.certificate
    rw [checkCertificate, hcertificate] at hcheck
    by_contra hne
    simp [hne] at hcheck
  refine ⟨hadmitted.body, ⟨rest, ?_⟩, ⟨?_, hlength⟩, spokeID_bytes hchars,
    fun order => validateSpokePayload_eq_none.mpr hadmitted.accepted, ?_, hset, hfuture, hstale⟩
  · rw [hcertificate, hcn]
  · exact List.length_pos_iff.mpr hnonempty
  · have hsize := hadmitted.size
    unfold checkSize at hsize
    split_ifs at hsize with hlimits
    rw [not_or, not_lt, not_lt] at hlimits
    exact hlimits

/-- Over mutual TLS, every registered entry was stored by a request whose
certificate bears the name it is registered under, and which passed all the
checks. A timeout of the longest duration there is never rejects a payload as
stale, so it bounds nothing. -/
theorem registered_entries_authentic (hub : Setup) (start final : State) (actions : List Action)
    (hfresh : Fresh start) (htls : ∀ action ∈ actions, action.MutualTLS)
    (hrun : run (step hub) actions start = some final) :
    ∀ name entry, final.spokes.lookup name = some entry →
      ∃ call request, final.calls.lookup entry.call = some call ∧ call.request = some request ∧
        Authentic hub.cfg request name entry := by
  intro name entry hentry
  have hprovenance : Provenance hub.cfg final :=
    run_invariant (fun _ _ _ hinvariant hstep => hinvariant.step (stepped_of_step hstep))
      (provenance_of_fresh hfresh) hrun
  have hcertified : Certified final := by
    refine run_invariant_throughout (fun _ _ _ htls hinvariant hstep =>
      hinvariant.step htls (stepped_of_step hstep)) ?_
      (throughout_of_forall_mem (fun action hmem _ => htls action hmem) start) hrun
    intro id call request hcall
    rw [hfresh.calls] at hcall
    cases hcall
  obtain ⟨call, hcall, request, hrequest, hname, hadmitted⟩ := hprovenance.spokes name entry hentry
  obtain ⟨certCN, rest, hcertificate⟩ := hcertified _ call request hcall hrequest
  exact ⟨call, request, hcall, hrequest, hadmitted.authentic hname hcertificate⟩

theorem mutualTLS_pushSteps (id : CallID) (name device : GoString) (cycleAt seconds : Int) :
    ∀ action ∈ pushSteps id (pushRequest name device cycleAt) seconds, action.MutualTLS := by
  intro action hmem
  rcases List.mem_cons.mp hmem with rfl | hadvance
  · exact ⟨name, [], rfl⟩
  · rw [List.eq_of_mem_replicate hadvance]
    trivial

theorem registered_entry_after_push :
    ∃ (final : State) (entry : SpokeEntry) (call : Call) (request : Request),
      final.spokes.lookup (str "east") = some entry ∧
      final.calls.lookup entry.call = some call ∧ call.request = some request ∧
      Authentic plainConfig request (str "east") entry := by
  have hrun : ((run (step plainHub)
      (pushSteps 1 (pushRequest (str "east") (str "sw1") 63900000000) 63900000001)
      freshHub).bind fun state => (state.spokes.lookup (str "east")).map fun _ => true) =
      some true := by
    decide
  obtain ⟨final, hfinal, hentry⟩ := Option.bind_eq_some_iff.mp hrun
  obtain ⟨entry, hlookup, -⟩ := Option.map_eq_some_iff.mp hentry
  obtain ⟨call, request, hauthentic⟩ := registered_entries_authentic plainHub freshHub final _
    fresh_freshHub (mutualTLS_pushSteps 1 (str "east") (str "sw1") 63900000000 63900000001)
    hfinal (str "east") entry hlookup
  exact ⟨final, entry, call, request, hlookup, hauthentic⟩

/-- A hub whose timeout is the longest duration there is. -/
def patientHub : Setup := ⟨{ plainConfig with spokeTimeout := Strconv.maxInt }, []⟩

/-- A payload more than 326 years old: its age saturates at the timeout, so it
is registered. -/
theorem ancient_payload_registered :
    (∀ action ∈ pushSteps 1 (pushRequest (str "east") (str "sw1") 53600000000) 63900000001,
        action.MutualTLS) ∧
      ∃ final entry, run (step patientHub)
        (pushSteps 1 (pushRequest (str "east") (str "sw1") 53600000000) 63900000001) freshHub =
          some final ∧
        final.spokes.lookup (str "east") = some entry ∧
        patientHub.cfg.spokeTimeout < entry.lastSeen.wall - entry.payload.cycleAt.wall := by
  refine ⟨mutualTLS_pushSteps 1 _ _ _ _, ?_⟩
  have hrun : ((run (step patientHub)
      (pushSteps 1 (pushRequest (str "east") (str "sw1") 53600000000) 63900000001)
      freshHub).bind fun state => (state.spokes.lookup (str "east")).map fun entry =>
        decide (patientHub.cfg.spokeTimeout < entry.lastSeen.wall - entry.payload.cycleAt.wall)) =
      some true := by
    decide
  obtain ⟨final, hfinal, hentry⟩ := Option.bind_eq_some_iff.mp hrun
  obtain ⟨entry, hlookup, hold⟩ := Option.map_eq_some_iff.mp hentry
  exact ⟨final, entry, hfinal, hlookup, of_decide_eq_true hold⟩

end TopologyExporter.Federation
