import TopologyExporter.GoLib.Maps
import TopologyExporter.GoLib.Net

/-! # Configured targets

The devices an exporter polls, and what the configuration has to satisfy about
them.
-/

namespace TopologyExporter.Config

open Go

structure Target where
  host : GoString
  port : Int
  site : GoString
  labels : Map GoString GoString
deriving DecidableEq

inductive TargetError where
  | hostEmpty (index : Nat)
  | portOutOfRange (index : Nat) (port : Int)
  | duplicate (index first : Nat) (host : GoString) (port : Int)
  | labelKeyEmpty (index : Nat)
deriving DecidableEq

def Target.hostPort (target : Target) : GoString × Int := (target.host, target.port)

/-- The checks of one target; `seen` are the targets before it. -/
def validateTarget (seen : Map (GoString × Int) Nat) (index : Nat) (target : Target) :
    Option TargetError :=
  if target.host = [] then some (.hostEmpty index)
  else if target.port < 1 ∨ 65535 < target.port then some (.portOutOfRange index target.port)
  else
    match seen.lookup target.hostPort with
    | some first => some (.duplicate index first target.host target.port)
    | none => if [] ∈ target.labels then some (.labelKeyEmpty index) else none

def validateTargetsFrom (seen : Map (GoString × Int) Nat) (index : Nat) :
    List Target → Option TargetError
  | [] => none
  | target :: rest => (validateTarget seen index target).or
      (validateTargetsFrom (seen.insert target.hostPort index) (index + 1) rest)

def validateTargets (targets : List Target) : Option TargetError :=
  validateTargetsFrom ∅ 0 targets

/-- The address of a target: its host if that is one, or else the first one that
the name resolves to. A resolved text that is no address gives the nil address;
`none` stands for a failed resolution. -/
def Target.address (target : Target) (lookupHost : Option (List GoString)) : Option Net.IP :=
  match Net.parseIP target.host, lookupHost with
  | some ip, _ => some ip
  | none, some (address :: _) => some ((Net.parseIP address).getD [])
  | none, _ => none

/-! ## What validation guarantees -/

/-- A target that passes validation on its own. -/
structure ValidTarget (target : Target) : Prop where
  host_ne : target.host ≠ []
  port_pos : 1 ≤ target.port
  port_le : target.port ≤ 65535
  labels : [] ∉ target.labels

variable {seen : Map (GoString × Int) Nat} {index : Nat} {target : Target} {targets : List Target}

theorem validateTarget_eq_none :
    validateTarget seen index target = none ↔ ValidTarget target ∧ target.hostPort ∉ seen := by
  unfold validateTarget
  by_cases hhost : target.host = []
  · simp only [if_pos hhost, reduceCtorEq, false_iff, not_and]
    exact fun hvalid => absurd hhost hvalid.host_ne
  rw [if_neg hhost]
  by_cases hport : target.port < 1 ∨ 65535 < target.port
  · simp only [if_pos hport, reduceCtorEq, false_iff, not_and]
    intro hvalid
    have hlow := hvalid.port_pos
    have hhigh := hvalid.port_le
    omega
  rw [if_neg hport, ← AList.lookup_eq_none]
  rw [not_or, not_lt, not_lt] at hport
  cases hseen : seen.lookup target.hostPort with
  | some first => simp
  | none =>
      simp only [and_true, ite_eq_right_iff, reduceCtorEq, imp_false]
      exact ⟨fun hlabels => ⟨hhost, hport.1, hport.2, hlabels⟩, fun hvalid => hvalid.labels⟩

theorem validateTargetsFrom_eq_none :
    validateTargetsFrom seen index targets = none ↔ (∀ target ∈ targets, ValidTarget target) ∧
      (targets.map Target.hostPort).Nodup ∧ ∀ target ∈ targets, target.hostPort ∉ seen := by
  induction targets generalizing seen index with
  | nil => simp [validateTargetsFrom]
  | cons target rest ih =>
      rw [validateTargetsFrom, Option.or_eq_none_iff, validateTarget_eq_none, ih, List.map_cons,
        List.nodup_cons, List.forall_mem_cons, List.forall_mem_cons]
      simp only [AList.mem_insert, not_or, List.mem_map, not_exists, not_and]
      constructor
      · rintro ⟨⟨hvalid, hnew⟩, hrest, hnodup, hseen⟩
        exact ⟨⟨hvalid, hrest⟩, ⟨fun other hother => (hseen other hother).1, hnodup⟩, hnew,
          fun other hother => (hseen other hother).2⟩
      · rintro ⟨⟨hvalid, hrest⟩, ⟨hdistinct, hnodup⟩, hnew, hseen⟩
        exact ⟨⟨hvalid, hnew⟩, hrest, hnodup,
          fun other hother => ⟨hdistinct other hother, hseen other hother⟩⟩

theorem validateTargets_eq_none :
    validateTargets targets = none ↔ (∀ target ∈ targets, ValidTarget target) ∧
      (targets.map Target.hostPort).Nodup := by
  rw [validateTargets, validateTargetsFrom_eq_none]
  simp

theorem Target.address_length {lookupHost : Option (List GoString)} {ip : Net.IP}
    (haddress : target.address lookupHost = some ip) : ip.length ≤ 16 := by
  unfold Target.address at haddress
  split at haddress
  · next found hfound =>
      cases haddress
      exact (Net.parseIP_length hfound).le
  · next text rest hfound =>
      cases haddress
      cases hparsed : Net.parseIP text with
      | none => exact Nat.zero_le 16
      | some parsed => exact (Net.parseIP_length hparsed).le
  · cases haddress

end TopologyExporter.Config
