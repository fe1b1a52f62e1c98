import TopologyExporter.Foundation.Transition
import TopologyExporter.Snapshot.File

/-! # Writing a snapshot step by step

A write is a sequence of operations on files, each of which may fail, and the
process may stop between any two of them. The document is written to a temporary
file and renamed into place, so the path changes at once. The fence check comes
first and reads what is under the path. A file that does not parse or has another
version is copied aside and removed, before anything is there to replace it.
-/

namespace TopologyExporter.Snapshot

open Go Transition

/-- The operations that put a new document in place, in their order. -/
inductive SaveOp where
  | marshal
  | mkdirAll
  | createTemp
  | writeTemp
  | syncTemp
  | closeTemp
  | rename
deriving DecidableEq

inductive WriteError where
  | staleEpoch (error : StaleEpoch)
  | failed (op : SaveOp)
deriving DecidableEq

/-- The operation that comes next. -/
inductive Phase where
  | fencing
  | quarantine (contents : Contents) (slot : Nat)
  | copying (contents : Contents) (slot : Nat)
  | closingCopy (slot : Nat)
  | removing
  | saving (op : SaveOp)
  | syncingDir
  | returned (result : Except WriteError Unit)
deriving DecidableEq

/-- The files next to each other: the one under the path, the copies that were
put aside and the temporary one. -/
structure Writing where
  path : Disk
  bad : Map Nat Contents
  temp : Disk
  phase : Phase

/-- A file that was just created. -/
def emptyFile : Contents := .unparsable []

def maxQuarantineAttempts : Nat := 100

def startWrite (path : Disk) (bad : Map Nat Contents) : Writing :=
  ⟨path, bad, none, .fencing⟩

section Steps

variable (order : RangeOrder) (now : Time) (file : File)

/-- The fence check. An error of the load is ignored, but a file that does not
parse or has another version is put aside. -/
def fence (readable : Bool) (writing : Writing) : Writing :=
  if file.leaseEpoch = 0 ∨ readable = false then { writing with phase := .saving .marshal }
  else
    match (load order writing.path).1, writing.path with
    | .ok (some existing), _ =>
        if file.leaseEpoch < existing.leaseEpoch then
          { writing with
            phase := .returned (.error (.staleEpoch ⟨existing.leaseEpoch, file.leaseEpoch⟩)) }
        else { writing with phase := .saving .marshal }
    | .error .parse, some contents => { writing with phase := .quarantine contents 0 }
    | .error (.versionMismatch _ _), some contents =>
        { writing with phase := .quarantine contents 0 }
    | _, _ => { writing with phase := .saving .marshal }

/-- The first free name is taken. With all of them taken the file is removed
without a copy. -/
def openCopy (contents : Contents) (slot : Nat) (succeeds : Bool) (writing : Writing) : Writing :=
  if maxQuarantineAttempts ≤ slot then { writing with phase := .removing }
  else if slot ∈ writing.bad then { writing with phase := .quarantine contents (slot + 1) }
  else if succeeds then
    { writing with bad := writing.bad.insert slot emptyFile, phase := .copying contents slot }
  else { writing with phase := .saving .marshal }

/-- A failure leaves no temporary file behind and ends the write. -/
def save (op : SaveOp) (succeeds : Bool) (writing : Writing) : Writing :=
  if succeeds then
    match op with
    | .marshal => { writing with phase := .saving .mkdirAll }
    | .mkdirAll => { writing with phase := .saving .createTemp }
    | .createTemp => { writing with temp := some emptyFile, phase := .saving .writeTemp }
    | .writeTemp =>
        { writing with temp := some (.document (stamped now file)), phase := .saving .syncTemp }
    | .syncTemp => { writing with phase := .saving .closeTemp }
    | .closeTemp => { writing with phase := .saving .rename }
    | .rename => { writing with path := writing.temp, temp := none, phase := .syncingDir }
  else { writing with temp := none, phase := .returned (.error (.failed op)) }

/-- One operation, which succeeds or fails. -/
def step (succeeds : Bool) (writing : Writing) : Option Writing :=
  match writing.phase with
  | .fencing => some (fence order file succeeds writing)
  | .quarantine contents slot => some (openCopy contents slot succeeds writing)
  | .copying contents slot =>
      if succeeds then
        some { writing with
          bad := writing.bad.insert slot contents, phase := .closingCopy slot }
      else some { writing with bad := writing.bad.erase slot, phase := .saving .marshal }
  | .closingCopy slot =>
      if succeeds then some { writing with phase := .removing }
      else some { writing with bad := writing.bad.erase slot, phase := .saving .marshal }
  | .removing =>
      some { writing with
        path := if succeeds then none else writing.path, phase := .saving .marshal }
  | .saving op => some (save now file op succeeds writing)
  | .syncingDir => some { writing with phase := .returned (.ok ()) }
  | .returned _ => none

end Steps

section Outcomes

variable {order : RangeOrder} {now : Time} {file : File}

/-! ## Without faults -/

/-- The file is put aside by a load. -/
def Contents.Discarded : Contents → Prop
  | .unparsable _ => True
  | .document file => file.version ≠ currentVersion

instance Contents.decidableDiscarded : DecidablePred Contents.Discarded
  | .unparsable _ => .isTrue trivial
  | .document file => inferInstanceAs (Decidable (file.version ≠ currentVersion))

theorem load_discarded {contents : Contents} (hdiscarded : contents.Discarded) :
    load order (some contents) = (.error .parse, none) ∨
      ∃ got want, load order (some contents) = (.error (.versionMismatch got want), none) := by
  cases contents with
  | unparsable bytes => exact Or.inl rfl
  | document found =>
      have hversion : found.version ≠ currentVersion := hdiscarded
      exact Or.inr ⟨found.version, currentVersion, by rw [load, if_pos hversion]⟩

theorem load_kept {contents : Contents} (hkept : ¬ contents.Discarded) :
    (∃ found, load order (some contents) = (.ok (some found), some contents)) ∨
      ∃ errors, load order (some contents) = (.error (.invalid errors), some contents) := by
  cases contents with
  | unparsable bytes => exact absurd trivial hkept
  | document found =>
      have hversion : ¬ found.version ≠ currentVersion := hkept
      rw [load, if_neg hversion]
      split
      · exact Or.inl ⟨found, rfl⟩
      · exact Or.inr ⟨_, rfl⟩

variable {writing : Writing}

/-- The write gets past the fence check. -/
theorem fence_open {readable : Bool} (hopen : file.leaseEpoch = 0 ∨ readable = false) :
    fence order file readable writing = { writing with phase := .saving .marshal } := by
  rw [fence, if_pos hopen]

/-- A file that is to be discarded is put aside. -/
theorem fence_discarded {writing : Writing} {contents : Contents}
    (hpath : writing.path = some contents) (hdiscarded : contents.Discarded)
    (hepoch : 0 < file.leaseEpoch) :
    fence order file true writing = { writing with phase := .quarantine contents 0 } := by
  have hread : ¬ (file.leaseEpoch = 0 ∨ true = false) := by
    simp [Nat.pos_iff_ne_zero.mp hepoch]
  rw [fence, if_neg hread, hpath]
  rcases @load_discarded order _ hdiscarded with hload | ⟨got, want, hload⟩
  · rw [hload]
  · rw [hload]

/-- Any other file is left where it is, and the write is refused or goes on. -/
theorem fence_kept {writing : Writing} {readable : Bool}
    (hkept : ∀ contents, writing.path = some contents → ¬ contents.Discarded) :
    ∃ phase, fence order file readable writing = { writing with phase := phase } ∧
      (phase = .saving .marshal ∨ ∃ error, phase = .returned (.error (.staleEpoch error))) := by
  by_cases hopen : file.leaseEpoch = 0 ∨ readable = false
  · exact ⟨_, fence_open hopen, Or.inl rfl⟩
  · rw [fence, if_neg hopen]
    cases hpath : writing.path with
    | none => exact ⟨_, rfl, Or.inl rfl⟩
    | some contents =>
        rcases @load_kept order _ (hkept contents hpath) with ⟨found, hload⟩ | ⟨errors, hload⟩
        · simp only [hload]
          split_ifs
          · exact ⟨_, rfl, Or.inr ⟨_, rfl⟩⟩
          · exact ⟨_, rfl, Or.inl rfl⟩
        · simp only [hload]
          exact ⟨_, rfl, Or.inl rfl⟩

/-- Without faults the file is removed, whichever names for the copy are taken. -/
theorem run_quarantine (contents : Contents) (attempts : Nat) (writing : Writing)
    (hphase : ∃ slot, writing.phase = .quarantine contents slot ∧
      maxQuarantineAttempts ≤ slot + attempts) :
    ∃ count final, run (step order now file) (List.replicate count true) writing = some final ∧
      final.path = none ∧ final.phase = .saving .marshal := by
  induction attempts generalizing writing with
  | zero =>
      obtain ⟨slot, hphase, hslot⟩ := hphase
      refine ⟨2, { writing with path := none, phase := .saving .marshal }, ?_, rfl, rfl⟩
      have hfull : maxQuarantineAttempts ≤ slot := hslot
      simp [List.replicate_succ, run, step, hphase, openCopy, hfull]
  | succ attempts ih =>
      obtain ⟨slot, hphase, hslot⟩ := hphase
      by_cases hfull : maxQuarantineAttempts ≤ slot
      · exact ih writing ⟨slot, hphase, by omega⟩
      · by_cases htaken : slot ∈ writing.bad
        · obtain ⟨count, final, hrun, hfinal⟩ :=
            ih { writing with phase := .quarantine contents (slot + 1) } ⟨slot + 1, rfl, by omega⟩
          refine ⟨count + 1, final, ?_, hfinal⟩
          rw [List.replicate_succ]
          refine run_cons_eq_some.mpr ⟨_, ?_, hrun⟩
          simp [step, hphase, openCopy, hfull, htaken]
        · refine ⟨4, { writing with
              path := none
              bad := (writing.bad.insert slot emptyFile).insert slot contents
              phase := .saving .marshal }, ?_, rfl, rfl⟩
          simp [List.replicate_succ, run, step, hphase, openCopy, hfull, htaken]

variable (order now file) in
/-- Without faults the write returns, with this under the path. -/
def Completes (writing : Writing) (path : Disk) (result : Except WriteError Unit) : Prop :=
  ∃ count final, run (step order now file) (List.replicate count true) writing = some final ∧
    final.path = path ∧ final.phase = .returned result

theorem Completes.after {reached : Writing} {path : Disk} {result : Except WriteError Unit}
    {count : Nat} (hcompletes : Completes order now file reached path result)
    (hrun : run (step order now file) (List.replicate count true) writing = some reached) :
    Completes order now file writing path result := by
  obtain ⟨rest, final, hrest, hfinal⟩ := hcompletes
  refine ⟨count + rest, final, ?_, hfinal⟩
  rw [← List.replicate_append_replicate, run_append, hrun]
  exact hrest

/-- Past the fence check the new document is put in place. -/
theorem completes_saving (hphase : writing.phase = .saving .marshal) :
    Completes order now file writing (some (.document (stamped now file))) (.ok ()) := by
  obtain ⟨path, bad, temp, phase⟩ := writing
  cases hphase
  exact ⟨8, _, rfl, rfl, rfl⟩

theorem run_fence {writing reached : Writing} (hphase : writing.phase = .fencing)
    (hfence : fence order file true writing = reached) :
    run (step order now file) (List.replicate 1 true) writing = some reached := by
  simp [run, step, hphase, hfence]

/-- Without faults a file that is discarded is gone before the new document is
written. -/
theorem exists_run_removed {contents : Contents} (bad : Map Nat Contents)
    (hdiscarded : contents.Discarded) (hepoch : 0 < file.leaseEpoch) :
    ∃ count removed,
      run (step order now file) (List.replicate count true) (startWrite (some contents) bad) =
          some removed ∧
        removed.path = none ∧ removed.phase = .saving .marshal := by
  have hfence := @run_fence order now file _ _ rfl
    (@fence_discarded order file (startWrite (some contents) bad) contents rfl hdiscarded hepoch)
  obtain ⟨count, removed, hrun, hremoved⟩ :=
    @run_quarantine order now file contents maxQuarantineAttempts
      { startWrite (some contents) bad with phase := .quarantine contents 0 }
      ⟨0, rfl, by simp⟩
  refine ⟨1 + count, removed, ?_, hremoved⟩
  rw [← List.replicate_append_replicate, run_append, hfence]
  exact hrun

/-- Without faults the steps amount to the write of a document as a whole. -/
theorem completes_write (path : Disk) (bad : Map Nat Contents) :
    Completes order now file (startWrite path bad) (write order now file path).2
      ((write order now file path).1.mapError .staleEpoch) := by
  by_cases hopen : file.leaseEpoch = 0
  · rw [write, if_neg (by omega)]
    exact (completes_saving rfl).after (run_fence rfl (fence_open (Or.inl hopen)))
  have hread : ¬ (file.leaseEpoch = 0 ∨ true = false) := by simp [hopen]
  have hepoch : 0 < file.leaseEpoch := Nat.pos_of_ne_zero hopen
  rw [write, if_pos hepoch]
  -- once the outcome of the load is known, both sides compute
  have hsaving (hfence : fence order file true (startWrite path bad) =
      { startWrite path bad with phase := .saving .marshal }) :
      Completes order now file (startWrite path bad)
        (some (.document (stamped now file))) (.ok ()) :=
    (completes_saving rfl).after (run_fence rfl hfence)
  cases path with
  | none =>
      refine hsaving ?_
      rw [fence, if_neg hread]
      rfl
  | some contents =>
      by_cases hdiscarded : contents.Discarded
      · obtain ⟨count, removed, hremoved, -, hphase⟩ :=
          @exists_run_removed order now file contents bad hdiscarded hepoch
        have hcompletes := (completes_saving hphase).after hremoved
        rcases @load_discarded order _ hdiscarded with hload | ⟨got, want, hload⟩
        · rw [hload]
          exact hcompletes
        · rw [hload]
          exact hcompletes
      · rcases @load_kept order _ hdiscarded with ⟨found, hload⟩ | ⟨errors, hload⟩
        · by_cases hstale : file.leaseEpoch < found.leaseEpoch
          · have hfence : fence order file true (startWrite (some contents) bad) =
                { startWrite (some contents) bad with
                  phase :=
                    .returned (.error (.staleEpoch ⟨found.leaseEpoch, file.leaseEpoch⟩)) } := by
              simp only [fence, if_neg hread, startWrite, hload, if_pos hstale]
            simp only [hload, if_pos hstale]
            exact ⟨1, _, run_fence rfl hfence, rfl, rfl⟩
          · simp only [hload, if_neg hstale]
            refine hsaving ?_
            simp only [fence, if_neg hread, startWrite, hload, if_neg hstale]
        · simp only [hload]
          refine hsaving ?_
          simp only [fence, if_neg hread, startWrite, hload]

/-! ## Stopping anywhere -/

variable (now file) in
/-- The path holds what it held or the whole new document, and no operation that
could remove the file is under way. The temporary file is whole before it is
renamed. -/
structure Undisturbed (before : Disk) (writing : Writing) : Prop where
  path : writing.path = before ∨ writing.path = some (.document (stamped now file))
  phase :
    match writing.phase with
    | .fencing => writing.path = before
    | .quarantine _ _ | .copying _ _ | .closingCopy _ | .removing => False
    | .saving .syncTemp | .saving .closeTemp | .saving .rename =>
        writing.temp = some (.document (stamped now file))
    | .saving _ | .syncingDir | .returned _ => True

theorem Undisturbed.save {before : Disk} {op : SaveOp} {succeeds : Bool}
    (hphase : writing.phase = .saving op) (hundisturbed : Undisturbed now file before writing) :
    Undisturbed now file before (save now file op succeeds writing) := by
  obtain ⟨hpath, htemp⟩ := hundisturbed
  rw [hphase] at htemp
  cases succeeds with
  | false => exact ⟨hpath, trivial⟩
  | true =>
      cases op with
      | marshal | mkdirAll | createTemp => exact ⟨hpath, trivial⟩
      | writeTemp => exact ⟨hpath, rfl⟩
      | syncTemp | closeTemp => exact ⟨hpath, htemp⟩
      | rename => exact ⟨Or.inr htemp, trivial⟩

/-- A file that is kept is left alone by every operation before the rename. -/
theorem Undisturbed.step {before : Disk} {next : Writing} {succeeds : Bool}
    (hkept : file.leaseEpoch = 0 ∨ ∀ contents, before = some contents → ¬ contents.Discarded)
    (hundisturbed : Undisturbed now file before writing)
    (hstep : step order now file succeeds writing = some next) :
    Undisturbed now file before next := by
  obtain ⟨hpath, hat⟩ := hundisturbed
  unfold Snapshot.step at hstep
  cases hphase : writing.phase with
  | fencing =>
      simp only [hphase, Option.some.injEq] at hstep hat
      subst hstep
      rcases hkept with hopen | hkept
      · rw [fence_open (Or.inl hopen)]
        exact ⟨hpath, trivial⟩
      · obtain ⟨phase, hfence, rfl | ⟨error, rfl⟩⟩ :=
          @fence_kept order file writing succeeds (hat ▸ hkept)
        · rw [hfence]
          exact ⟨hpath, trivial⟩
        · rw [hfence]
          exact ⟨hpath, trivial⟩
  | quarantine | copying | closingCopy | removing =>
      rw [hphase] at hat
      exact hat.elim
  | saving op =>
      simp only [hphase, Option.some.injEq] at hstep
      subst hstep
      exact Undisturbed.save hphase ⟨hpath, hat⟩
  | syncingDir =>
      simp only [hphase, Option.some.injEq] at hstep
      subst hstep
      exact ⟨hpath, trivial⟩
  | returned result =>
      rw [hphase] at hstep
      cases hstep

/-- Wherever a write stops, the path holds what it held before or the whole new
document, unless the write is fenced and finds a file that does not parse or has
another version. That file is removed before the new one is there. -/
theorem path_before_or_after_iff (order : RangeOrder) (now : Time) (file : File) (path : Disk)
    (bad : Map Nat Contents) :
    (∀ outcomes writing,
        run (step order now file) outcomes (startWrite path bad) = some writing →
          writing.path = path ∨ writing.path = some (.document (stamped now file))) ↔
      file.leaseEpoch = 0 ∨ ∀ contents, path = some contents → ¬ contents.Discarded := by
  constructor
  · intro halways
    by_contra hfenced
    simp only [not_or, not_forall, not_not] at hfenced
    obtain ⟨hepoch, contents, rfl, hdiscarded⟩ := hfenced
    obtain ⟨count, removed, hrun, hremoved, -⟩ :=
      @exists_run_removed order now file contents bad hdiscarded (Nat.pos_of_ne_zero hepoch)
    rcases halways _ removed hrun with hpath | hpath
    · rw [hremoved] at hpath
      cases hpath
    · rw [hremoved] at hpath
      cases hpath
  · intro hkept outcomes writing hrun
    have hundisturbed : Undisturbed now file path writing :=
      run_invariant (fun _ _ _ hundisturbed hstep => hundisturbed.step hkept hstep)
        ⟨Or.inl rfl, rfl⟩ hrun
    exact hundisturbed.path

/-- A fenced write puts an unparsable file aside and cannot make the directory:
nothing is left under the path. -/
theorem quarantined_then_failed :
    ((run (step .insertion ⟨0, none⟩
          ⟨0, ⟨0, none⟩, [], [], [], ∅, ∅, [], 1⟩)
        [true, true, true, true, true, true, false]
        (startWrite (some (.unparsable (str "not json"))) ∅)).map
      fun writing => (writing.path, writing.phase)) =
      some (none, .returned (.error (.failed .mkdirAll))) := by
  decide

end Outcomes

end TopologyExporter.Snapshot
