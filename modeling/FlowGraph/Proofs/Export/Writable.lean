import FlowGraph.Proofs.Export.NullFree
import FlowGraph.Proofs.FileSystem.Reachable

/-!
# When a graph can be written

Writing a file below a directory that is made for it ends in one of five ways (`Writes`).  Once
no null character is in the path, it succeeds just if the file system has room for the file
(`Writes.written_iff`).  So what a disk does with a path is decided by what `Writable` asks, and
that a write was successful stays true when the file system grows (`Writable.of_hasFile`).
-/

namespace FlowGraph

open FileSystem (Grows Changes Ensures Places)

/-! ## Room for a file -/

namespace FileSystem

variable {p : Path} {fs fs' : FileSystem} {made touched : Location → Prop}

/-- Whether a file can be written at a path, after the directories above it are made. -/
structure Writable (fs : FileSystem) (p : Path) : Prop where
  /-- The path is not too long. -/
  short : byteLength p.text < pathLimit
  /-- There can be a directory at the parent. -/
  parent : fs.Reachable p.parent
  /-- The path ends in a name that is not too long. -/
  name : ∃ part ∈ p.parts.getLast?, part ≠ up ∧ byteLength part ≤ nameLimit
  /-- No directory is in the place of the file. -/
  free : fs.get? (resolve (fs.start p) p.parts) ≠ some .directory
  /-- None has to be made there. -/
  apart : ¬ fs.OnWay p.parent (resolve (fs.start p) p.parts)

/-- In a directory that is there a file can be written just if there is room for it. -/
theorem exists_write_iff (content : List UInt8) (parent : fs.HasDirectory p.parent) :
    (∃ fs', fs.write p content = .ok fs') ↔ fs.Writable p := by
  obtain ⟨l, found, inside⟩ := parent
  have above : fs.follow (fs.start p) p.parts.dropLast = .ok l := (locate_eq_ok.1 found).2
  constructor
  · rintro ⟨fs', written⟩
    rw [write] at written
    split at written
    · cases written
    · cases written
    · next l' part place =>
        split at written
        · cases written
        · next free =>
            obtain ⟨short, -, -, last, notUp, name⟩ := locateNew_eq_some place
            rw [← resolve_of_locateNew place] at free
            have free' : fs.get? (resolve (fs.start p) p.parts) ≠ some .directory := fun dir =>
              free dir
            exact ⟨short, HasDirectory.reachable ⟨l, found, inside⟩, ⟨part, last, notUp, name⟩,
              free', fun onWay => free' (HasDirectory.directory_of_onWay ⟨l, found, inside⟩ onWay)⟩
  · rintro ⟨short, -, ⟨part, last, notUp, name⟩, free, -⟩
    have place : fs.locateNew p = .ok (some (l, part)) := by
      rw [locateNew_of_directory short above inside, Option.mem_def.1 last]
      simp [notUp, Nat.not_lt.2 name]
    rw [resolve_of_locateNew place] at free
    rw [write, place]
    simp only
    exact ⟨_, rfl⟩

/-- A file that could be written when the file system has grown could be written before. -/
theorem Writable.of_grows (h : fs'.Writable p) (grows : Grows touched fs fs')
    (start : fs.get? (fs.start p) = some .directory) : fs.Writable p where
  short := h.short
  parent := h.parent.of_grows grows start
  name := h.name
  free := by
    have free := h.free
    rw [grows.start_eq] at free
    exact fun dir => free (grows.directory _ dir)
  apart := by
    have apart := h.apart
    rw [OnWay, grows.start_eq, grows.start_eq] at apart
    exact apart

/-- New directories away from the file and new files away from its directory do not matter. -/
theorem Writable.of_changes (h : fs.Writable p) (changes : Changes made touched fs fs')
    (place : ¬ made (resolve (fs.start p) p.parts))
    (way : ∀ l, fs.OnWay p.parent l → ¬ touched l) : fs'.Writable p where
  short := h.short
  parent := h.parent.of_changes changes way
  name := h.name
  free := by
    rw [changes.grows.start_eq]
    intro dir
    rcases changes.entry (resolve (fs.start p) p.parts) with same | ⟨new, -⟩ | ⟨-, -, c, file⟩
    · exact h.free (same ▸ dir)
    · exact place new
    · rw [dir] at file
      cases file
  apart := by
    rw [OnWay, changes.grows.start_eq, changes.grows.start_eq]
    exact h.apart

/-- Where there is the file, there is room for it. -/
theorem Writable.of_hasFile {l : Location} (h : fs.Writable p) (grows : Grows touched fs fs')
    (found : fs'.locate p = .ok l) (file : fs'.HasFile l) : fs'.Writable p where
  short := h.short
  parent := by
    obtain ⟨part, last, notUp, -⟩ := h.name
    obtain ⟨short, found⟩ := locate_eq_ok.1 found
    rw [← List.dropLast_append_getLast? part last] at found
    obtain ⟨dir, above, below⟩ := follow_append.1 found
    exact HasDirectory.reachable ⟨dir, locate_eq_ok.2 ⟨byteLength_text_parent short, above⟩,
      (follow_cons.1 below).1⟩
  name := h.name
  free := by
    obtain ⟨c, holds⟩ := file
    rw [← eq_resolve_of_follow (locate_eq_ok.1 found).2, holds]
    simp
  apart := by
    rw [OnWay, grows.start_eq, grows.start_eq]
    exact h.apart

end FileSystem

/-! ## Writing below a directory -/

variable {path : Path} {content : List UInt8} {fs fs' : FileSystem} {outcome : Outcome}

/-- How writing a file below a directory that is made for it ends. -/
inductive Writes (path : Path) (content : List UInt8) (fs : FileSystem) :
    FileSystem → Outcome → Prop where
  /-- The directory has a null character. -/
  | nullAbove (null : path.parent.hasNull = true) :
      Writes path content fs fs (.blocked .nullCharacter)
  /-- The directory cannot be made. -/
  | noDirectory {fs' : FileSystem} {e : DiskError} (plain : path.parent.hasNull = false)
      (parent : Ensures path.parent fs fs' (.error e)) : Writes path content fs fs' (.failed e)
  /-- The name of the file has a null character. -/
  | null {fs' : FileSystem} (plain : path.parent.hasNull = false)
      (parent : Ensures path.parent fs fs' (.ok ())) (null : path.hasNull = true) :
      Writes path content fs fs' (.blocked .nullCharacter)
  /-- The file cannot be written. -/
  | refused {fs' : FileSystem} {e : DiskError} (plain : path.hasNull = false)
      (parent : Ensures path.parent fs fs' (.ok ()))
      (failed : fs'.write path content = .error e) : Writes path content fs fs' (.failed e)
  /-- The file is written. -/
  | written {fs₁ fs' : FileSystem} (plain : path.hasNull = false)
      (parent : Ensures path.parent fs fs₁ (.ok ()))
      (done : fs₁.write path content = .ok fs') : Writes path content fs fs' (.written path)

theorem writes_of_writeBelow
    (ran : writeBelow FileSystem.disk path content fs = (outcome, fs')) :
    Writes path content fs fs' outcome := by
  rw [writeBelow] at ran
  split at ran
  · next null =>
      cases ran
      exact .nullAbove null
  · next plain =>
      replace plain := Bool.not_eq_true _ ▸ plain
      obtain ⟨made, fs₁, effort, rest⟩ := exists_of_bind ran
      have parent := FileSystem.ensures_of_ensureDirectories effort
      split at rest
      · cases rest
        exact .noDirectory plain parent
      · split at rest
        · next null =>
            cases rest
            exact .null plain parent null
        · next plain' =>
            replace plain' := Bool.not_eq_true _ ▸ plain'
            obtain ⟨result, fs₂, attempt, ended⟩ := exists_of_bind rest
            rcases FileSystem.disk_write_eq attempt with ⟨done, rfl⟩ | ⟨e, failed, rfl, rfl⟩
            · cases ended
              exact .written plain' parent done
            · cases ended
              exact .refused plain' parent failed

namespace Writes

open FileSystem

variable {made : Location → Prop}

/-- Writing a file puts directories on the way to its directory, and the file at its place. -/
theorem changes (h : Writes path content fs fs' outcome) :
    Changes (fs.OnWay path.parent) (· = resolve (fs.start path) path.parts) fs fs' := by
  cases h with
  | nullAbove null => exact .refl fs
  | noDirectory plain parent => exact parent.changes
  | null plain parent null => exact parent.changes
  | refused plain parent failed => exact parent.changes
  | @written fs₁ fs' plain parent done =>
      have first : Changes (fs.OnWay path.parent) (· = resolve (fs.start path) path.parts) fs fs₁ :=
        parent.changes
      have second : Changes (fs.OnWay path.parent) _ fs₁ fs' := write_changes done
      rw [first.grows.start_eq] at second
      exact first.trans second

/-- A file that could not be written has not been touched. -/
theorem grows_of_ne_written (h : Writes path content fs fs' outcome)
    (other : outcome ≠ .written path) : Grows (fun _ => False) fs fs' := by
  cases h with
  | nullAbove null => exact .refl fs
  | noDirectory plain parent => exact (parent.changes).grows
  | null plain parent null => exact (parent.changes).grows
  | refused plain parent failed => exact (parent.changes).grows
  | written plain parent done => exact absurd rfl other

/-- A file that was written is at its place. -/
theorem places (h : Writes path content fs fs' (.written path)) : Places path content fs fs' := by
  cases h with
  | written plain parent done =>
      have grown : Grows (fun _ => False) fs _ := parent.changes.grows
      obtain ⟨l, found, holds, grows⟩ := write_places done
      exact ⟨l, found, holds, (grown.mono fun _ => False.elim).trans_same grows⟩

/-- A directory with a null character is an obstacle. -/
theorem eq_of_nullAbove (h : Writes path content fs fs' outcome)
    (null : path.parent.hasNull = true) : outcome = .blocked .nullCharacter := by
  cases h with
  | nullAbove null => rfl
  | noDirectory plain parent => simp [null] at plain
  | null plain parent null' => simp [null] at plain
  | refused plain parent failed => simp [Path.hasNull_parent plain] at null
  | written plain parent done => simp [Path.hasNull_parent plain] at null

/-- Without null characters writing a file succeeds or fails. -/
theorem failed_or_written (h : Writes path content fs fs' outcome) (plain : path.hasNull = false) :
    (∃ e, outcome = .failed e) ∨ outcome = .written path := by
  cases h with
  | nullAbove null =>
      rw [Path.hasNull_parent plain] at null
      cases null
  | noDirectory plain' parent => exact .inl ⟨_, rfl⟩
  | null plain' parent null =>
      rw [plain] at null
      cases null
  | refused plain' parent failed => exact .inl ⟨_, rfl⟩
  | written plain' parent done => exact .inr rfl

/-- A file is written just if there is room for it. -/
theorem written_iff (h : Writes path content fs fs' outcome) (plain : path.hasNull = false)
    (anchored : up ∈ path.parent.parts → fs.Anchored (fs.start path)) :
    outcome = .written path ↔ fs.Writable path := by
  have made : ∀ {fs₁}, Ensures path.parent fs fs₁ (.ok ()) →
      (fs₁.Writable path ↔ fs.Writable path) := by
    intro fs₁ parent
    have changes : Changes (fs.OnWay path.parent) (fun _ => False) fs fs₁ := parent.changes
    exact ⟨fun h => h.of_grows changes.grows parent.start,
      fun h => h.of_changes changes h.apart fun _ _ => id⟩
  cases h with
  | nullAbove null =>
      rw [Path.hasNull_parent plain] at null
      cases null
  | noDirectory plain' parent =>
      have failed := mt (parent.ok_iff anchored).2 (by simp)
      exact ⟨by simp, fun h => absurd h.parent failed⟩
  | null plain' parent null =>
      rw [plain] at null
      cases null
  | refused plain' parent failed =>
      rw [← made parent, ← exists_write_iff content parent.hasDirectory, failed]
      simp
  | written plain' parent done =>
      rw [← made parent, ← exists_write_iff content parent.hasDirectory]
      exact ⟨fun _ => ⟨_, done⟩, fun _ => rfl⟩

end Writes

end FlowGraph
