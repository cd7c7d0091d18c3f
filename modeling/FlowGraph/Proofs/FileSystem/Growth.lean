import FlowGraph.Proofs.FileSystem.Location

/-!
# How a file system grows

The operations of a disk add to a file system and take nothing from it.  `Grows touched fs fs'`
says that directories stay directories, that files stay files, and that outside the touched
locations the files are the same before and after.  `Changes made touched fs fs'` says more:
what is new is a directory at one of the locations made or a file at one touched.

A path that leads somewhere still leads there when the file system has grown
(`Grows.locate`).  So a file that was written at a path (`write_places`) can be read there as
long as its location is not touched again.
-/

namespace FlowGraph.FileSystem

variable {fs : FileSystem}

/-! ## Growing -/

/-- Whether a file system has grown into another and files are the same but at some
locations. -/
structure Grows (touched : Location → Prop) (fs fs' : FileSystem) : Prop where
  /-- The working directory is the same. -/
  working_eq : fs'.working = fs.working
  /-- Directories stay directories. -/
  directory : ∀ l, fs.get? l = some .directory → fs'.get? l = some .directory
  /-- Files stay files. -/
  isFile : ∀ l c, fs.get? l = some (.file c) → ∃ c', fs'.get? l = some (.file c')
  /-- At other locations the files are the same. -/
  file_iff : ∀ l c, ¬ touched l → (fs'.get? l = some (.file c) ↔ fs.get? l = some (.file c))

namespace Grows

variable {touched touched' : Location → Prop} {fs' fs'' : FileSystem}

theorem refl (fs : FileSystem) : Grows touched fs fs where
  working_eq := rfl
  directory := fun _ h => h
  isFile := fun _ c h => ⟨c, h⟩
  file_iff := fun _ _ _ => .rfl

theorem trans (h : Grows touched fs fs') (h' : Grows touched' fs' fs'') :
    Grows (fun l => touched l ∨ touched' l) fs fs'' where
  working_eq := h'.working_eq.trans h.working_eq
  directory := fun l here => h'.directory l (h.directory l here)
  isFile := by
    intro l c here
    obtain ⟨c', here'⟩ := h.isFile l c here
    exact h'.isFile l c' here'
  file_iff := by
    intro l c untouched
    obtain ⟨first, second⟩ := not_or.1 untouched
    exact (h'.file_iff l c second).trans (h.file_iff l c first)

theorem mono (h : Grows touched fs fs') (sub : ∀ l, touched l → touched' l) :
    Grows touched' fs fs' :=
  { h with file_iff := fun l c untouched => h.file_iff l c (mt (sub l) untouched) }

/-- Steps that touch no more than the same locations. -/
theorem trans_same (h : Grows touched fs fs') (h' : Grows touched fs' fs'') :
    Grows touched fs fs'' := (h.trans h').mono fun _ touched => touched.elim id id

/-- What is at a location stays there, if not with the same content. -/
theorem isSome (h : Grows touched fs fs') {l : Location} {e : Entry} (here : fs.get? l = some e) :
    ∃ e', fs'.get? l = some e' := by
  cases e with
  | directory => exact ⟨_, h.directory l here⟩
  | file c =>
      obtain ⟨c', here'⟩ := h.isFile l c here
      exact ⟨_, here'⟩

/-- A path starts where it did. -/
theorem start_eq (h : Grows touched fs fs') (p : Path) : fs'.start p = fs.start p := by
  simp only [FileSystem.start, h.working_eq]

/-- A path that leads somewhere leads there still. -/
theorem follow (h : Grows touched fs fs') {here l : Location} {parts : List Text}
    (found : fs.follow here parts = .ok l) : fs'.follow here parts = .ok l := by
  induction parts generalizing here with
  | nil => exact found
  | cons part rest ih =>
      obtain ⟨inside, step⟩ := follow_cons.1 found
      refine follow_cons.2 ⟨h.directory here inside, ?_⟩
      rcases step with ⟨isUp, found⟩ | ⟨notUp, short, e, below, found⟩
      · exact .inl ⟨isUp, ih found⟩
      · obtain ⟨e', below'⟩ := h.isSome below
        exact .inr ⟨notUp, short, e', below', ih found⟩

/-- A path that leads somewhere leads there still. -/
theorem locate (h : Grows touched fs fs') {p : Path} {l : Location}
    (found : fs.locate p = .ok l) : fs'.locate p = .ok l := by
  obtain ⟨short, found⟩ := locate_eq_ok.1 found
  exact locate_eq_ok.2 ⟨short, h.start_eq p ▸ h.follow found⟩

theorem anchored (h : Grows touched fs fs') {here : Location} (above : fs.Anchored here) :
    fs'.Anchored here := fun l hl other => h.directory l (above l hl other)

end Grows

/-! ## What is new -/

/-- Whether a file system comes from another by new directories at some locations and by files
written at some. -/
structure Changes (made touched : Location → Prop) (fs fs' : FileSystem) : Prop where
  /-- The working directory is the same. -/
  working_eq : fs'.working = fs.working
  /-- What is at a location is the same, or a new directory, or a file in the place of none or
  of another one. -/
  entry : ∀ l, fs'.get? l = fs.get? l ∨
    made l ∧ fs.get? l = none ∧ fs'.get? l = some .directory ∨
    touched l ∧ fs.get? l ≠ some .directory ∧ fs'.HasFile l

namespace Changes

variable {made made' touched touched' : Location → Prop} {fs' fs'' : FileSystem}

theorem refl (fs : FileSystem) : Changes made touched fs fs := ⟨rfl, fun _ => .inl rfl⟩

theorem mono (h : Changes made touched fs fs') (sub : ∀ l, made l → made' l)
    (sub' : ∀ l, touched l → touched' l) : Changes made' touched' fs fs' where
  working_eq := h.working_eq
  entry := fun l => (h.entry l).imp_right
    (.imp (.imp_left (sub l)) (.imp_left (sub' l)))

theorem trans (h : Changes made touched fs fs') (h' : Changes made touched fs' fs'') :
    Changes made touched fs fs'' where
  working_eq := h'.working_eq.trans h.working_eq
  entry := by
    intro l
    rcases h'.entry l with same' | ⟨hm', none, new⟩ | ⟨ht', free, file⟩
    · rw [same', HasFile, same']
      exact h.entry l
    · rcases h.entry l with same | ⟨-, -, new'⟩ | ⟨-, -, c, file⟩
      · exact .inr (.inl ⟨hm', same ▸ none, new⟩)
      · rw [none] at new'
        cases new'
      · rw [none] at file
        cases file
    · rcases h.entry l with same | ⟨-, -, new⟩ | ⟨-, free', -⟩
      · exact .inr (.inr ⟨ht', same ▸ free, file⟩)
      · exact absurd new free
      · exact .inr (.inr ⟨ht', free', file⟩)

/-- New directories and written files are growth. -/
theorem grows (h : Changes made touched fs fs') : Grows touched fs fs' where
  working_eq := h.working_eq
  directory := by
    intro l here
    rcases h.entry l with same | ⟨-, none, -⟩ | ⟨-, free, -⟩
    · rw [same, here]
    · rw [here] at none
      cases none
    · exact absurd here free
  isFile := by
    intro l c here
    rcases h.entry l with same | ⟨-, none, -⟩ | ⟨-, -, file⟩
    · exact ⟨c, same.trans here⟩
    · rw [here] at none
      cases none
    · exact file
  file_iff := by
    intro l c untouched
    rcases h.entry l with same | ⟨-, none, new⟩ | ⟨ht, -, -⟩
    · rw [same]
    · simp [none, new]
    · exact absurd ht untouched

theorem put_directory {l : Location} (hl : l ≠ []) (none : fs.get? l = none) :
    Changes (· = l) touched fs (fs.put l .directory) where
  working_eq := rfl
  entry := by
    intro k
    rw [get?_put hl]
    split
    · next same => exact .inr (.inl ⟨same, same ▸ none, rfl⟩)
    · exact .inl rfl

theorem put_file {l : Location} {content : List UInt8} (hl : l ≠ [])
    (free : fs.get? l ≠ some .directory) :
    Changes made (· = l) fs (fs.put l (.file content)) where
  working_eq := rfl
  entry := by
    intro k
    rw [HasFile, get?_put hl]
    split
    · next same => exact .inr (.inr ⟨same, same ▸ free, content, rfl⟩)
    · exact .inl rfl

end Changes

/-! ## Operations -/

variable {fs' : FileSystem} {made touched : Location → Prop} {p : Path}

/-- A path leads to the entry that is put at its place. -/
theorem locate_put {l : Location} {part : Text} {e : Entry}
    (place : fs.locateNew p = .ok (some (l, part)))
    (grows : Grows touched fs (fs.put (l ++ [part]) e)) :
    (fs.put (l ++ [part]) e).locate p = .ok (l ++ [part]) ∧
      (fs.put (l ++ [part]) e).get? (l ++ [part]) = some e := by
  obtain ⟨short, dir, inside, last, notUp, name⟩ := locateNew_eq_some place
  have new : (fs.put (l ++ [part]) e).get? (l ++ [part]) = some e := by
    rw [get?_put (by simp), if_pos rfl]
  refine ⟨locate_eq_ok.2 ⟨short, ?_⟩, new⟩
  rw [← List.dropLast_append_getLast? part last]
  exact follow_append.2 ⟨l, grows.follow dir, (follow_singleton notUp).2
    ⟨rfl, grows.directory l inside, name, _, new⟩⟩

/-- The place for a new entry is the location of the path. -/
theorem resolve_of_locateNew {l : Location} {part : Text}
    (place : fs.locateNew p = .ok (some (l, part))) :
    resolve (fs.start p) p.parts = l ++ [part] := by
  obtain ⟨-, dir, -, last, notUp, -⟩ := locateNew_eq_some place
  rw [resolve_of_getLast? last notUp, ← eq_resolve_of_follow dir]

/-- A new directory is at the end of the way to its path. -/
theorem makeDirectory_changes (done : fs.makeDirectory p = .ok fs') :
    Changes (fs.OnWay p) touched fs fs' := by
  rw [makeDirectory] at done
  split at done
  · cases done
  · cases done
  · next l part place =>
      split at done
      · cases done
      · next free =>
          cases done
          have nonempty : p.parts ≠ [] := by
            obtain ⟨-, -, -, last, -⟩ := locateNew_eq_some place
            rintro none
            simp [none] at last
          refine (Changes.put_directory (by simp) free).mono ?_ fun _ h => h
          rintro k rfl
          exact ⟨p.parts, nonempty, List.prefix_refl _, (resolve_of_locateNew place).symm⟩

theorem makeDirectory_hasDirectory (done : fs.makeDirectory p = .ok fs') :
    fs'.HasDirectory p := by
  have grows : Grows (fun _ => False) fs fs' := (makeDirectory_changes done).grows
  rw [makeDirectory] at done
  split at done
  · cases done
  · cases done
  · next l part place =>
      split at done
      · cases done
      · cases done
        exact ⟨_, locate_put place grows⟩

/-- A file that is written is at the location of its path. -/
theorem write_changes {content : List UInt8} (written : fs.write p content = .ok fs') :
    Changes made (· = resolve (fs.start p) p.parts) fs fs' := by
  rw [write] at written
  split at written
  · cases written
  · cases written
  · next l part place =>
      split at written
      · cases written
      · next free =>
          cases written
          rw [resolve_of_locateNew place]
          exact .put_file (by simp) free

/-- Whether a file has been put at a path between two file systems, and no other has been
touched. -/
def Places (p : Path) (content : List UInt8) (fs fs' : FileSystem) : Prop :=
  ∃ l, fs'.locate p = .ok l ∧ fs'.get? l = some (.file content) ∧ Grows (· = l) fs fs'

theorem write_places {content : List UInt8} (written : fs.write p content = .ok fs') :
    Places p content fs fs' := by
  have changes : Changes (fun _ => False) _ fs fs' := write_changes written
  rw [write] at written
  split at written
  · cases written
  · cases written
  · next l part place =>
      split at written
      · cases written
      · cases written
        have grows := changes.grows
        rw [resolve_of_locateNew place] at grows
        obtain ⟨found, new⟩ := locate_put place grows
        exact ⟨_, found, new, grows⟩

/-- A file that was put at a path is at the location of the path. -/
theorem Places.at_resolve {content : List UInt8} (h : Places p content fs fs') :
    fs'.locate p = .ok (resolve (fs.start p) p.parts) ∧
      fs'.get? (resolve (fs.start p) p.parts) = some (.file content) ∧
      Grows (· = resolve (fs.start p) p.parts) fs fs' := by
  obtain ⟨l, found, holds, grows⟩ := h
  have place : l = resolve (fs.start p) p.parts := by
    rw [← grows.start_eq]
    exact eq_resolve_of_follow (locate_eq_ok.1 found).2
  exact place ▸ ⟨found, holds, grows⟩

theorem exists_of_read {content : List UInt8} (taken : fs.read p = .ok content) :
    ∃ l, fs.locate p = .ok l ∧ fs.get? l = some (.file content) := by
  rw [read] at taken
  split at taken
  · cases taken
  · next l found =>
      split at taken
      · cases taken
      · cases taken
      · next holds =>
          cases taken
          exact ⟨l, found, holds⟩

theorem read_of_locate {content : List UInt8} {l : Location} (found : fs.locate p = .ok l)
    (holds : fs.get? l = some (.file content)) : fs.read p = .ok content := by
  rw [read, found]
  simp only [holds]

end FlowGraph.FileSystem
