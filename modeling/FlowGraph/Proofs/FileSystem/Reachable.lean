import FlowGraph.Proofs.FileSystem.Ensured

/-!
# When directories can be made

A directory can be made at a path, with those above it, just if there can be one:
`Ensures.ok_iff` says that what stands against it is a path or a component that is
too long, a file on the way, or a path that starts nowhere.  Other directories neither help nor
hinder.  A file system that grows never becomes easier to pass (`Reachable.of_grows`).

Components that lead up are followed from what was made for the components before them.  For
these, everything above the start of the path has to be a directory (`Anchored`).
-/

namespace FlowGraph.FileSystem

variable {p : Path} {fs fs₁ fs' : FileSystem} {here l : Location} {parts : List Text}
  {made touched : Location → Prop} {result : Except DiskError Unit}

/-! ## Components that can be passed -/

/-- Whether nothing stands in the way along some components. -/
structure Passable (fs : FileSystem) (here : Location) (parts : List Text) : Prop where
  /-- No component is too long. -/
  short : ∀ part ∈ parts, byteLength part ≤ nameLimit
  /-- No file is on the way. -/
  free : ∀ before, before <+: parts → ¬ fs.HasFile (resolve here before)

theorem Passable.of_prefix {before : List Text} (h : fs.Passable here parts)
    (sub : before <+: parts) : fs.Passable here before where
  short := fun part mem => h.short part (sub.subset mem)
  free := fun before' h' => h.free before' (h'.trans sub)

/-- What leads to a directory can be passed. -/
theorem passable_of_follow (found : fs.follow here parts = .ok l)
    (inside : fs.get? l = some .directory) : fs.Passable here parts where
  short := fun _ mem => short_of_follow found mem
  free := by
    rintro before h ⟨c, file⟩
    rw [directory_of_beginning found inside h] at file
    cases file

/-- Where nothing is in the way, components lead to a directory unless something is missing. -/
theorem Passable.follow (h : fs.Passable here parts) :
    (∃ l, fs.follow here parts = .ok l ∧ fs.get? l = some .directory) ∨
    fs.follow here parts = .error .noSuchFile ∨
    ∃ l, fs.follow here parts = .ok l ∧ fs.get? l = none := by
  induction parts generalizing here with
  | nil =>
      cases there : fs.get? here with
      | none => exact .inr (.inr ⟨here, rfl, there⟩)
      | some e =>
          cases e with
          | file c => exact absurd ⟨c, there⟩ (h.free [] List.nil_prefix)
          | directory => exact .inl ⟨here, rfl, there⟩
  | cons part rest ih =>
      have later : fs.Passable (resolve here [part]) rest := by
        refine ⟨fun part' mem => h.short part' (List.mem_cons_of_mem _ mem), fun before hb => ?_⟩
        rw [← resolve_append]
        exact h.free _ ((List.prefix_cons_inj part).2 hb)
      rw [FileSystem.follow]
      cases there : fs.get? here with
      | none => exact .inr (.inl rfl)
      | some e =>
          cases e with
          | file c => exact absurd ⟨c, there⟩ (h.free [] List.nil_prefix)
          | directory =>
              by_cases isUp : part = up
              · rw [resolve, if_pos isUp] at later
                simp only [isUp, if_true]
                exact ih later
              · rw [resolve, if_neg isUp] at later
                have short := h.short part List.mem_cons_self
                simp only [isUp, if_false, Nat.not_lt.2 short]
                cases fs.get? (here ++ [part]) with
                | none => exact .inr (.inl rfl)
                | some e => exact ih later

/-! ## Paths at which a directory can be -/

/-- Whether there can be a directory at a path. -/
structure Reachable (fs : FileSystem) (p : Path) : Prop where
  /-- The path is not too long. -/
  short : byteLength p.text < pathLimit
  /-- It starts in a directory. -/
  start : fs.get? (fs.start p) = some .directory
  /-- Nothing is in the way. -/
  passable : fs.Passable (fs.start p) p.parts

theorem HasDirectory.reachable (h : fs.HasDirectory p) : fs.Reachable p := by
  obtain ⟨l, found, inside⟩ := h
  obtain ⟨short, found⟩ := locate_eq_ok.1 found
  exact ⟨short, directory_of_follow found inside, passable_of_follow found inside⟩

theorem Reachable.parent (h : fs.Reachable p) : fs.Reachable p.parent where
  short := byteLength_text_parent h.short
  start := h.start
  passable := h.passable.of_prefix (List.dropLast_prefix _)

/-- A directory that could be at a path when the file system has grown could be there before. -/
theorem Reachable.of_grows (h : fs'.Reachable p) (grows : Grows touched fs fs')
    (start : fs.get? (fs.start p) = some .directory) : fs.Reachable p where
  short := h.short
  start := start
  passable := by
    have passable := h.passable
    rw [grows.start_eq] at passable
    refine ⟨passable.short, fun before hb ⟨c, file⟩ => ?_⟩
    exact passable.free before hb (grows.isFile _ c file)

/-- New directories, and files that are not on the way, do not matter. -/
theorem Reachable.of_changes (h : fs.Reachable p) (changes : Changes made touched fs fs')
    (apart : ∀ l, fs.OnWay p l → ¬ touched l) : fs'.Reachable p where
  short := h.short
  start := by
    rw [changes.grows.start_eq]
    exact changes.grows.directory _ h.start
  passable := by
    rw [changes.grows.start_eq]
    refine ⟨h.passable.short, fun before hb ⟨c, file⟩ => ?_⟩
    by_cases start : before = []
    · rw [start, resolve, changes.grows.directory _ h.start] at file
      cases file
    · refine h.passable.free before hb ⟨c, ?_⟩
      exact (changes.grows.file_iff _ c (apart _ ⟨before, start, hb, rfl⟩)).1 file

/-! ## Making directories -/

theorem makeDirectory_of_parent {e : DiskError} (parent : fs.HasDirectory p.parent)
    (failed : fs.makeDirectory p = .error e) : e.failure ≠ .noSuchFile := by
  obtain ⟨l, found, inside⟩ := parent
  have above : fs.follow (fs.start p) p.parts.dropLast = .ok l := (locate_eq_ok.1 found).2
  rw [makeDirectory] at failed
  by_cases short : byteLength p.text < pathLimit
  · rw [locateNew_of_directory short above inside] at failed
    split at failed
    · next e' place =>
        cases failed
        split at place
        · cases place
        · split at place
          · cases place
          · split at place
            · cases place
              simp
            · cases place
    · cases failed
      simp
    · split at failed
      · cases failed
        simp
      · cases failed
  · rw [locateNew, if_pos (Nat.le_of_not_lt short)] at failed
    cases failed
    simp

theorem Reachable.hasDirectory_top (h : fs.Reachable p) (top : p.parts = []) :
    fs.HasDirectory p := by
  refine ⟨fs.start p, locate_eq_ok.2 ⟨h.short, ?_⟩, h.start⟩
  rw [top]
  rfl

/-- Where a directory can be, it is missing only as long as its parent is. -/
theorem Reachable.hasDirectory {e : DiskError} (h : fs.Reachable p)
    (anchored : up ∈ p.parts → fs.Anchored (fs.start p))
    (failed : fs.makeDirectory p = .error e) (other : e.failure ≠ .noSuchFile) :
    fs.HasDirectory p := by
  rw [makeDirectory] at failed
  rcases h.parent.passable.follow with ⟨l, found, inside⟩ | missing | ⟨l, found, missing⟩
  · replace found : fs.follow (fs.start p) p.parts.dropLast = .ok l := found
    rw [locateNew_of_directory h.short found inside] at failed
    cases last : p.parts.getLast? with
    | none => exact h.hasDirectory_top (List.getLast?_eq_none_iff.1 last)
    | some part =>
        have split := List.dropLast_append_getLast? part last
        by_cases isUp : part = up
        · refine ⟨l.dropLast, locate_eq_ok.2 ⟨h.short, ?_⟩, ?_⟩
          · rw [← split]
            exact follow_append.2 ⟨l, found, follow_cons.2 ⟨inside, .inl ⟨isUp, rfl⟩⟩⟩
          · have mem : up ∈ p.parts := isUp ▸ List.mem_of_getLast? last
            exact ((anchored mem).follow found).directory_dropLast inside
        · have short := h.passable.short part (List.mem_of_getLast? last)
          have at_ : resolve (fs.start p) p.parts = l ++ [part] := by
            rw [resolve_of_getLast? last isUp, ← eq_resolve_of_follow found]
          simp only [last, isUp, if_false, Nat.not_lt.2 short] at failed
          cases there : fs.get? (l ++ [part]) with
          | none => simp [there] at failed
          | some e =>
              cases e with
              | file c =>
                  refine absurd ⟨c, ?_⟩ (h.passable.free p.parts (List.prefix_refl _))
                  rw [at_, there]
              | directory =>
                  refine ⟨l ++ [part], locate_eq_ok.2 ⟨h.short, ?_⟩, there⟩
                  rw [← split]
                  exact follow_append.2 ⟨l, found, (follow_singleton isUp).2
                    ⟨rfl, inside, short, _, there⟩⟩
  · replace missing : fs.follow (fs.start p) p.parts.dropLast = .error .noSuchFile := missing
    rw [locateNew, if_neg (Nat.not_le.2 h.short), missing] at failed
    cases failed
    exact absurd rfl other
  · replace found : fs.follow (fs.start p) p.parts.dropLast = .ok l := found
    rw [locateNew, if_neg (Nat.not_le.2 h.short), found] at failed
    simp only [missing] at failed
    cases failed
    exact absurd rfl other

theorem Attempts.start (attempt : Attempts p fs fs' (.ok ())) :
    fs.get? (fs.start p) = some .directory := by
  cases attempt with
  | made done =>
      rw [makeDirectory] at done
      split at done
      · cases done
      · cases done
      · next l part place =>
          obtain ⟨-, dir, inside, -⟩ := locateNew_eq_some place
          exact directory_of_follow dir inside
  | present there => exact there.reachable.start

theorem Ensures.start (h : Ensures p fs fs' (.ok ())) : fs.get? (fs.start p) = some .directory := by
  generalize same : (.ok () : Except DiskError Unit) = result at h
  induction h with
  | once attempt last =>
      cases same
      exact attempt.start
  | givenUp parent ih => cases same
  | again parent attempt ih => exact ih rfl

theorem Attempts.ok_of_reachable (attempt : Attempts p fs fs' result)
    (reachable : fs.Reachable p) (anchored : up ∈ p.parts → fs.Anchored (fs.start p))
    (parent : fs.HasDirectory p.parent) : result = .ok () := by
  cases attempt with
  | made done => rfl
  | present there => rfl
  | refused failed absent =>
      have other := makeDirectory_of_parent parent failed
      exact absurd (reachable.hasDirectory anchored failed other) (absent other)

theorem Ensures.ok_of_reachable (h : Ensures p fs fs' result) (reachable : fs.Reachable p)
    (anchored : up ∈ p.parts → fs.Anchored (fs.start p)) : result = .ok () := by
  induction h with
  | once attempt last =>
      cases attempt with
      | made done => rfl
      | present there => rfl
      | @refused e _ failed absent =>
          by_cases missing : e.failure = .noSuchFile
          · have parent := (reachable.hasDirectory_top (last e failed missing)).parent
            exact absurd missing (makeDirectory_of_parent parent failed)
          · exact absurd (reachable.hasDirectory anchored failed missing) (absent missing)
  | givenUp parent ih =>
      exact ih reachable.parent fun mem => anchored ((List.dropLast_prefix _).subset mem)
  | @again p fs fs₁ fs' result parent attempt ih =>
      have changes : Changes (fs.OnWay p.parent) (fun _ => False) fs fs₁ := parent.changes
      refine attempt.ok_of_reachable (reachable.of_changes changes fun _ _ => id) (fun mem => ?_)
        parent.hasDirectory
      rw [changes.grows.start_eq]
      exact changes.grows.anchored (anchored mem)

/-- A directory can be made at a path, with those above it, just if there can be one. -/
theorem Ensures.ok_iff (h : Ensures p fs fs' result)
    (anchored : up ∈ p.parts → fs.Anchored (fs.start p)) :
    result = .ok () ↔ fs.Reachable p := by
  refine ⟨?_, fun reachable => h.ok_of_reachable reachable anchored⟩
  rintro rfl
  have changes : Changes (fs.OnWay p) (fun _ => False) fs fs' := h.changes
  exact h.hasDirectory.reachable.of_grows changes.grows h.start

end FlowGraph.FileSystem
