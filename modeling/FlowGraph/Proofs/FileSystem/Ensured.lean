import FlowGraph.Proofs.FileSystem.Growth

/-!
# Making directories

How the directory at a path comes to be there, with those above it: `Attempts` is one attempt
to make it, and `Ensures` the whole effort, which goes up the path for as long as something is
missing and then down again.  Whatever happens, only directories on the path are new
(`Ensures.changes`), and after a success there is one at the path (`Ensures.hasDirectory`).
-/

namespace FlowGraph

/-- An action that goes on after another passes through a state in between. -/
theorem exists_of_bind {σ α β : Type} {action : StateM σ α} {next : α → StateM σ β} {s s' : σ}
    {b : β} (ran : (action >>= next) s = (b, s')) :
    ∃ a s₁, action s = (a, s₁) ∧ next a s₁ = (b, s') :=
  ⟨(action s).1, (action s).2, rfl, ran⟩

/-- An action goes on with what the one before it gives. -/
theorem bind_eq_of {σ α β : Type} {action : StateM σ α} {next : α → StateM σ β} {s s₁ : σ} {a : α}
    (ran : action s = (a, s₁)) : (action >>= next) s = next a s₁ := by
  show next (action s).1 (action s).2 = next a s₁
  rw [ran]

namespace FileSystem

variable {p : Path} {fs fs₁ fs' : FileSystem} {result : Except DiskError Unit}

/-! ## One attempt -/

theorem isDirectory_eq_true : fs.isDirectory p = .ok true ↔ fs.HasDirectory p := by
  rw [isDirectory, HasDirectory]
  cases fs.locate p with
  | error e => cases e <;> simp
  | ok l => simp

/-- How one attempt to make a directory ends. -/
inductive Attempts (p : Path) (fs : FileSystem) :
    FileSystem → Except DiskError Unit → Prop where
  /-- The directory is new. -/
  | made {fs' : FileSystem} (done : fs.makeDirectory p = .ok fs') : Attempts p fs fs' (.ok ())
  /-- It has been there before. -/
  | present (there : fs.HasDirectory p) : Attempts p fs fs (.ok ())
  /-- It cannot be made.  If nothing is missing on the way it is not there either. -/
  | refused {e e' : DiskError} (failed : fs.makeDirectory p = .error e)
      (absent : e.failure ≠ .noSuchFile → ¬ fs.HasDirectory p) : Attempts p fs fs (.error e')

theorem change_eq {op : FileSystem → Except DiskError FileSystem}
    (ran : change op fs = (result, fs')) :
    (op fs = .ok fs' ∧ result = .ok ()) ∨ ∃ e, op fs = .error e ∧ result = .error e ∧ fs' = fs := by
  rw [change] at ran
  split at ran
  · next done =>
      cases ran
      exact .inl ⟨done, rfl⟩
  · next e failed =>
      cases ran
      exact .inr ⟨e, failed, rfl, rfl⟩

theorem disk_read_iff {taken : Except DiskError (List UInt8)} :
    disk.read p fs = (taken, fs') ↔ fs.read p = taken ∧ fs = fs' := Prod.mk.injEq .. ▸ .rfl

theorem disk_makeDirectory_eq (ran : disk.makeDirectory p fs = (result, fs')) :
    (fs.makeDirectory p = .ok fs' ∧ result = .ok ()) ∨
      ∃ e, fs.makeDirectory p = .error e ∧ result = .error e ∧ fs' = fs := by
  replace ran : change (fun fs => fs.makeDirectory p) fs = (result, fs') := ran
  exact change_eq ran

theorem disk_write_eq {content : List UInt8} (ran : disk.write p content fs = (result, fs')) :
    (fs.write p content = .ok fs' ∧ result = .ok ()) ∨
      ∃ e, fs.write p content = .error e ∧ result = .error e ∧ fs' = fs := by
  replace ran : change (fun fs => fs.write p content) fs = (result, fs') := ran
  exact change_eq ran

theorem attempts_of_tolerate {e : DiskError} (failed : fs.makeDirectory p = .error e)
    (ran : disk.tolerate p e fs = (result, fs')) : Attempts p fs fs' result := by
  rw [Disk.tolerate] at ran
  obtain ⟨found, fs₁, asked, rest⟩ := exists_of_bind ran
  obtain ⟨answer, rfl⟩ : fs.isDirectory p = found ∧ fs = fs₁ := Prod.mk.inj asked
  split at rest
  · cases rest
    exact .refused failed fun _ there => by simp [isDirectory_eq_true.2 there] at answer
  · cases rest
    exact .present (isDirectory_eq_true.1 answer)
  · cases rest
    exact .refused failed fun _ there => by simp [isDirectory_eq_true.2 there] at answer

theorem attempts_of_ensureDirectory (ran : disk.ensureDirectory p fs = (result, fs')) :
    Attempts p fs fs' result := by
  rw [Disk.ensureDirectory] at ran
  obtain ⟨made, fs₁, attempt, rest⟩ := exists_of_bind ran
  rcases disk_makeDirectory_eq attempt with ⟨done, rfl⟩ | ⟨e, failed, rfl, rfl⟩
  · cases rest
    exact .made done
  · dsimp only at rest
    split at rest
    · next missing =>
        cases rest
        exact .refused failed fun other => absurd missing other
    · exact attempts_of_tolerate failed rest

/-! ## The whole effort -/

/-- How making a directory and those above it ends. -/
inductive Ensures : Path → FileSystem → FileSystem → Except DiskError Unit → Prop where
  /-- One attempt decides, since nothing is missing above that could be made. -/
  | once {p : Path} {fs fs' : FileSystem} {result : Except DiskError Unit}
      (attempt : Attempts p fs fs' result)
      (last : ∀ e, fs.makeDirectory p = .error e → e.failure = .noSuchFile → p.parts = []) :
      Ensures p fs fs' result
  /-- The parent cannot be made. -/
  | givenUp {p : Path} {fs fs' : FileSystem} {e : DiskError}
      (parent : Ensures p.parent fs fs' (.error e)) : Ensures p fs fs' (.error e)
  /-- The parent is there, and another attempt decides. -/
  | again {p : Path} {fs fs₁ fs' : FileSystem} {result : Except DiskError Unit}
      (parent : Ensures p.parent fs fs₁ (.ok ())) (attempt : Attempts p fs₁ fs' result) :
      Ensures p fs fs' result

theorem ensures_of_ensureDirectories (ran : disk.ensureDirectories p fs = (result, fs')) :
    Ensures p fs fs' result := by
  induction p using Disk.ensureDirectories.induct generalizing fs fs' result with
  | case1 p ih =>
      rw [Disk.ensureDirectories] at ran
      obtain ⟨made, fs₁, attempt, rest⟩ := exists_of_bind ran
      rcases disk_makeDirectory_eq attempt with ⟨done, rfl⟩ | ⟨e, failed, rfl, rfl⟩
      · cases rest
        refine .once (.made done) fun e failed => ?_
        rw [done] at failed
        cases failed
      · dsimp only at rest
        split at rest
        · next other =>
            refine .once (attempts_of_tolerate failed rest) fun e' failed' missing => ?_
            cases failed.symm.trans failed'
            exact absurd missing other
        · next missing =>
            split at rest
            · next top =>
                cases rest
                exact .once (.refused failed fun other => absurd other missing) fun _ _ _ => top
            · next under =>
                obtain ⟨made, fs₂, parent, again⟩ := exists_of_bind rest
                have parent := ih under parent
                split at again
                · cases again
                  exact .givenUp parent
                · exact .again parent (attempts_of_ensureDirectory again)

/-! ## What is new -/

variable {touched : Location → Prop}

theorem Attempts.changes (attempt : Attempts p fs fs' result) :
    Changes (fs.OnWay p) touched fs fs' := by
  cases attempt with
  | made done => exact makeDirectory_changes done
  | present there => exact .refl fs
  | refused failed absent => exact .refl fs

/-- Making a directory and those above it puts nothing but directories on the way. -/
theorem Ensures.changes (h : Ensures p fs fs' result) : Changes (fs.OnWay p) touched fs fs' := by
  induction h with
  | once attempt last => exact attempt.changes
  | givenUp parent ih => exact ih.mono (fun _ => OnWay.of_parent) fun _ h => h
  | @again p fs fs₁ fs' result parent attempt ih =>
      have first := ih.mono (fun _ => OnWay.of_parent) fun _ h => h
      refine first.trans (attempt.changes.mono ?_ fun _ h => h)
      rintro l ⟨before, nonempty, h, rfl⟩
      exact ⟨before, nonempty, h, by rw [first.grows.start_eq]⟩

theorem Attempts.hasDirectory (attempt : Attempts p fs fs' (.ok ())) : fs'.HasDirectory p := by
  cases attempt with
  | made done => exact makeDirectory_hasDirectory done
  | present there => exact there

/-- After a success there is a directory at the path. -/
theorem Ensures.hasDirectory (h : Ensures p fs fs' (.ok ())) : fs'.HasDirectory p := by
  cases h with
  | once attempt last => exact attempt.hasDirectory
  | again parent attempt => exact attempt.hasDirectory

end FileSystem

end FlowGraph
