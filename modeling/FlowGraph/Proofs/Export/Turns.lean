import FlowGraph.Proofs.Dot.OutputPath
import FlowGraph.Proofs.Export.Writable

/-!
# The turns of an export

An export takes the methods one after the other.  `Target.turns` are the turns of those that it
reaches, each with the state of the disk before and after, and `exportAll_eq` says that an
export is its turns.  All methods have their turns unless one meets an obstacle
(`map_method_turns`).

The disk here has a state of any kind, and its operations may fail in any way.  All that is
asked of it is that reading changes nothing and that a file that was written can be read
(`Disk.Lawful`).
-/

namespace FlowGraph

open FileSystem (Grows Places)

variable {σ : Type}

/-! ## Disks with a state -/

/-- What is relied on of a disk. -/
structure Disk.Lawful (disk : Disk (StateM σ)) : Prop where
  /-- Reading changes nothing. -/
  read_same : ∀ p s, (disk.read p s).2 = s
  /-- A file that was written can be read. -/
  read_of_write : ∀ p content s s', disk.write p content s = (.ok (), s') →
    (disk.read p s').1 = .ok content

theorem FileSystem.disk_lawful : FileSystem.disk.Lawful where
  read_same := fun _ _ => rfl
  read_of_write := by
    intro p content fs fs' ran
    rcases FileSystem.disk_write_eq ran with ⟨written, -⟩ | ⟨e, -, failed, -⟩
    · obtain ⟨l, found, holds, -⟩ := FileSystem.write_places written
      exact FileSystem.read_of_locate found holds
    · cases failed

/-! ## Turns -/

/-- What became of a method in its turn. -/
structure Turn (σ : Type) where
  /-- The method. -/
  method : Method
  /-- What became of it. -/
  outcome : Outcome
  /-- The state of the disk before. -/
  before : σ
  /-- The state of the disk after. -/
  after : σ

/-- The turn of a method. -/
def Target.turn (t : Target) (disk : Disk (StateM σ)) (m : Method) (s : σ) : Turn σ where
  method := m
  outcome := (t.export disk m s).1
  before := s
  after := (t.export disk m s).2

/-- The turns of the methods that an export reaches. -/
def Target.turns (t : Target) (disk : Disk (StateM σ)) : List Method → σ → List (Turn σ)
  | [], _ => []
  | m :: rest, s =>
      t.turn disk m s ::
        if (t.turn disk m s).outcome.obstacle?.isSome then []
        else t.turns disk rest (t.turn disk m s).after

/-- What became of the methods in some turns. -/
def results (turns : List (Turn σ)) : List (Method × Outcome) :=
  turns.map fun turn => (turn.method, turn.outcome)

/-- The state of the disk after some turns. -/
def stateAfter : σ → List (Turn σ) → σ
  | s, [] => s
  | _, turn :: rest => stateAfter turn.after rest

variable {t : Target} {disk : Disk (StateM σ)} {methods : List Method} {s s' : σ}

/-- An export is its turns. -/
theorem exportAll_eq (t : Target) (disk : Disk (StateM σ)) (methods : List Method) (s : σ) :
    t.exportAll disk methods s =
      (results (t.turns disk methods s), stateAfter s (t.turns disk methods s)) := by
  induction methods generalizing s with
  | nil => rfl
  | cons m rest ih =>
      rw [Target.exportAll, Target.turns]
      show (if (t.turn disk m s).outcome.obstacle?.isSome
        then (pure [(m, (t.turn disk m s).outcome)] : StateM σ _) else _) (t.turn disk m s).after
          = _
      split
      · rfl
      · show ((m, _) :: (t.exportAll disk rest (t.turn disk m s).after).1,
          (t.exportAll disk rest (t.turn disk m s).after).2) = _
        rw [ih]
        rfl

/-- Every turn is the turn of its method in the state before. -/
theorem eq_turn_of_mem {turn : Turn σ} (mem : turn ∈ t.turns disk methods s) :
    turn = t.turn disk turn.method turn.before := by
  induction methods generalizing s with
  | nil => cases mem
  | cons m rest ih =>
      rw [Target.turns] at mem
      rcases List.mem_cons.1 mem with rfl | mem
      · rfl
      · split at mem
        · cases mem
        · exact ih mem

/-- The methods reached are the first ones. -/
theorem prefix_map_method_turns :
    (t.turns disk methods s).map Turn.method <+: methods := by
  induction methods generalizing s with
  | nil => exact List.prefix_refl _
  | cons m rest ih =>
      rw [Target.turns, List.map_cons]
      refine (List.prefix_cons_inj m).2 ?_
      split
      · exact List.nil_prefix
      · exact ih

theorem method_mem {turn : Turn σ} (mem : turn ∈ t.turns disk methods s) :
    turn.method ∈ methods :=
  prefix_map_method_turns.subset (List.mem_map_of_mem mem)

/-- If no method meets an obstacle, all of them have their turns. -/
theorem map_method_turns
    (free : ∀ turn ∈ t.turns disk methods s, turn.outcome.obstacle? = none) :
    (t.turns disk methods s).map Turn.method = methods := by
  induction methods generalizing s with
  | nil => rfl
  | cons m rest ih =>
      rw [Target.turns] at free ⊢
      have first := free _ List.mem_cons_self
      rw [List.map_cons]
      simp only [first, Option.isSome_none, Bool.false_eq_true, if_false] at free ⊢
      exact congrArg (m :: ·) (ih fun turn mem => free turn (List.mem_cons_of_mem _ mem))

/-! ## One turn -/

/-- A method is left out, or it is drawn and its graph has no path or is written below its
directory. -/
theorem export_cases {m : Method} {outcome : Outcome} (ran : t.export disk m s = (outcome, s')) :
    (∃ why, Dot.skip? t.view m = some why ∧ outcome = .skipped why ∧ s' = s) ∨
    Dot.skip? t.view m = none ∧
      (t.output = none ∧ outcome = .blocked .noOutput ∧ s' = s ∨
        ∃ out, t.output = some out ∧
          writeBelow disk (t.path out m) (t.content m) s = (outcome, s')) := by
  rw [Target.export] at ran
  cases skip : Dot.skip? t.view m with
  | some why =>
      rw [skip] at ran
      cases ran
      exact .inl ⟨why, rfl, rfl, rfl⟩
  | none =>
      rw [skip] at ran
      refine .inr ⟨rfl, ?_⟩
      cases target : t.output with
      | none =>
          rw [target] at ran
          cases ran
          exact .inl ⟨rfl, rfl, rfl⟩
      | some out =>
          rw [target] at ran
          exact .inr ⟨out, rfl, ran⟩

/-- Whether a null character keeps a file from being written. -/
def Path.Stuck (path : Path) (disk : Disk (StateM σ)) (s : σ) : Prop :=
  path.parent.hasNull = true ∨
    path.hasNull = true ∧ (disk.ensureDirectories path.parent s).1 = .ok ()

/-- Writing a file meets an obstacle just if it is stuck.  Otherwise it fails or ends with the
operation that writes the file. -/
theorem writeBelow_cases {path : Path} {content : List UInt8} {outcome : Outcome}
    (ran : writeBelow disk path content s = (outcome, s')) :
    path.Stuck disk s ∧ outcome = .blocked .nullCharacter ∨
    ¬ path.Stuck disk s ∧ ((∃ e, outcome = .failed e) ∨
      outcome = .written path ∧ ∃ s₁, disk.write path content s₁ = (.ok (), s')) := by
  rw [writeBelow] at ran
  split at ran
  · next null =>
      cases ran
      exact .inl ⟨.inl null, rfl⟩
  · next plain =>
      obtain ⟨made, s₁, effort, rest⟩ := exists_of_bind ran
      rw [Path.Stuck, effort]
      split at rest
      · cases rest
        exact .inr ⟨by simp [plain], .inl ⟨_, rfl⟩⟩
      · split at rest
        · next null =>
            cases rest
            exact .inl ⟨.inr ⟨null, rfl⟩, rfl⟩
        · next plain' =>
            obtain ⟨result, s₂, attempt, ended⟩ := exists_of_bind rest
            refine .inr ⟨by simp [plain, plain'], ?_⟩
            split at ended
            · cases ended
              exact .inl ⟨_, rfl⟩
            · cases ended
              exact .inr ⟨rfl, s₁, attempt⟩

/-- Whether a method stops the export: its graph is to be drawn, and there is no path to write
it to. -/
def Target.Stops (t : Target) (disk : Disk (StateM σ)) (m : Method) (s : σ) : Prop :=
  Dot.skip? t.view m = none ∧ ∀ out, t.output = some out → (t.path out m).Stuck disk s

/-- A method meets no obstacle in its turn just if it does not stop the export. -/
theorem obstacle?_turn_iff {m : Method} :
    (t.turn disk m s).outcome.obstacle? = none ↔ ¬ t.Stops disk m s := by
  have ran : t.export disk m s = ((t.turn disk m s).outcome, (t.turn disk m s).after) := rfl
  rcases export_cases ran with
    ⟨why, skip, outcome, -⟩ | ⟨drawn, ⟨none, outcome, -⟩ | ⟨out, target, written⟩⟩
  · simp [Target.Stops, skip, outcome, Outcome.obstacle?]
  · simp [Target.Stops, drawn, none, outcome, Outcome.obstacle?]
  · rcases writeBelow_cases written with
      ⟨stuck, outcome⟩ | ⟨free, ⟨e, outcome⟩ | ⟨outcome, -⟩⟩
    · simp [Target.Stops, drawn, target, outcome, stuck, Outcome.obstacle?]
    · simp [Target.Stops, drawn, target, outcome, free, Outcome.obstacle?]
    · simp [Target.Stops, drawn, target, outcome, free, Outcome.obstacle?]

theorem obstacle?_of_mem_iff {turn : Turn σ} (mem : turn ∈ t.turns disk methods s) :
    turn.outcome.obstacle? = none ↔ ¬ t.Stops disk turn.method turn.before := by
  rw [← obstacle?_turn_iff, ← eq_turn_of_mem mem]

/-- Without null characters nothing stops an export into a directory. -/
theorem not_stops {out : Path} {m : Method} (target : t.output = some out)
    (plain : out.hasNull = false) (free : m.NullFree) : ¬ t.Stops disk m s := by
  have whole : (t.path out m).hasNull = false := free.outputPath plain t.view
  rintro ⟨-, stuck⟩
  rcases stuck out target with null | ⟨null, -⟩
  · rw [Path.hasNull_parent whole] at null
    cases null
  · rw [whole] at null
    cases null

theorem turn_of_skip {m : Method} {why : Dot.Skip} (skip : Dot.skip? t.view m = some why) :
    t.turn disk m s = ⟨m, .skipped why, s, s⟩ := by
  rw [Target.turn, Target.export, skip]
  rfl

/-- What a method that is drawn does in its turn. -/
theorem writes_turn {out : Path} {m : Method} (fs : FileSystem)
    (drawn : Dot.skip? t.view m = none) (target : t.output = some out) :
    Writes (t.path out m) (t.content m) fs (t.turn FileSystem.disk m fs).after
      (t.turn FileSystem.disk m fs).outcome := by
  have ran : t.export FileSystem.disk m fs = ((t.turn FileSystem.disk m fs).outcome,
    (t.turn FileSystem.disk m fs).after) := rfl
  rw [Target.export, drawn, target] at ran
  exact writes_of_writeBelow ran

/-- In its turn a method puts its graph at its path, or it touches no file. -/
theorem turn_cases (t : Target) (m : Method) (fs : FileSystem) :
    (∃ out, t.output = some out ∧ Dot.skip? t.view m = none ∧
      (t.turn FileSystem.disk m fs).outcome = .written (t.path out m) ∧
      Places (t.path out m) (t.content m) fs (t.turn FileSystem.disk m fs).after) ∨
    (∀ path, (t.turn FileSystem.disk m fs).outcome ≠ .written path) ∧
      Grows (fun _ => False) fs (t.turn FileSystem.disk m fs).after := by
  have ran : t.export FileSystem.disk m fs = ((t.turn FileSystem.disk m fs).outcome,
    (t.turn FileSystem.disk m fs).after) := rfl
  rcases export_cases ran with
    ⟨why, -, outcome, same⟩ | ⟨drawn, ⟨-, outcome, same⟩ | ⟨out, target, wrote⟩⟩
  · rw [outcome, same]
    exact .inr ⟨nofun, .refl fs⟩
  · rw [outcome, same]
    exact .inr ⟨nofun, .refl fs⟩
  · have writes := writes_of_writeBelow wrote
    rcases writeBelow_cases wrote with ⟨-, outcome⟩ | ⟨-, ⟨e, outcome⟩ | ⟨outcome, -⟩⟩
    · rw [outcome] at writes ⊢
      exact .inr ⟨nofun, writes.grows_of_ne_written nofun⟩
    · rw [outcome] at writes ⊢
      exact .inr ⟨nofun, writes.grows_of_ne_written nofun⟩
    · rw [outcome] at writes
      exact .inl ⟨out, target, drawn, outcome, writes.places⟩

/-! ## Outcomes that are alike -/

/-- Whether a graph has been written. -/
def Outcome.isWritten : Outcome → Bool
  | written _ => true
  | _ => false

/-- Whether a method has failed. -/
def Outcome.isFailed : Outcome → Bool
  | failed _ => true
  | _ => false

/-- Whether two outcomes are the same but for the error. -/
inductive Outcome.Alike : Outcome → Outcome → Prop where
  | same (outcome : Outcome) : Alike outcome outcome
  | failed (e e' : DiskError) : Alike (.failed e) (.failed e')

/-- What does not depend on the error is the same for outcomes that are alike. -/
theorem Outcome.Alike.congr {β : Type} {f : Outcome → β} {outcome outcome' : Outcome}
    (h : outcome.Alike outcome') (failed : ∀ e e', f (.failed e) = f (.failed e')) :
    f outcome = f outcome' := by
  cases h with
  | same => rfl
  | failed e e' => exact failed e e'

/-- Two attempts to write to a path without null characters are alike if both succeed or none
does. -/
theorem Writes.alike {path : Path} {content content' : List UInt8}
    {fs fs' fs₁ fs₁' : FileSystem} {outcome outcome' : Outcome}
    (h : Writes path content fs fs₁ outcome) (h' : Writes path content' fs' fs₁' outcome')
    (plain : path.hasNull = false) (same : outcome = .written path ↔ outcome' = .written path) :
    outcome.Alike outcome' := by
  rcases h.failed_or_written plain with ⟨e, failed⟩ | written
  · rcases h'.failed_or_written plain with ⟨e', failed'⟩ | written'
    · rw [failed, failed']
      exact .failed e e'
    · rw [same.2 written', written']
      exact .same _
  · rw [written, same.1 written]
    exact .same _

end FlowGraph
