import FlowGraph.Proofs.Export.Shared
import FlowGraph.Proofs.Export.Turns

/-!
# Places of directories and graphs

Below an output directory whose components do not lead up, directories and graphs have different
places: the name of a graph has a point, and the components of a class have none
(`DirectoryPlace.not_filePlace`).  So a graph is never written where another one needs a
directory (`Dot.not_onWay_outputPath`), and a method fares in its turn as it would before all
exports (`Exported.alike`).  This asks for names of classes that do not start at the root.
-/

namespace FlowGraph

open FileSystem (resolve up Changes Grows Writable)

variable {fs fs' : FileSystem} {t : Target} {out : Path} {m m' : Method}

/-! ## Places of directories and files -/

/-- Whether a location is one for a directory on the way to a graph: below the starting location
of the output directory, through components of which those behind the output directory have
no point. -/
def DirectoryPlace (out : Path) (here l : Location) : Prop :=
  ∃ added before, (∀ part ∈ added, '.' ∉ part) ∧ before ≠ [] ∧ before <+: out.parts ++ added ∧
    l = here ++ before

/-- Whether a location is one for a graph: in the output directory or below, under a name with a
point. -/
def FilePlace (out : Path) (here l : Location) : Prop :=
  ∃ added name, '.' ∈ name ∧ l = here ++ (out.parts ++ (added ++ [name]))

theorem DirectoryPlace.not_filePlace {here l : Location} (h : DirectoryPlace out here l) :
    ¬ FilePlace out here l := by
  obtain ⟨added, before, plain, -, sub, rfl⟩ := h
  rintro ⟨added', name, point, same⟩
  rw [List.append_cancel_left same] at sub
  have sub : added' ++ [name] <+: added := (List.prefix_append_right_inj _).1 sub
  exact plain name (sub.subset (List.mem_append_right _ List.mem_cons_self)) point

/-- The place at which paths start is not below it. -/
theorem DirectoryPlace.ne_start {here : Location} : ¬ DirectoryPlace out here here := by
  rintro ⟨added, before, -, nonempty, -, same⟩
  exact nonempty (List.self_eq_append_right.1 same)

theorem FilePlace.ne_start {here : Location} : ¬ FilePlace out here here := by
  rintro ⟨added, name, -, same⟩
  simp at same

namespace Dot

variable {v : View}

/-- The path of a graph below the output directory. -/
theorem outputPath_of_relative (relative : ¬ m.ClassAtRoot) : outputPath out v m =
    ⟨out.root, out.parts ++ ((Path.ofText (classDirectory m)).parts ++ [fileName v m])⟩ := by
  rw [outputPath_eq, Path.join, if_pos ((root_classDirectory m).2 relative), List.append_assoc]

theorem parts_parent_outputPath (v : View) (relative : ¬ m.ClassAtRoot) :
    (outputPath out v m).parent.parts = out.parts ++ (Path.ofText (classDirectory m)).parts := by
  rw [parent_outputPath, Path.join, if_pos ((root_classDirectory m).2 relative)]

theorem point_not_mem_directory {part : Text}
    (mem : part ∈ (Path.ofText (classDirectory m)).parts) : '.' ∉ part := fun point =>
  point_not_mem_classDirectory m (Text.mem_of_mem_split (List.mem_filter.1 mem).1 point)

theorem point_mem_fileName (v : View) (m : Method) : '.' ∈ fileName v m := by
  rw [fileName, List.mem_append]
  exact .inr (by decide)

theorem start_outputPath (fs : FileSystem) (v : View) (relative : ¬ m.ClassAtRoot) :
    fs.start (outputPath out v m) = fs.start out := by
  rw [outputPath_of_relative relative]
  rfl

theorem up_not_mem_outputPath (v : View) (down : up ∉ out.parts) (relative : ¬ m.ClassAtRoot) :
    up ∉ (outputPath out v m).parts := by
  rw [outputPath_of_relative relative, List.mem_append, List.mem_append, List.mem_singleton]
  exact not_or.2 ⟨down, not_or.2 ⟨Path.up_not_mem_parts (point_not_mem_classDirectory m),
    (fileName_ne_up v m).symm⟩⟩

/-- The location of a graph. -/
theorem resolve_outputPath (fs : FileSystem) (v : View) (down : up ∉ out.parts)
    (relative : ¬ m.ClassAtRoot) :
    resolve (fs.start (outputPath out v m)) (outputPath out v m).parts =
      fs.start out ++ (outputPath out v m).parts := by
  rw [FileSystem.resolve_down (up_not_mem_outputPath v down relative),
    start_outputPath fs v relative]

theorem filePlace_outputPath (fs : FileSystem) (v : View) (down : up ∉ out.parts)
    (relative : ¬ m.ClassAtRoot) : FilePlace out (fs.start out)
      (resolve (fs.start (outputPath out v m)) (outputPath out v m).parts) := by
  refine ⟨(Path.ofText (classDirectory m)).parts, fileName v m, point_mem_fileName v m, ?_⟩
  rw [resolve_outputPath fs v down relative, outputPath_of_relative relative]

theorem directoryPlace_of_onWay {l : Location} (down : up ∉ out.parts)
    (relative : ¬ m.ClassAtRoot) (onWay : fs.OnWay (outputPath out v m).parent l) :
    DirectoryPlace out (fs.start out) l := by
  obtain ⟨before, nonempty, sub, rfl⟩ := onWay
  have inside : before <+: (outputPath out v m).parts := sub.trans (List.dropLast_prefix _)
  refine ⟨(Path.ofText (classDirectory m)).parts, before, fun part => point_not_mem_directory,
    nonempty, ?_, ?_⟩
  · rw [parts_parent_outputPath v relative] at sub
    exact sub
  · rw [FileSystem.resolve_down fun mem =>
      up_not_mem_outputPath v down relative (inside.subset mem)]
    exact congrArg (· ++ before) (start_outputPath fs v relative)

theorem hasNull_parent_outputPath (v : View) (null : out.hasNull = true)
    (relative : ¬ m.ClassAtRoot) : (outputPath out v m).parent.hasNull = true := by
  obtain ⟨part, mem, null⟩ := Path.hasNull_iff.1 null
  refine Path.hasNull_iff.2 ⟨part, ?_, null⟩
  rw [parts_parent_outputPath v relative]
  exact List.mem_append_left _ mem

/-- Where a graph is written no other one needs a directory. -/
theorem not_onWay_outputPath (v : View) (down : up ∉ out.parts) (relative : ¬ m.ClassAtRoot)
    (relative' : ¬ m'.ClassAtRoot) : ¬ fs.OnWay (outputPath out v m').parent
      (resolve (fs.start (outputPath out v m)) (outputPath out v m).parts) := fun onWay =>
  (directoryPlace_of_onWay down relative' onWay).not_filePlace
    (filePlace_outputPath fs v down relative)

end Dot

/-! ## Methods do not interfere -/

/-- Whether one file system comes from another by exports into an output directory. -/
def Exported (out : Path) (fs fs' : FileSystem) : Prop :=
  Changes (DirectoryPlace out (fs.start out)) (FilePlace out (fs.start out)) fs fs'

/-- What else has been exported does not decide whether a graph can be written. -/
theorem Exported.writable_iff (h : Exported out fs fs') (v : Dot.View) (down : up ∉ out.parts)
    (relative : ¬ m.ClassAtRoot) :
    fs'.Writable (Dot.outputPath out v m) ↔ fs.Writable (Dot.outputPath out v m) := by
  constructor
  · intro writable
    refine writable.of_grows h.grows ?_
    -- the start of the path is above all that has been exported, so it was there before
    have start : fs'.get? (fs'.start (Dot.outputPath out v m)) = some .directory :=
      writable.parent.start
    rw [h.grows.start_eq] at start
    rw [Dot.start_outputPath _ v relative] at start ⊢
    rcases h.entry (fs.start out) with same | ⟨made, -⟩ | ⟨touched, -⟩
    · rw [← same, start]
    · exact absurd made DirectoryPlace.ne_start
    · exact absurd touched FilePlace.ne_start
  · intro writable
    refine writable.of_changes h (fun made => ?_) fun l onWay touched => ?_
    · exact made.not_filePlace (Dot.filePlace_outputPath fs v down relative)
    · exact (Dot.directoryPlace_of_onWay down relative onWay).not_filePlace touched

/-- A turn is an export into the output directory. -/
theorem Exported.turn (h : Exported out fs fs') (target : t.output = some out)
    (down : up ∉ out.parts) (relative : ¬ m.ClassAtRoot) :
    Exported out fs (t.turn FileSystem.disk m fs').after := by
  cases skip : Dot.skip? t.view m with
  | some why =>
      rw [turn_of_skip skip]
      exact h
  | none =>
      have changes := (writes_turn fs' skip target).changes
      refine h.trans (changes.mono (fun l onWay => ?_) ?_)
      · rw [← h.grows.start_eq]
        exact Dot.directoryPlace_of_onWay down relative onWay
      · rintro l rfl
        rw [← h.grows.start_eq]
        exact Dot.filePlace_outputPath fs' t.view down relative

/-- Every turn of an export begins after exports into the output directory. -/
theorem Exported.before {methods : List Method} (h : Exported out fs fs')
    (target : t.output = some out) (down : up ∉ out.parts)
    (relative : ∀ m ∈ methods, ¬ m.ClassAtRoot) :
    ∀ turn ∈ t.turns FileSystem.disk methods fs', Exported out fs turn.before := by
  induction methods generalizing fs' with
  | nil => exact nofun
  | cons m rest ih =>
      rw [Target.turns]
      intro turn mem
      rcases List.mem_cons.1 mem with rfl | mem
      · exact h
      · split at mem
        · cases mem
        · exact ih (h.turn target down (relative m List.mem_cons_self))
            (fun m mem => relative m (List.mem_cons_of_mem _ mem)) turn mem

/-- A method fares in its turn as it would before all exports. -/
theorem Exported.alike (h : Exported out fs fs') (target : t.output = some out)
    (down : up ∉ out.parts) (relative : ¬ m.ClassAtRoot) (free : m.NullFree) :
    (t.turn FileSystem.disk m fs').outcome.Alike (t.turn FileSystem.disk m fs).outcome := by
  cases skip : Dot.skip? t.view m with
  | some why =>
      rw [turn_of_skip skip, turn_of_skip skip]
      exact .same _
  | none =>
      have writes := writes_turn fs skip target
      have writes' := writes_turn fs' skip target
      by_cases null : out.hasNull = true
      · have above : (t.path out m).parent.hasNull = true :=
          Dot.hasNull_parent_outputPath t.view null relative
        rw [writes.eq_of_nullAbove above, writes'.eq_of_nullAbove above]
        exact .same _
      · have plain : (t.path out m).hasNull = false := free.outputPath (by simpa using null) t.view
        refine writes'.alike writes plain ?_
        have level : up ∉ (t.path out m).parent.parts := fun mem =>
          Dot.up_not_mem_outputPath t.view down relative ((List.dropLast_prefix _).subset mem)
        rw [writes'.written_iff plain fun mem => absurd mem level,
          writes.written_iff plain fun mem => absurd mem level]
        exact h.writable_iff t.view down relative

end FlowGraph
