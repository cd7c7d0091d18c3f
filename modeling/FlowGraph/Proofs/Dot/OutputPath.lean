import FlowGraph.Dot.Document
import FlowGraph.FileSystem

/-!
# Where graphs are written

The path of a graph is a directory for the class, then a file name, below the output
directory.  The file name is one component whatever the short id is (`ofText_fileName`).  The
directory has no component that leads up, since no point is left in it, but it may start at
the root: the name of a class that starts with a point or a slash gives one
(`root_classDirectory`).  So graphs stay below the output directory just for the other
classes (`outputPath_isBelow`).
-/

namespace FlowGraph

/-! ## Paths below a directory -/

/-- Whether a path leads from a directory down: through the components of the directory, and
then through some more, none of which leads up. -/
def Path.IsBelow (p out : Path) : Prop :=
  p.root = out.root ∧ ∃ added, p.parts = out.parts ++ added ∧ added ≠ [] ∧ FileSystem.up ∉ added

/-! ## Splitting a text -/

namespace Text

theorem split_of_not_mem {c : Char} {t : Text} (h : c ∉ t) : split c t = [t] := by
  induction t with
  | nil => rfl
  | cons d t ih =>
      obtain ⟨hd, ht⟩ := not_or.1 (mt List.mem_cons.2 h)
      rw [split, if_neg (Ne.symm hd), ih ht]

/-- What stands between the occurrences of a character is part of the text. -/
theorem mem_of_mem_split {c d : Char} {t w : Text} (hw : w ∈ split c t) (hd : d ∈ w) : d ∈ t := by
  induction t generalizing w with
  | nil =>
      rw [split, List.mem_singleton] at hw
      rw [hw] at hd
      cases hd
  | cons e t ih =>
      rw [split] at hw
      by_cases cut : e = c
      · rw [if_pos cut] at hw
        rcases List.mem_cons.1 hw with rfl | hw
        · cases hd
        · exact List.mem_cons_of_mem e (ih hw hd)
      · rw [if_neg cut] at hw
        split at hw
        · next none =>
            rw [List.mem_singleton] at hw
            rw [hw, List.mem_singleton] at hd
            exact hd ▸ List.mem_cons_self
        · next first rest parts =>
            rw [parts] at ih
            rcases List.mem_cons.1 hw with rfl | hw
            · rcases List.mem_cons.1 hd with rfl | hd
              · exact List.mem_cons_self
              · exact List.mem_cons_of_mem e (ih List.mem_cons_self hd)
            · exact List.mem_cons_of_mem e (ih (List.mem_cons_of_mem first hw) hd)

end Text

namespace Path

/-- A text without slashes is a path of one component, if it is one that is kept. -/
theorem ofText_of_not_mem {t : Text} (slash : '/' ∉ t) (kept : keeps t = true) :
    ofText t = ⟨.relative, [t]⟩ := by
  have start : t.takeWhile (· = '/') = [] := by
    cases t with
    | nil => rfl
    | cons c t =>
        have hc : c ≠ '/' := fun same => slash (same ▸ List.mem_cons_self)
        simp [hc]
  rw [ofText, start, Text.split_of_not_mem slash, List.filter_cons_of_pos kept]
  rfl

theorem rootOf_eq_relative {n : Nat} : rootOf n = .relative ↔ n = 0 := by
  unfold rootOf
  split <;> simp_all

/-- A text is a path from the root just if it starts with a slash. -/
theorem root_ofText_eq_relative {t : Text} : (ofText t).root = .relative ↔ t.head? ≠ some '/' := by
  rw [ofText, rootOf_eq_relative, List.length_eq_zero_iff]
  cases t with
  | nil => simp
  | cons c t => by_cases hc : c = '/' <;> simp [hc]

/-- No component of a path leads up if its text has no point. -/
theorem up_not_mem_parts {t : Text} (point : '.' ∉ t) : FileSystem.up ∉ (ofText t).parts := by
  intro mem
  have part := (List.mem_filter.1 mem).1
  exact point (Text.mem_of_mem_split part List.mem_cons_self)

end Path

/-- Whether the name of the class starts with a point or a slash. -/
def Method.ClassAtRoot (m : Method) : Prop :=
  m.className.head? = some '.' ∨ m.className.head? = some '/'

namespace Dot

/-! ## File names -/

theorem not_mem_escapeFileName {c : Char} (h : c = '/' ∨ c = '.') (t : Text) :
    c ∉ escapeFileName t := by
  intro mem
  obtain ⟨d, -, hd⟩ := List.mem_flatMap.1 mem
  unfold fileNameChar at hd
  split at hd
  · rcases h with rfl | rfl <;> cases List.mem_singleton.1 hd
  · next other =>
      split at hd
      · rcases h with rfl | rfl <;> cases List.mem_singleton.1 hd
      · split at hd
        · cases hd
        · cases List.mem_singleton.1 hd
          rcases h with rfl | rfl <;> exact other (by decide)

/-- What a file name adds to the short id. -/
def fileSuffix (v : View) : Text :=
  (if v.regions then lit ".regions" else []) ++ (if v.raw then lit ".raw" else []) ++ lit ".dot"

theorem fileName_eq (v : View) (m : Method) :
    fileName v m = escapeFileName m.shortId ++ fileSuffix v := by
  simp [fileName, fileSuffix]

theorem slash_not_mem_fileName (v : View) (m : Method) : '/' ∉ fileName v m := by
  have suffix : '/' ∉ fileSuffix v := by
    obtain ⟨regions, raw⟩ := v
    cases regions <;> cases raw <;> decide
  rw [fileName_eq, List.mem_append]
  exact not_or.2 ⟨not_mem_escapeFileName (Or.inl rfl) _, suffix⟩

theorem length_fileName (v : View) (m : Method) : 4 ≤ (fileName v m).length := by
  have dot : (lit ".dot").length = 4 := by decide
  rw [fileName, List.length_append, dot]
  omega

theorem fileName_ne_up (v : View) (m : Method) : fileName v m ≠ FileSystem.up := by
  intro same
  have length := length_fileName v m
  rw [same] at length
  exact absurd length (by decide)

/-- A file name is one component of a path. -/
theorem ofText_fileName (v : View) (m : Method) :
    Path.ofText (fileName v m) = ⟨.relative, [fileName v m]⟩ := by
  refine Path.ofText_of_not_mem (slash_not_mem_fileName v m) ?_
  have length := length_fileName v m
  have nonempty : fileName v m ≠ [] := by
    intro same
    simp [same] at length
  have point : fileName v m ≠ ['.'] := by
    intro same
    simp [same] at length
  simp [Path.keeps, nonempty, point]

/-! ## Directories of classes -/

theorem point_not_mem_classDirectory (m : Method) : '.' ∉ classDirectory m := by
  have path : '.' ∉ m.classPath := by
    intro mem
    obtain ⟨d, -, hd⟩ := List.mem_flatMap.1 mem
    split at hd
    · cases List.mem_singleton.1 hd
    · next other => exact other (List.mem_singleton.1 hd).symm
  rw [classDirectory, List.mem_append]
  exact not_or.2 ⟨path, by decide⟩

/-- The directory of a class starts at the root just if the name of the class starts with
what gives a slash. -/
theorem root_classDirectory (m : Method) :
    (Path.ofText (classDirectory m)).root = .relative ↔ ¬ m.ClassAtRoot := by
  rw [Path.root_ofText_eq_relative, classDirectory, Method.classPath, Method.ClassAtRoot]
  cases m.className with
  | nil => decide
  | cons c t =>
      rw [Text.substitute_cons]
      by_cases point : c = '.'
      · simp [point]
      · simp [point]

/-! ## Paths of graphs -/

/-- The file of a graph is in the directory of the class. -/
theorem outputPath_eq (out : Path) (v : View) (m : Method) :
    outputPath out v m = ⟨(out.join (.ofText (classDirectory m))).root,
      (out.join (.ofText (classDirectory m))).parts ++ [fileName v m]⟩ := by
  rw [outputPath, ofText_fileName]
  rfl

/-- A graph is written below the output directory unless the name of the class starts with a
point or a slash.  In that case the output directory does not matter. -/
theorem outputPath_isBelow (v : View) (m : Method) :
    ((∀ out, (outputPath out v m).IsBelow out) ↔ ¬ m.ClassAtRoot) ∧
    (m.ClassAtRoot → ∃ p : Path, p.root ≠ .relative ∧ FileSystem.up ∉ p.parts ∧
      ∀ out, outputPath out v m = p) := by
  have up : FileSystem.up ∉ (Path.ofText (classDirectory m)).parts ++ [fileName v m] := by
    rw [List.mem_append, List.mem_singleton]
    exact not_or.2 ⟨Path.up_not_mem_parts (point_not_mem_classDirectory m),
      (fileName_ne_up v m).symm⟩
  have rooted : m.ClassAtRoot → ∃ p : Path, p.root ≠ .relative ∧ FileSystem.up ∉ p.parts ∧
      ∀ out, outputPath out v m = p := by
    intro atRoot
    have root : (Path.ofText (classDirectory m)).root ≠ .relative := fun relative =>
      (root_classDirectory m).1 relative atRoot
    refine ⟨⟨(Path.ofText (classDirectory m)).root,
      (Path.ofText (classDirectory m)).parts ++ [fileName v m]⟩, root, up, fun out => ?_⟩
    rw [outputPath_eq, Path.join, if_neg root]
  refine ⟨⟨fun below atRoot => ?_, fun relative out => ?_⟩, rooted⟩
  · obtain ⟨p, root, -, same⟩ := rooted atRoot
    have start := (below {}).1
    rw [same] at start
    exact root start
  · rw [outputPath_eq, Path.join, if_pos ((root_classDirectory m).2 relative)]
    exact ⟨rfl, _, List.append_assoc _ _ _, by simp, up⟩

/-- A method of a class whose name starts with a point. -/
def rootedMethod : Method where
  className := lit ".p.A"
  shortId := lit "f()V"

theorem rootedMethod_leaves_output :
    outputPath (.ofText (lit "out")) {} rootedMethod = .ofText (lit "/p/A_graphs/f()V.dot") ∧
    ¬ (outputPath (.ofText (lit "out")) {} rootedMethod).IsBelow (.ofText (lit "out")) := by
  have path : outputPath (.ofText (lit "out")) {} rootedMethod
      = .ofText (lit "/p/A_graphs/f()V.dot") := by decide +kernel
  refine ⟨path, fun below => ?_⟩
  have root := below.1
  rw [path] at root
  exact absurd root (by decide +kernel)

end Dot

end FlowGraph
