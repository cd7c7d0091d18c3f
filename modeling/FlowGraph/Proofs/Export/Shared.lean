import FlowGraph.Proofs.Dot.OutputPath
import FlowGraph.Proofs.FileSystem.Growth

/-!
# Graphs in one file

The paths of two graphs may lead to one file, since not every character of a short id is kept
in the name of the file.  `sameFile_iff` says when: if they lead to one directory and the short
ids become the same text there.

A path leads to a file through its parent (`FileSystem.locate_parent`), and below an output
directory the directories of two classes are the same just if their names are, as paths
(`locate_parent_eq_iff`).
-/

namespace FlowGraph

/-! ## Paths of graphs -/

namespace Dot

variable {fs : FileSystem} {out : Path} {v : View} {m m' : Method}

theorem parent_outputPath (out : Path) (v : View) (m : Method) :
    (outputPath out v m).parent = out.join (.ofText (classDirectory m)) := by
  rw [outputPath_eq, Path.parent, List.dropLast_concat]

/-- The path of a graph leads to a file in the directory of the class. -/
theorem locate_outputPath {l : Location} (found : fs.locate (outputPath out v m) = .ok l) :
    ∃ dir, fs.locate (outputPath out v m).parent = .ok dir ∧ l = dir ++ [fileName v m] := by
  refine FileSystem.locate_parent ?_ (fileName_ne_up v m) found
  rw [outputPath_eq]
  simp

/-- Whether the paths of two graphs lead to one file. -/
def SameFile (fs : FileSystem) (out : Path) (v : View) (m m' : Method) : Prop :=
  ∃ l, fs.locate (outputPath out v m) = .ok l ∧ fs.locate (outputPath out v m') = .ok l

/-- Two graphs are in one file just if they are in one directory and their short ids become
the same text. -/
theorem sameFile_iff {l l' : Location} (found : fs.locate (outputPath out v m) = .ok l)
    (found' : fs.locate (outputPath out v m') = .ok l') :
    SameFile fs out v m m' ↔
      fs.locate (outputPath out v m).parent = fs.locate (outputPath out v m').parent ∧
      escapeFileName m.shortId = escapeFileName m'.shortId := by
  obtain ⟨dir, above, rfl⟩ := locate_outputPath found
  obtain ⟨dir', above', rfl⟩ := locate_outputPath found'
  constructor
  · rintro ⟨l, at_, at_'⟩
    cases found.symm.trans at_
    have same : dir' ++ [fileName v m'] = dir ++ [fileName v m] :=
      Except.ok.inj (found'.symm.trans at_')
    obtain ⟨sameDir, sameName⟩ := List.append_inj' same rfl
    rw [fileName_eq, fileName_eq, List.singleton_inj] at sameName
    rw [above, above', sameDir]
    exact ⟨rfl, (List.append_cancel_right sameName).symm⟩
  · rintro ⟨same, short⟩
    cases above.symm.trans (same.trans above')
    refine ⟨_, found, found'.trans ?_⟩
    rw [fileName_eq, fileName_eq, short]

/-- The directory of a class is the output directory with the name of the class added. -/
theorem locate_parent_outputPath {dir : Location} (relative : ¬ m.ClassAtRoot)
    (found : fs.locate (outputPath out v m).parent = .ok dir) :
    ∃ top, fs.follow (fs.start out) out.parts = .ok top ∧
      dir = top ++ (Path.ofText (classDirectory m)).parts := by
  rw [parent_outputPath, Path.join, if_pos ((root_classDirectory m).2 relative)] at found
  obtain ⟨top, above, below⟩ := FileSystem.follow_append.1 (FileSystem.locate_eq_ok.1 found).2
  exact ⟨top, above,
    (FileSystem.eq_resolve_of_follow below).trans
      (FileSystem.resolve_down (Path.up_not_mem_parts (point_not_mem_classDirectory m)))⟩

/-- Below the output directory the directories of two classes are the same just if their names
are, as paths. -/
theorem locate_parent_eq_iff {dir : Location} (relative : ¬ m.ClassAtRoot)
    (relative' : ¬ m'.ClassAtRoot) (found : fs.locate (outputPath out v m).parent = .ok dir) :
    fs.locate (outputPath out v m).parent = fs.locate (outputPath out v m').parent ↔
      (Path.ofText (classDirectory m)).parts = (Path.ofText (classDirectory m')).parts := by
  constructor
  · intro same
    obtain ⟨top, above, rfl⟩ := locate_parent_outputPath relative found
    obtain ⟨top', above', both⟩ := locate_parent_outputPath relative' (same ▸ found)
    cases above.symm.trans above'
    exact List.append_cancel_left both
  · intro same
    rw [parent_outputPath, parent_outputPath, Path.join, Path.join,
      if_pos ((root_classDirectory m).2 relative), if_pos ((root_classDirectory m').2 relative'),
      same]

end Dot

end FlowGraph
