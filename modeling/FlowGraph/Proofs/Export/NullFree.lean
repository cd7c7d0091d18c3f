import FlowGraph.Export
import FlowGraph.Proofs.Dot.OutputPath
import Mathlib.Data.List.Basic

/-!
# Paths without null characters

A path holds a null character just if one of its components does (`Path.hasNull_iff`).  The path
of a graph has its components from the output directory and from the names of the method, and
none of them gets a null character that was not there before (`Method.NullFree.outputPath`).
-/

namespace FlowGraph

/-! ## Null characters in paths -/

theorem mem_intercalate {c d : Char} {parts : List Text} (h : c ≠ d) :
    c ∈ List.intercalate [d] parts ↔ ∃ part ∈ parts, c ∈ part := by
  induction parts with
  | nil => simp
  | cons part rest ih =>
      cases rest with
      | nil => simp
      | cons next rest =>
          rw [List.intercalate_cons_cons, List.mem_append, List.mem_append, ih]
          simp [h]

/-- A path holds a null character just if a component does. -/
theorem Path.hasNull_iff {p : Path} : p.hasNull = true ↔ ∃ part ∈ p.parts, '\x00' ∈ part := by
  rw [Path.hasNull, List.contains_iff_mem, Path.text]
  split
  · next top =>
      rw [top]
      simp
  · rw [List.mem_append, mem_intercalate (by decide)]
    have root : '\x00' ∉ Path.rootText p.root := by cases p.root <;> decide
    simp [root]

theorem Path.hasNull_parent {p : Path} (h : p.hasNull = false) : p.parent.hasNull = false := by
  rw [← Bool.not_eq_true, Path.hasNull_iff] at h ⊢
  rintro ⟨part, mem, null⟩
  exact h ⟨part, (List.dropLast_prefix _).subset mem, null⟩

/-! ## Paths of graphs -/

/-- Whether neither the name of the class nor the short id holds a null character. -/
structure Method.NullFree (m : Method) : Prop where
  className : '\x00' ∉ m.className
  shortId : '\x00' ∉ m.shortId

theorem Method.NullFree.classDirectory {m : Method} (h : m.NullFree) :
    '\x00' ∉ Dot.classDirectory m := by
  rw [Dot.classDirectory, List.mem_append]
  refine not_or.2 ⟨?_, by decide⟩
  intro mem
  obtain ⟨c, hc, mem⟩ := List.mem_flatMap.1 mem
  split at mem
  · cases List.mem_singleton.1 mem
  · cases List.mem_singleton.1 mem
    exact h.className hc

theorem Method.NullFree.fileName {m : Method} (h : m.NullFree) (v : Dot.View) :
    '\x00' ∉ Dot.fileName v m := by
  have suffix : '\x00' ∉ Dot.fileSuffix v := by
    obtain ⟨regions, raw⟩ := v
    cases regions <;> cases raw <;> decide
  rw [Dot.fileName_eq, List.mem_append]
  refine not_or.2 ⟨?_, suffix⟩
  intro mem
  obtain ⟨c, hc, mem⟩ := List.mem_flatMap.1 mem
  rw [Dot.fileNameChar] at mem
  split at mem
  · cases List.mem_singleton.1 mem
  · split at mem
    · cases List.mem_singleton.1 mem
    · split at mem
      · cases mem
      · cases List.mem_singleton.1 mem
        exact h.shortId hc

/-- The path of a graph holds no null character if neither the output directory does nor the
names of the method. -/
theorem Method.NullFree.outputPath {m : Method} (h : m.NullFree) {out : Path}
    (plain : out.hasNull = false) (v : Dot.View) : (Dot.outputPath out v m).hasNull = false := by
  rw [← Bool.not_eq_true, Path.hasNull_iff] at plain ⊢
  rintro ⟨part, mem, null⟩
  rw [Dot.outputPath_eq] at mem
  rcases List.mem_append.1 mem with mem | mem
  · have own : part ∉ (Path.ofText (Dot.classDirectory m)).parts := by
      intro mem
      exact h.classDirectory (Text.mem_of_mem_split (List.mem_filter.1 mem).1 null)
    rw [Path.join] at mem
    split at mem
    · rcases List.mem_append.1 mem with mem | mem
      · exact plain ⟨part, mem, null⟩
      · exact own mem
    · exact own mem
  · rw [List.mem_singleton.1 mem] at null
    exact h.fileName v null

end FlowGraph
