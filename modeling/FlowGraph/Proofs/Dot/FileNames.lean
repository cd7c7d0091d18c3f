import FlowGraph.Proofs.Dot.OutputPath
import FlowGraph.Proofs.Text.Quoted

/-!
# Files of graphs told apart

The file name of a graph is the escaped short id, then a suffix for the view.  No point is left
in an escaped short id and every suffix starts with one, so the file name tells both
(`fileName_eq_iff`), whatever the short id is.

The path of a graph is that of its directory with the file name behind it, by its components and
also as a text (`text_outputPath`).  A file name has no slash, so it is found again behind the
last one.  The graphs of two views are therefore never written to one path
(`outputPath_eq_iff`).
-/

namespace FlowGraph

/-! ## Texts cut at a character -/

namespace Text

/-- A text is cut at the first occurrence of a character in one way. -/
theorem append_cons_inj {c : Char} {s t u v : Text} (hs : c ∉ s) (ht : c ∉ t)
    (h : s ++ c :: u = t ++ c :: v) : s = t ∧ u = v := by
  have front : ∀ {w : Text}, c ∉ w → ∀ x : Text, (w ++ c :: x).takeWhile (· ≠ c) = w := by
    intro w hw x
    have others : ∀ d ∈ w, decide (d ≠ c) = true := fun d hd =>
      decide_eq_true fun same => hw (same ▸ hd)
    rw [List.takeWhile_append_of_pos others, List.takeWhile_cons_of_neg (by simp),
      List.append_nil]
  have same : s = t := by rw [← front hs u, h, front ht v]
  subst same
  exact ⟨rfl, (List.cons.inj (List.append_cancel_left h)).2⟩

/-- A text is cut at the last occurrence of a character in one way. -/
theorem append_cons_inj_last {c : Char} {s t u v : Text} (hu : c ∉ u) (hv : c ∉ v)
    (h : s ++ c :: u = t ++ c :: v) : s = t ∧ u = v := by
  have reversed : u.reverse ++ c :: s.reverse = v.reverse ++ c :: t.reverse := by
    simpa using congrArg List.reverse h
  obtain ⟨last, front⟩ := append_cons_inj (by simpa using hu) (by simpa using hv) reversed
  exact ⟨List.reverse_injective front, List.reverse_injective last⟩

/-- What stands behind the last occurrence of a character ends one of the parts of a text. -/
theorem exists_mem_split_append {c : Char} {t : Text} (h : c ∉ t) (s : Text) :
    ∃ w, w ++ t ∈ split c (s ++ t) := by
  induction s with
  | nil => exact ⟨[], by rw [List.nil_append, split_of_not_mem h]; exact List.mem_cons_self⟩
  | cons d s ih =>
      obtain ⟨w, mem⟩ := ih
      rw [List.cons_append, split]
      by_cases cut : d = c
      · rw [if_pos cut]
        exact ⟨w, List.mem_cons_of_mem _ mem⟩
      · rw [if_neg cut]
        cases parts : split c (s ++ t) with
        | nil =>
            rw [parts] at mem
            cases mem
        | cons first rest =>
            rw [parts] at mem
            rcases List.mem_cons.1 mem with same | mem
            · exact ⟨d :: w, by rw [← same]; exact List.mem_cons_self⟩
            · exact ⟨w, List.mem_cons_of_mem _ mem⟩

/-- The last text stands behind a separator, if there are texts before it. -/
theorem intercalate_concat (separator : Text) {ts : List Text} (ne : ts ≠ []) (t : Text) :
    List.intercalate separator (ts ++ [t]) = List.intercalate separator ts ++ separator ++ t := by
  obtain ⟨first, rest, rfl⟩ := List.exists_cons_of_ne_nil ne
  rw [List.cons_append, intercalate_cons, intercalate_cons]
  simp

end Text

/-- A component is written behind a slash, unless it is the first. -/
theorem Path.text_concat {p : Path} (ne : p.parts ≠ []) (name : Text) :
    Path.text { p with parts := p.parts ++ [name] } = p.text ++ '/' :: name := by
  have whole : p ≠ {} := fun same => ne (by rw [same])
  have longer : { p with parts := p.parts ++ [name] } ≠ ({} : Path) := by
    intro same
    have empty := congrArg Path.parts same
    simp at empty
  rw [Path.text, Path.text, if_neg longer, if_neg whole, Text.intercalate_concat _ ne]
  simp

namespace Dot

/-! ## File names -/

theorem exists_fileSuffix (v : View) : ∃ t, fileSuffix v = '.' :: t := by
  obtain ⟨regions, raw⟩ := v
  cases regions with
  | false => cases raw <;> exact ⟨_, rfl⟩
  | true => exact ⟨_, rfl⟩

theorem fileSuffix_injective {v v' : View} (h : fileSuffix v = fileSuffix v') : v = v' := by
  have length : ∀ regions raw, (fileSuffix ⟨regions, raw⟩).length
      = (if regions then 8 else 0) + (if raw then 4 else 0) + 4 := by decide
  obtain ⟨regions, raw⟩ := v
  obtain ⟨regions', raw'⟩ := v'
  have same := congrArg List.length h
  rw [length, length] at same
  revert same
  revert regions raw regions' raw'
  decide

/-- The file name of a graph tells the view and what the short id becomes. -/
theorem fileName_eq_iff {v v' : View} {m m' : Method} : fileName v m = fileName v' m' ↔
    v = v' ∧ escapeFileName m.shortId = escapeFileName m'.shortId := by
  constructor
  · intro h
    rw [fileName_eq, fileName_eq] at h
    obtain ⟨t, suffix⟩ := exists_fileSuffix v
    obtain ⟨t', suffix'⟩ := exists_fileSuffix v'
    rw [suffix, suffix'] at h
    obtain ⟨short, rest⟩ := Text.append_cons_inj (not_mem_escapeFileName (.inr rfl) _)
      (not_mem_escapeFileName (.inr rfl) _) h
    exact ⟨fileSuffix_injective (by rw [suffix, suffix', rest]), short⟩
  · rintro ⟨rfl, short⟩
    rw [fileName_eq, fileName_eq, short]

/-! ## Paths -/

/-- The directory of a class has a component, since its name ends in a word. -/
theorem parts_classDirectory_ne_nil (m : Method) : (Path.ofText (classDirectory m)).parts ≠ [] := by
  obtain ⟨w, mem⟩ := Text.exists_mem_split_append (c := '/') (t := lit "_graphs") (by decide)
    m.classPath
  have kept : Path.keeps (w ++ lit "_graphs") = true := by
    have length : 7 ≤ (w ++ lit "_graphs").length := by simp [lit]
    have nonempty : w ++ lit "_graphs" ≠ [] := by
      intro same
      simp [same] at length
    have point : w ++ lit "_graphs" ≠ ['.'] := by
      intro same
      simp [same] at length
    simp [Path.keeps, nonempty, point]
  exact List.ne_nil_of_mem (List.mem_filter.2 ⟨mem, kept⟩)

theorem parts_parent_ne_nil (out : Path) (v : View) (m : Method) :
    (outputPath out v m).parent.parts ≠ [] := by
  rw [outputPath_eq, Path.parent, List.dropLast_concat, Path.join]
  split
  · exact List.append_ne_nil_of_right_ne_nil _ (parts_classDirectory_ne_nil m)
  · exact parts_classDirectory_ne_nil m

/-- The path of a graph is its parent with the file name. -/
theorem outputPath_eq_parent (out : Path) (v : View) (m : Method) : outputPath out v m =
    { (outputPath out v m).parent with
      parts := (outputPath out v m).parent.parts ++ [fileName v m] } := by
  rw [outputPath_eq, Path.parent, List.dropLast_concat]

theorem text_outputPath (out : Path) (v : View) (m : Method) :
    (outputPath out v m).text = (outputPath out v m).parent.text ++ '/' :: fileName v m := by
  rw [← Path.text_concat (parts_parent_ne_nil out v m), ← outputPath_eq_parent]

/-- Two graphs have one path exactly if they are of one view, have one parent, and their short
ids become one text.  It is the same with the texts of the paths.  The last component is what the
short id becomes and the suffix of the view, whatever the short id is. -/
theorem outputPath_eq_iff (out out' : Path) (v v' : View) (m m' : Method) :
    (outputPath out v m = outputPath out' v' m' ↔
      (outputPath out v m).parent = (outputPath out' v' m').parent ∧
        v = v' ∧ escapeFileName m.shortId = escapeFileName m'.shortId) ∧
    ((outputPath out v m).text = (outputPath out' v' m').text ↔
      (outputPath out v m).parent.text = (outputPath out' v' m').parent.text ∧
        v = v' ∧ escapeFileName m.shortId = escapeFileName m'.shortId) ∧
    (outputPath out v m).parts.getLast? = some
      (escapeFileName m.shortId ++ (if v.regions then lit ".regions" else [])
        ++ (if v.raw then lit ".raw" else []) ++ lit ".dot") := by
  refine ⟨⟨fun same => ?_, fun ⟨parent, name⟩ => ?_⟩,
    ⟨fun same => ?_, fun ⟨parent, name⟩ => ?_⟩, ?_⟩
  · have last : fileName v m = fileName v' m' := by
      have parts := congrArg (fun p : Path => p.parts.getLast?) same
      simpa [outputPath_eq] using parts
    exact ⟨congrArg Path.parent same, fileName_eq_iff.1 last⟩
  · rw [outputPath_eq_parent out, outputPath_eq_parent out', parent, fileName_eq_iff.2 name]
  · rw [text_outputPath, text_outputPath] at same
    obtain ⟨parent, last⟩ := Text.append_cons_inj_last (slash_not_mem_fileName v m)
      (slash_not_mem_fileName v' m') same
    exact ⟨parent, fileName_eq_iff.1 last⟩
  · rw [text_outputPath, text_outputPath, parent, fileName_eq_iff.2 name]
  · rw [outputPath_eq]
    exact List.getLast?_concat

/-- A short id that imitates a suffix, and one of which nothing is left. -/
example :
    (outputPath (.ofText (lit "out")) {} { className := lit "p.A", shortId := lit "f.raw" }).text
        = lit "out/p/A_graphs/f_raw.dot" ∧
      (outputPath (.ofText (lit "out")) { raw := true }
          { className := [], shortId := lit ">?*" }).text
        = lit "out/_graphs/.raw.dot" := by
  decide +kernel

end Dot

end FlowGraph
