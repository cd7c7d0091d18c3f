import FlowGraph.Method.Outline
import FlowGraph.Proofs.Method.Keys
import FlowGraph.Proofs.Text.Blank
import FlowGraph.Proofs.Text.Quoted

/-!
# Indented lines

A *sketch* is a forest of lines.  Each line stands before the lines that belong to it, which
stand one level deeper.  The rows of a sketch are its lines with their levels, and they
determine it: the lines that belong to a line are those up to the next one that is not deeper
(`rows_append_inj`).

`readRows` finds the rows of a text by its blanks.  It gives the rows of the sketch that was
written (`readRows_written`), but for the blanks at the ends of lines, which the text has lost
at its own end.
-/

namespace FlowGraph

theorem Forest.forall_mem_labels_node {ρ β : Type} {p : ρ → Prop} {r : ρ}
    {body rest : Forest ρ β} : (∀ s ∈ (Forest.node r body rest).labels, p s)
      ↔ p r ∧ (∀ s ∈ body.labels, p s) ∧ ∀ s ∈ rest.labels, p s := by
  rw [labels, List.forall_mem_cons, List.forall_mem_append]

/-! ## Sketches -/

/-- Lines with the lines below them. -/
abbrev Sketch := Forest Text Empty

namespace Sketch

/-- The lines of a sketch with their levels. -/
def rows : Nat → Sketch → List (Nat × Text)
  | _, .nil => []
  | _, .leaf b _ => nomatch b
  | level, .node t body rest => (level, t) :: (rows (level + 1) body ++ rows level rest)

theorem level_lt_of_head? {level : Nat} (f : Sketch) {r : List (Nat × Text)}
    (h : ∀ p ∈ r.head?, p.1 < level) : ∀ p ∈ (rows level f ++ r).head?, p.1 < level + 1 := by
  cases f with
  | nil => exact fun p hp => Nat.lt_succ_of_lt (h p hp)
  | leaf b => cases b
  | node t body rest =>
      rintro p ⟨⟩
      exact Nat.lt_succ_self level

/-- The rows of a sketch end where a row of a lower level follows, and determine the sketch. -/
theorem rows_append_inj {level : Nat} {f g : Sketch} {r s : List (Nat × Text)}
    (hr : ∀ p ∈ r.head?, p.1 < level) (hs : ∀ p ∈ s.head?, p.1 < level)
    (h : rows level f ++ r = rows level g ++ s) : f = g ∧ r = s := by
  induction f generalizing level g r s with
  | nil =>
      cases g with
      | nil => exact ⟨rfl, h⟩
      | leaf b => cases b
      | node u body rest =>
          rw [show r = (level, u) :: _ from h] at hr
          exact absurd (hr _ rfl) (Nat.lt_irrefl level)
  | leaf b => cases b
  | node t body rest ihBody ihRest =>
      cases g with
      | nil =>
          rw [show s = (level, t) :: _ from h.symm] at hs
          exact absurd (hs _ rfl) (Nat.lt_irrefl level)
      | leaf b => cases b
      | node u body' rest' =>
          simp only [rows, List.cons_append, List.append_assoc, List.cons.injEq, Prod.mk.injEq,
            true_and] at h
          obtain ⟨rfl, below⟩ := h
          -- What is below a line ends where a row of its own level or of a lower one follows.
          obtain ⟨rfl, after⟩ :=
            ihBody (level_lt_of_head? rest hr) (level_lt_of_head? rest' hs) below
          obtain ⟨rfl, rfl⟩ := ihRest hr hs after
          exact ⟨rfl, rfl⟩

theorem rows_injective {level : Nat} {f g : Sketch} (h : rows level f = rows level g) : f = g := by
  have whole : rows level f ++ [] = rows level g ++ [] := by rw [h]
  exact (rows_append_inj (by simp) (by simp) whole).1

theorem rows_mapLabels (u : Text → Text) (level : Nat) (f : Sketch) :
    rows level (f.mapLabels u) = (rows level f).map fun p => (p.1, u p.2) := by
  induction f generalizing level with
  | nil => rfl
  | leaf b => cases b
  | node t body rest ihBody ihRest => simp [Forest.mapLabels, rows, ihBody, ihRest]

theorem snd_mem_labels {level : Nat} {f : Sketch} {p : Nat × Text} (h : p ∈ rows level f) :
    p.2 ∈ f.labels := by
  induction f generalizing level with
  | nil => cases h
  | leaf b => cases b
  | node t body rest ihBody ihRest =>
      rcases List.mem_cons.1 h with rfl | h
      · exact List.mem_cons_self
      · refine List.mem_cons_of_mem t ?_
        rcases List.mem_append.1 h with h | h
        · exact List.mem_append_left _ (ihBody h)
        · exact List.mem_append_right _ (ihRest h)

/-- The lines of a sketch, indented by their levels. -/
def lines (level : Nat) (f : Sketch) : List Text := (rows level f).map fun p => indented p.1 p.2

/-- The sketch without blanks at the ends of its lines. -/
def trimmed (f : Sketch) : Sketch := f.mapLabels Text.trimEnd

/-! ## Reading lines -/

/-- The level of a line and what stands behind its blanks. -/
def readLine (t : Text) : Nat × Text :=
  ((t.takeWhile (· = ' ')).length / 2, t.dropWhile (· = ' '))

theorem readLine_indented (level : Nat) {t : Text} (h : t.StartsDark) :
    readLine (indented level t) = (level, t) := by
  obtain ⟨c, u, rfl, dark⟩ := h
  have other : c ≠ ' ' := by
    rintro rfl
    exact absurd dark (by decide)
  have blanks : ∀ d ∈ List.replicate (2 * level) ' ', (decide (d = ' ')) = true := fun d hd =>
    decide_eq_true (List.eq_of_mem_replicate hd)
  rw [readLine, indented, List.takeWhile_append_of_pos blanks, List.dropWhile_append_of_pos blanks,
    List.takeWhile_cons_of_neg (by simp [other]), List.dropWhile_cons_of_neg (by simp [other])]
  simp

/-- The rows of a text. -/
def readRows (t : Text) : List (Nat × Text) :=
  (t.splitOn '\n').map fun line => readLine (Text.trimEnd line)

/-- Whether every line of a sketch can be told from its blanks and from other lines. -/
def Readable (f : Sketch) : Prop := ∀ t ∈ f.labels, Text.IsLine t

theorem readLine_trimEnd_indented (level : Nat) {t : Text} (h : Text.StartsDark t) :
    readLine (Text.trimEnd (indented level t)) = (level, Text.trimEnd t) := by
  rw [indented, Text.trimEnd_append h.exists_dark]
  exact readLine_indented level h.trimEnd

theorem line_not_mem_indented {t : Text} (h : '\n' ∉ t) (level : Nat) :
    '\n' ∉ indented level t := by
  intro mem
  rcases List.mem_append.1 mem with blank | mem
  · exact absurd (List.eq_of_mem_replicate blank) (by decide)
  · exact h mem

/-- The rows of lines that stand one below the other, the last of which lost its blanks. -/
theorem readRows_intercalate {ts : List Text} {t : Text} (hts : ∀ s ∈ ts, '\n' ∉ s)
    (ht : '\n' ∉ t) :
    readRows (List.intercalate ['\n'] (ts ++ [Text.trimEnd t]))
      = (ts ++ [t]).map fun line => readLine (Text.trimEnd line) := by
  have apart : ∀ s ∈ ts ++ [Text.trimEnd t], '\n' ∉ s := by
    intro s hs
    rcases List.mem_append.1 hs with hs | hs
    · exact hts s hs
    · rw [List.mem_singleton.1 hs]
      exact fun mem => ht (Text.trimEnd_subset t mem)
  rw [readRows, List.splitOn_intercalate _ apart (by simp)]
  simp [Text.trimEnd_trimEnd]

/-- The first line of a sketch is not indented, so that the sketch starts with its label. -/
theorem trim_lines {f : Sketch} (hf : f.Readable) :
    Text.trim (List.intercalate ['\n'] (lines 0 f))
      = Text.trimEnd (List.intercalate ['\n'] (lines 0 f)) := by
  cases f with
  | nil => rfl
  | leaf b => cases b
  | node t body rest =>
      obtain ⟨c, u, rfl, dark⟩ := (hf t List.mem_cons_self).1
      refine Text.trim_eq_trimEnd ?_
      rw [lines, rows, List.map_cons, Text.intercalate_cons]
      rintro d ⟨⟩
      exact dark

/-- The rows of a sketch are read from its lines, but for the blanks at their ends. -/
theorem readRows_written {f : Sketch} (hf : f.Readable) (ne : f ≠ .nil) :
    readRows (Text.trim (List.intercalate ['\n'] (lines 0 f)))
      = rows 0 f.trimmed := by
  have line : ∀ p ∈ rows 0 f, Text.IsLine p.2 := fun p hp => hf _ (snd_mem_labels hp)
  have some : rows 0 f ≠ [] := by
    cases f with
    | nil => exact absurd rfl ne
    | leaf b => cases b
    | node t body rest => exact List.cons_ne_nil _ _
  obtain ⟨front, last, whole⟩ := (List.eq_nil_or_concat' _).resolve_left some
  have lastLine : Text.IsLine last.2 := line last (by simp [whole])
  have split : lines 0 f
      = (front.map fun p => indented p.1 p.2) ++ [indented last.1 last.2] := by
    rw [lines, whole, List.map_append]
    rfl
  -- Only the last line can lose blanks, since it has a character that is not blank.
  obtain ⟨before, joined⟩ :=
    Text.exists_intercalate_concat ['\n'] (front.map fun p => indented p.1 p.2)
  have dark : ∃ c ∈ indented last.1 last.2, Text.isBlank c = false := by
    obtain ⟨c, mem, dark⟩ := lastLine.1.exists_dark
    exact ⟨c, List.mem_append_right _ mem, dark⟩
  have apart : ∀ s ∈ front.map fun p => indented p.1 p.2, '\n' ∉ s := by
    intro s hs
    obtain ⟨p, hp, rfl⟩ := List.mem_map.1 hs
    exact line_not_mem_indented (line p (by simp [whole, hp])).2 p.1
  rw [trim_lines hf, split, joined, Text.trimEnd_append dark, ← joined,
    readRows_intercalate apart (line_not_mem_indented lastLine.2 last.1), ← split, lines,
    List.map_map, trimmed, rows_mapLabels]
  exact List.map_congr_left fun p hp => readLine_trimEnd_indented p.1 (line p hp).1

/-- A text determines the sketch it shows, but for blanks at the ends of lines. -/
theorem trimmed_eq_of_written {f g : Sketch} (hf : f.Readable) (hg : g.Readable)
    (hf' : f ≠ .nil) (hg' : g ≠ .nil)
    (h : Text.trim (List.intercalate ['\n'] (lines 0 f))
      = Text.trim (List.intercalate ['\n'] (lines 0 g))) :
    f.trimmed = g.trimmed := by
  have same : rows 0 f.trimmed = rows 0 g.trimmed := by
    rw [← readRows_written hf hf', h, readRows_written hg hg']
  exact rows_injective same

end Sketch

end FlowGraph
