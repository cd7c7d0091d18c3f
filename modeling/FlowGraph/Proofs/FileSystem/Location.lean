import FlowGraph.FileSystem
import Mathlib.Data.List.Basic

/-!
# Where paths lead

A file system has no links, so the location that a path leads to does not depend on what is
there: `resolve` is that location, and a path that leads anywhere leads to it
(`eq_resolve_of_follow`).  A path leads to its last component through its parent
(`locate_parent`), and on the way to a directory there are only directories
(`directory_of_beginning`).
-/

namespace FlowGraph.FileSystem

/-! ## Entries -/

theorem lookup_filter_ne {l k : Location} (h : k ≠ l) (es : List (Location × Entry)) :
    (es.filter fun p => p.1 ≠ l).lookup k = es.lookup k := by
  induction es with
  | nil => rfl
  | cons p es ih =>
      by_cases same : p.1 = l
      · rw [List.filter_cons_of_neg (by simp [same]), ih, List.lookup_cons]
        have other : (k == p.1) = false := by simp [same, h]
        rw [other]
      · rw [List.filter_cons_of_pos (by simp [same]), List.lookup_cons, List.lookup_cons, ih]

/-- What is at a location after something was put at one. -/
theorem get?_put {fs : FileSystem} {l k : Location} {e : Entry} (hl : l ≠ []) :
    (fs.put l e).get? k = if k = l then some e else fs.get? k := by
  unfold get? put
  by_cases root : k = []
  · rw [if_pos root, if_pos root, root, if_neg (Ne.symm hl)]
  · rw [if_neg root, if_neg root, List.lookup_cons]
    by_cases same : k = l
    · simp [same]
    · have other : (k == l) = false := by simp [same]
      rw [other, if_neg same]
      exact lookup_filter_ne same _

/-! ## Following paths -/

variable {fs : FileSystem}

/-- One step on the way through some components. -/
theorem follow_cons {here l : Location} {part : Text} {rest : List Text} :
    fs.follow here (part :: rest) = .ok l ↔ fs.get? here = some .directory ∧
      (part = up ∧ fs.follow here.dropLast rest = .ok l ∨
        part ≠ up ∧ byteLength part ≤ nameLimit ∧ ∃ e, fs.get? (here ++ [part]) = some e ∧
          fs.follow (here ++ [part]) rest = .ok l) := by
  rw [follow]
  cases fs.get? here with
  | none => simp
  | some e =>
      cases e with
      | file c => simp
      | directory =>
          by_cases isUp : part = up
          · simp [isUp]
          · by_cases long : byteLength part > nameLimit
            · simp [isUp, long, Nat.not_le.2 long]
            · cases fs.get? (here ++ [part]) with
              | none => simp [isUp, long]
              | some e => simp [isUp, long, Nat.le_of_not_gt long]

/-- Some components, and then some more. -/
theorem follow_append {here l : Location} {parts rest : List Text} :
    fs.follow here (parts ++ rest) = .ok l ↔
      ∃ mid, fs.follow here parts = .ok mid ∧ fs.follow mid rest = .ok l := by
  induction parts generalizing here with
  | nil => simp [follow]
  | cons part parts ih =>
      rw [List.cons_append, follow_cons]
      simp only [follow_cons, ih]
      constructor
      · rintro ⟨inside, ⟨isUp, mid, first, second⟩ | ⟨notUp, short, e, below, mid, first, second⟩⟩
        · exact ⟨mid, ⟨inside, .inl ⟨isUp, first⟩⟩, second⟩
        · exact ⟨mid, ⟨inside, .inr ⟨notUp, short, e, below, first⟩⟩, second⟩
      · rintro ⟨mid, ⟨inside, ⟨isUp, first⟩ | ⟨notUp, short, e, below, first⟩⟩, second⟩
        · exact ⟨inside, .inl ⟨isUp, mid, first, second⟩⟩
        · exact ⟨inside, .inr ⟨notUp, short, e, below, mid, first, second⟩⟩

/-- One component that does not lead up. -/
theorem follow_singleton {here l : Location} {part : Text} (notUp : part ≠ up) :
    fs.follow here [part] = .ok l ↔ l = here ++ [part] ∧ fs.get? here = some .directory ∧
      byteLength part ≤ nameLimit ∧ ∃ e, fs.get? l = some e := by
  rw [follow_cons]
  simp only [follow, notUp, false_and, false_or, ne_eq, not_false_eq_true, true_and,
    Except.ok.injEq]
  constructor
  · rintro ⟨inside, short, e, below, rfl⟩
    exact ⟨rfl, inside, short, e, below⟩
  · rintro ⟨rfl, inside, short, e, below⟩
    exact ⟨inside, short, e, below, rfl⟩

/-! ## Locations of components -/

/-- The location that components lead to from another one, whatever is there. -/
def resolve : Location → List Text → Location
  | here, [] => here
  | here, part :: rest =>
      if part = up then resolve here.dropLast rest else resolve (here ++ [part]) rest

theorem resolve_append {here : Location} {parts rest : List Text} :
    resolve here (parts ++ rest) = resolve (resolve here parts) rest := by
  induction parts generalizing here with
  | nil => rfl
  | cons part parts ih =>
      rw [List.cons_append, resolve, resolve]
      split
      · exact ih
      · exact ih

/-- Components of which none leads up are those added to the location. -/
theorem resolve_down {here : Location} {parts : List Text} (down : up ∉ parts) :
    resolve here parts = here ++ parts := by
  induction parts generalizing here with
  | nil => exact (List.append_nil _).symm
  | cons part rest ih =>
      obtain ⟨notUp, down⟩ := not_or.1 (mt List.mem_cons.2 down)
      rw [resolve, if_neg (Ne.symm notUp), ih down, List.append_assoc]
      rfl

/-- A path leads to one more component than its parent, unless that one leads up. -/
theorem resolve_of_getLast? {here : Location} {parts : List Text} {part : Text}
    (last : part ∈ parts.getLast?) (notUp : part ≠ up) :
    resolve here parts = resolve here parts.dropLast ++ [part] := by
  conv_lhs => rw [← List.dropLast_append_getLast? part last]
  rw [resolve_append, resolve, if_neg notUp, resolve]

/-- Components that lead anywhere lead to their location. -/
theorem eq_resolve_of_follow {here l : Location} {parts : List Text}
    (found : fs.follow here parts = .ok l) : l = resolve here parts := by
  induction parts generalizing here with
  | nil =>
      cases found
      rfl
  | cons part rest ih =>
      rw [resolve]
      rcases (follow_cons.1 found).2 with ⟨isUp, found⟩ | ⟨notUp, -, -, -, found⟩
      · rw [if_pos isUp]
        exact ih found
      · rw [if_neg notUp]
        exact ih found

theorem locate_eq_ok {p : Path} {l : Location} :
    fs.locate p = .ok l ↔
      byteLength p.text < pathLimit ∧ fs.follow (fs.start p) p.parts = .ok l := by
  rw [locate]
  split
  · next long => simp [Nat.not_lt.2 long]
  · next short => simp [Nat.lt_of_not_ge short]

/-! ## Parents of paths -/

theorem prefix_intercalate_dropLast (sep : Text) (parts : List Text) :
    sep.intercalate parts.dropLast <+: sep.intercalate parts := by
  induction parts with
  | nil => exact List.prefix_refl _
  | cons part rest ih =>
      cases rest with
      | nil => exact List.nil_prefix
      | cons next rest =>
          rw [List.dropLast_cons_cons, List.intercalate_cons_cons]
          by_cases last : (next :: rest).dropLast = []
          · rw [last, List.intercalate_singleton, List.append_assoc]
            exact List.prefix_append _ _
          · rw [List.intercalate_cons_of_ne_nil last]
            exact (List.prefix_append_right_inj _).2 ih

theorem byteLength_mono {s t : Text} (h : s <+: t) : byteLength s ≤ byteLength t := by
  obtain ⟨rest, rfl⟩ := h
  simp [byteLength, Text.encode]

/-- The parent of a path is no longer, if the path is not the working directory. -/
theorem byteLength_text_parent {p : Path} (short : byteLength p.text < pathLimit) :
    byteLength p.parent.text < pathLimit := by
  by_cases top : p.parent = {}
  · rw [top]
    decide
  · have notTop : p ≠ {} := by
      intro same
      rw [same] at top
      exact top rfl
    rw [Path.text, if_neg notTop] at short
    rw [Path.text, if_neg top]
    refine Nat.lt_of_le_of_lt (byteLength_mono ?_) short
    exact (List.prefix_append_right_inj _).2 (prefix_intercalate_dropLast _ _)

/-- A path leads to an entry of the directory that its parent leads to. -/
theorem locate_parent {p : Path} {l : Location} {part : Text} (last : part ∈ p.parts.getLast?)
    (notUp : part ≠ up) (found : fs.locate p = .ok l) :
    ∃ dir, fs.locate p.parent = .ok dir ∧ l = dir ++ [part] := by
  obtain ⟨short, found⟩ := locate_eq_ok.1 found
  rw [← List.dropLast_append_getLast? part last] at found
  obtain ⟨dir, above, found⟩ := follow_append.1 found
  exact ⟨dir, locate_eq_ok.2 ⟨byteLength_text_parent short, above⟩,
    ((follow_singleton notUp).1 found).1⟩

/-! ## Paths that lead to directories -/

/-- Whether there is a file at a location. -/
def HasFile (fs : FileSystem) (l : Location) : Prop := ∃ c, fs.get? l = some (.file c)

/-- Whether a path leads to a directory. -/
def HasDirectory (fs : FileSystem) (p : Path) : Prop :=
  ∃ l, fs.locate p = .ok l ∧ fs.get? l = some .directory

/-- Whether everything above a location is a directory. -/
def Anchored (fs : FileSystem) (here : Location) : Prop :=
  ∀ l, l <+: here → l ≠ here → fs.get? l = some .directory

/-- What leads to a directory starts in one. -/
theorem directory_of_follow {here l : Location} {parts : List Text}
    (found : fs.follow here parts = .ok l) (inside : fs.get? l = some .directory) :
    fs.get? here = some .directory := by
  cases parts with
  | nil =>
      cases found
      exact inside
  | cons part rest => exact (follow_cons.1 found).1

/-- On the way to a directory there are only directories. -/
theorem directory_of_beginning {here l : Location} {parts before : List Text}
    (found : fs.follow here parts = .ok l) (inside : fs.get? l = some .directory)
    (h : before <+: parts) : fs.get? (resolve here before) = some .directory := by
  obtain ⟨rest, rfl⟩ := h
  obtain ⟨mid, first, second⟩ := follow_append.1 found
  rw [← eq_resolve_of_follow first]
  exact directory_of_follow second inside

theorem short_of_follow {here l : Location} {parts : List Text} {part : Text}
    (found : fs.follow here parts = .ok l) (mem : part ∈ parts) :
    byteLength part ≤ nameLimit := by
  induction parts generalizing here with
  | nil => cases mem
  | cons first rest ih =>
      rcases (follow_cons.1 found).2 with ⟨isUp, found⟩ | ⟨-, short, -, -, found⟩
      · rcases List.mem_cons.1 mem with rfl | mem
        · rw [isUp]
          decide
        · exact ih found mem
      · rcases List.mem_cons.1 mem with rfl | mem
        · exact short
        · exact ih found mem

/-- The parent of a path that leads to a directory leads to one too. -/
theorem HasDirectory.parent {p : Path} (h : fs.HasDirectory p) : fs.HasDirectory p.parent := by
  obtain ⟨l, found, inside⟩ := h
  obtain ⟨short, found⟩ := locate_eq_ok.1 found
  obtain ⟨rest, same⟩ := List.dropLast_prefix p.parts
  rw [← same] at found
  obtain ⟨dir, above, below⟩ := follow_append.1 found
  exact ⟨dir, locate_eq_ok.2 ⟨byteLength_text_parent short, above⟩,
    directory_of_follow below inside⟩

/-- Components lead only to what has nothing but directories above it. -/
theorem Anchored.follow {here l : Location} {parts : List Text} (h : fs.Anchored here)
    (found : fs.follow here parts = .ok l) : fs.Anchored l := by
  induction parts generalizing here with
  | nil =>
      cases found
      exact h
  | cons part rest ih =>
      obtain ⟨inside, step⟩ := follow_cons.1 found
      have all : ∀ k, k <+: here → fs.get? k = some .directory := by
        intro k hk
        by_cases same : k = here
        · exact same ▸ inside
        · exact h k hk same
      rcases step with ⟨-, found⟩ | ⟨-, -, -, -, found⟩
      · exact ih (fun k hk _ => all k (hk.trans (List.dropLast_prefix _))) found
      · refine ih (fun k hk other => all k ?_) found
        rcases List.prefix_concat_iff.1 hk with same | hk
        · exact absurd same other
        · exact hk

/-- Above a directory there is one. -/
theorem Anchored.directory_dropLast {l : Location} (h : fs.Anchored l)
    (inside : fs.get? l = some .directory) : fs.get? l.dropLast = some .directory := by
  by_cases same : l.dropLast = l
  · rw [same, inside]
  · exact h _ (List.dropLast_prefix _) same

theorem anchored_start (h : fs.Anchored fs.working) (p : Path) : fs.Anchored (fs.start p) := by
  rw [start]
  split
  · exact h
  · intro l hl other
    exact absurd (List.prefix_nil.1 hl) other

/-- The locations on the way to a path, without the one at which it starts. -/
def OnWay (fs : FileSystem) (p : Path) (l : Location) : Prop :=
  ∃ before, before ≠ [] ∧ before <+: p.parts ∧ l = resolve (fs.start p) before

theorem OnWay.of_parent {p : Path} {l : Location} (h : fs.OnWay p.parent l) : fs.OnWay p l := by
  obtain ⟨before, nonempty, hb, rfl⟩ := h
  exact ⟨before, nonempty, hb.trans (List.dropLast_prefix _), rfl⟩

theorem HasDirectory.directory_of_onWay {p : Path} {l : Location} (h : fs.HasDirectory p)
    (onWay : fs.OnWay p l) : fs.get? l = some .directory := by
  obtain ⟨dir, found, inside⟩ := h
  obtain ⟨before, -, hb, rfl⟩ := onWay
  exact directory_of_beginning (locate_eq_ok.1 found).2 inside hb

/-! ## Places for new entries -/

/-- What a place for a new entry is. -/
theorem locateNew_eq_some {p : Path} {l : Location} {part : Text}
    (place : fs.locateNew p = .ok (some (l, part))) :
    byteLength p.text < pathLimit ∧ fs.follow (fs.start p) p.parts.dropLast = .ok l ∧
      fs.get? l = some .directory ∧ part ∈ p.parts.getLast? ∧ part ≠ up ∧
      byteLength part ≤ nameLimit := by
  rw [locateNew] at place
  split at place
  · cases place
  · next long =>
      split at place
      · cases place
      · next dir found =>
          split at place
          · cases place
          · cases place
          · next inside =>
              split at place
              · cases place
              · next last =>
                  split at place
                  · cases place
                  · next notUp =>
                      split at place
                      · cases place
                      · next name =>
                          cases place
                          exact ⟨Nat.lt_of_not_ge long, found, inside, last, notUp,
                            Nat.le_of_not_gt name⟩

/-- The place for a new entry is in the directory that the parent leads to. -/
theorem locateNew_of_directory {p : Path} {l : Location} (short : byteLength p.text < pathLimit)
    (above : fs.follow (fs.start p) p.parts.dropLast = .ok l)
    (inside : fs.get? l = some .directory) :
    fs.locateNew p = match p.parts.getLast? with
      | none => .ok none
      | some part =>
          if part = up then .ok none
          else if byteLength part > nameLimit then .error .nameTooLong
          else .ok (some (l, part)) := by
  rw [locateNew, if_neg (Nat.not_le.2 short), above]
  cases p.parts.getLast? with
  | none => simp only [inside]
  | some part => simp only [inside]

end FlowGraph.FileSystem
