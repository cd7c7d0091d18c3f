import Mathlib.Data.List.DropRight
import FlowGraph.Text.Basic

/-!
# Blanks at the ends of texts

A text that starts with a character that is not blank is trimmed at its end alone
(`trim_eq_trimEnd`), and there only its last line loses anything (`trimEnd_append`).
-/

namespace FlowGraph.Text

/-- The text without the blanks at its end. -/
def trimEnd (t : Text) : Text := t.rdropWhile isBlank

theorem trim_eq_trimEnd {t : Text} (h : ∀ c ∈ t.head?, isBlank c = false) : trim t = trimEnd t := by
  cases t with
  | nil => rfl
  | cons c t => rw [trim, List.dropWhile_cons_of_neg (by simp [h c rfl])]; rfl

theorem trimEnd_append {t : Text} (h : ∃ c ∈ t, isBlank c = false) (s : Text) :
    trimEnd (s ++ t) = s ++ trimEnd t := by
  have some : t.reverse.dropWhile isBlank ≠ [] := by
    rw [Ne, List.dropWhile_eq_nil_iff]
    obtain ⟨c, hc, dark⟩ := h
    intro all
    rw [all c (List.mem_reverse.2 hc)] at dark
    cases dark
  rw [trimEnd, trimEnd, List.rdropWhile, List.rdropWhile, List.reverse_append,
    List.dropWhile_append, if_neg (by simpa using some), List.reverse_append, List.reverse_reverse]

theorem trimEnd_trimEnd (t : Text) : trimEnd (trimEnd t) = trimEnd t :=
  List.rdropWhile_idempotent ..

theorem trimEnd_subset (t : Text) : trimEnd t ⊆ t := (List.rdropWhile_prefix ..).subset

/-- The visible characters of ASCII are not blank. -/
theorem isBlank_of_visible {c : Char} (low : 0x20 < c.toNat) (high : c.toNat < 0x80) :
    isBlank c = false := by
  have outside : ∀ r ∈ blankRanges, r.2 ≤ 0x20 ∨ 0x80 ≤ r.1 := by decide
  rw [isBlank, List.any_eq_false]
  intro r hr inside
  rw [Bool.and_eq_true, decide_eq_true_eq, decide_eq_true_eq] at inside
  have := outside r hr
  omega

theorem isBlank_of_isDigit {c : Char} (h : c.isDigit = true) : isBlank c = false := by
  have ends : 48 ≤ c.toNat ∧ c.toNat ≤ 57 := by
    simpa [Char.isDigit, UInt32.le_iff_toNat_le] using h
  exact isBlank_of_visible (by omega) (by omega)

/-! ## Starts and ends that are not blank -/

/-- Whether a text starts with a character that is not blank. -/
def StartsDark (t : Text) : Prop := ∃ c u, t = c :: u ∧ isBlank c = false

theorem StartsDark.exists_dark {t : Text} (h : t.StartsDark) : ∃ c ∈ t, isBlank c = false := by
  obtain ⟨c, u, rfl, dark⟩ := h
  exact ⟨c, List.mem_cons_self, dark⟩

/-- Whether a text ends with a character that is not blank. -/
def EndsDark (t : Text) : Prop := ∃ s c, t = s ++ [c] ∧ isBlank c = false

namespace EndsDark

variable {t : Text}

theorem trimEnd_eq (h : t.EndsDark) : trimEnd t = t := by
  obtain ⟨s, c, rfl, dark⟩ := h
  exact List.rdropWhile_concat_neg _ _ _ (by simp [dark])

theorem append (h : t.EndsDark) (s : Text) : EndsDark (s ++ t) := by
  obtain ⟨u, c, rfl, dark⟩ := h
  exact ⟨s ++ u, c, (List.append_assoc ..).symm, dark⟩

/-- Behind one text, texts that do not end in blanks are told apart. -/
theorem append_inj {s u v : Text} (hu : u.EndsDark) (hv : v.EndsDark)
    (h : trimEnd (s ++ u) = trimEnd (s ++ v)) : u = v := by
  rw [(hu.append s).trimEnd_eq, (hv.append s).trimEnd_eq] at h
  exact List.append_cancel_left h

/-- What does not end in blanks loses none, whatever stands behind it. -/
theorem trimEnd_append (h : t.EndsDark) (u : Text) : trimEnd (t ++ u) = t ++ trimEnd u := by
  by_cases dark : ∃ c ∈ u, isBlank c = false
  · exact Text.trimEnd_append dark t
  · have blank : ∀ c ∈ u, isBlank c = true := fun c hc => by
      by_contra ne
      exact dark ⟨c, hc, Bool.eq_false_iff.2 ne⟩
    have nothing : trimEnd u = [] := List.rdropWhile_eq_nil_iff.2 blank
    have dropped : u.reverse.dropWhile isBlank = [] := by
      rw [List.dropWhile_eq_nil_iff]
      exact fun c hc => blank c (List.mem_reverse.1 hc)
    rw [nothing, List.append_nil]
    calc trimEnd (t ++ u) = trimEnd t := by
          simp [trimEnd, List.rdropWhile, List.dropWhile_append, dropped]
      _ = t := h.trimEnd_eq

end EndsDark

/-- The first character stays if it is not blank. -/
theorem trimEnd_cons {c : Char} (dark : isBlank c = false) (t : Text) :
    trimEnd (c :: t) = c :: trimEnd t :=
  EndsDark.trimEnd_append ⟨[], c, rfl, dark⟩ t

theorem StartsDark.trimEnd {t : Text} (h : t.StartsDark) : StartsDark (trimEnd t) := by
  obtain ⟨c, u, rfl, dark⟩ := h
  exact ⟨c, Text.trimEnd u, trimEnd_cons dark u, dark⟩

/-! ## Lines -/

/-- Whether a text starts with a character that is not blank and has no line break. -/
def IsLine (t : Text) : Prop := t.StartsDark ∧ '\n' ∉ t

theorem isLine_iff {t : Text} :
    IsLine t ↔ t.head?.any (fun c => !isBlank c) = true ∧ '\n' ∉ t := by
  refine and_congr_left' ?_
  cases t with
  | nil => simp [StartsDark]
  | cons c t => simp [StartsDark]

instance (t : Text) : Decidable (IsLine t) := decidable_of_iff _ isLine_iff.symm

theorem IsLine.append {s t : Text} (hs : IsLine s) (ht : '\n' ∉ t) : IsLine (s ++ t) := by
  obtain ⟨⟨c, u, rfl, dark⟩, line⟩ := hs
  exact ⟨⟨c, u ++ t, rfl, dark⟩, List.not_mem_append line ht⟩

/-- Whether a text has no line break and no blank at its two ends. -/
structure IsTidy (t : Text) : Prop where
  /-- The text has no line break. -/
  line : '\n' ∉ t
  /-- It does not start with a blank. -/
  start : ∀ c ∈ t.head?, isBlank c = false
  /-- It does not end with a blank. -/
  last : ∀ c ∈ t.getLast?, isBlank c = false

theorem isTidy_iff {t : Text} : IsTidy t ↔ '\n' ∉ t ∧
    t.head?.all (fun c => !isBlank c) = true ∧ t.getLast?.all (fun c => !isBlank c) = true := by
  simp only [Option.all_eq_true, Bool.not_eq_true']
  exact ⟨fun h => ⟨h.line, h.start, h.last⟩, fun h => ⟨h.1, h.2.1, h.2.2⟩⟩

instance (t : Text) : Decidable (IsTidy t) := decidable_of_iff _ isTidy_iff.symm

namespace IsTidy

variable {t : Text}

theorem endsDark (h : t.IsTidy) (ne : t ≠ []) : t.EndsDark :=
  ⟨t.dropLast, t.getLast ne, (List.dropLast_append_getLast ne).symm,
    h.last _ (List.getLast_mem_getLast? ne)⟩

/-- Behind a blank a tidy text is read back, also where the blank is lost. -/
theorem tail_trimEnd (h : t.IsTidy) : (trimEnd (' ' :: t)).tail = t := by
  by_cases ne : t = []
  · subst ne
    rfl
  · have dark : EndsDark (' ' :: t) := (h.endsDark ne).append [' ']
    rw [dark.trimEnd_eq]
    rfl

theorem eq_of_trimEnd_eq {u : Text} (ht : t.IsTidy) (hu : u.IsTidy)
    (h : trimEnd (' ' :: t) = trimEnd (' ' :: u)) : t = u := by
  rw [← ht.tail_trimEnd, h, hu.tail_trimEnd]

end IsTidy

end FlowGraph.Text
