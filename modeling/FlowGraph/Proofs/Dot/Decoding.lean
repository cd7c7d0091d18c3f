import FlowGraph.Dot.Label
import Mathlib.Logic.ExistsUnique
import Mathlib.Logic.Function.Iterate

/-!
# Decoding labels

An escaped text is a sequence of *units*: a character by itself, or a backslash with the
character behind it.  `units` cuts a text into units from left to right, and it undoes
writing valid units one after another (`units_written`), so there is only one way to cut.

Each character of a text other than a backslash becomes one unit (`escape_eq_written`), whose
meaning is that character.  So `decode` gives back the text without its backslashes, and
backslashes are all that two texts with one label can differ in (`escape_isCode`).

Without its backslashes an escaped text is the text with an `l` for each line break
(`filter_escape`).  A second escaping deletes the backslashes that the first one put in, so it
sees just that text: it puts back all but the breaks of lines, and a third one changes nothing
(`escape_twice`).
-/

namespace FlowGraph.Dot

/-! ## Units -/

/-- A part of an escaped text. -/
inductive LabelUnit where
  /-- A character by itself. -/
  | plain (c : Char)
  /-- A backslash and the character behind it. -/
  | pair (c : Char)
deriving DecidableEq, Repr

namespace LabelUnit

/-- The text of a unit. -/
def text : LabelUnit → Text
  | plain c => [c]
  | pair c => ['\\', c]

/-- The character that a unit stands for. -/
def meaning : LabelUnit → Char
  | plain c => c
  | pair c => if c = 'l' then '\n' else c

/-- Whether a unit may stand in an escaped text: what stands by itself has no meaning in a
label, and a backslash stands before a character that has one or before the `l` of a line
break. -/
def Valid : LabelUnit → Prop
  | plain c => c ≠ '\\' ∧ c ≠ '\n' ∧ c ∉ reserved
  | pair c => c ∈ reserved ∨ c = 'l'

/-- The unit of a character, unless it is a backslash. -/
def ofChar? (c : Char) : Option LabelUnit :=
  if c = '\\' then none
  else if c = '\n' then some (pair 'l')
  else if c ∈ reserved then some (pair c)
  else some (plain c)

end LabelUnit

/-- The units of a text from left to right. -/
def units : Text → List LabelUnit
  | [] => []
  | [c] => [.plain c]
  | c :: d :: t => if c = '\\' then .pair d :: units t else .plain c :: units (d :: t)

/-- Units one after another. -/
def written (us : List LabelUnit) : Text := us.flatMap LabelUnit.text

/-- The text that an escaped text stands for. -/
def decode (t : Text) : Text := (units t).map LabelUnit.meaning

/-! ## Cutting into units -/

theorem units_cons {c : Char} (h : c ≠ '\\') (t : Text) : units (c :: t) = .plain c :: units t := by
  cases t with
  | nil => rfl
  | cons d t => rw [units, if_neg h]

/-- Valid units are found again. -/
theorem units_written {us : List LabelUnit} (valid : ∀ u ∈ us, u.Valid) :
    units (written us) = us := by
  induction us with
  | nil => rfl
  | cons u us ih =>
      obtain ⟨first, rest⟩ := List.forall_mem_cons.1 valid
      cases u with
      | plain c =>
          show units (c :: written us) = _
          rw [units_cons first.1, ih rest]
      | pair c =>
          show units ('\\' :: c :: written us) = _
          rw [units, if_pos rfl, ih rest]

/-! ## Units of an escaped text -/

theorem escapeChar_eq (c : Char) :
    escapeChar c = (LabelUnit.ofChar? c).toList.flatMap LabelUnit.text := by
  unfold escapeChar LabelUnit.ofChar?
  split
  · rfl
  · split
    · rfl
    · split <;> rfl

/-- An escaped text is the units of its characters. -/
theorem escape_eq_written (t : Text) : escape t = written (t.filterMap LabelUnit.ofChar?) := by
  induction t with
  | nil => rfl
  | cons c t ih =>
      rw [escape_cons, escapeChar_eq, ih]
      cases unit : LabelUnit.ofChar? c with
      | none => rw [List.filterMap_cons_none unit]; rfl
      | some u => rw [List.filterMap_cons_some unit]; simp [written]

/-- Only a backslash has no unit. -/
theorem LabelUnit.ofChar?_eq_none_iff {c : Char} : ofChar? c = none ↔ c = '\\' := by
  constructor
  · intro h
    unfold ofChar? at h
    split at h
    · assumption
    · split at h
      · cases h
      · split at h <;> cases h
  · rintro rfl
    rfl

theorem LabelUnit.valid_of_ofChar? {c : Char} {u : LabelUnit} (h : ofChar? c = some u) :
    u.Valid ∧ u.meaning = c := by
  unfold ofChar? at h
  split at h
  · cases h
  · next hb =>
      split at h
      · next hn =>
          cases h
          exact ⟨Or.inr rfl, hn.symm⟩
      · next hn =>
          split at h
          · next hr =>
              cases h
              have noLine : c ≠ 'l' := by
                rintro rfl
                exact absurd hr (by decide)
              exact ⟨Or.inl hr, if_neg noLine⟩
          · next hr =>
              cases h
              exact ⟨⟨hb, hn, hr⟩, rfl⟩

theorem LabelUnit.Valid.line {u : LabelUnit} (h : u.Valid) : '\n' ∉ u.text := by
  have reservedLine : '\n' ∉ reserved := by decide
  cases u with
  | plain c => simpa [text, eq_comm] using h.2.1
  | pair c =>
      rcases h with mem | rfl
      · have other : '\n' ≠ c := fun same => reservedLine (same ▸ mem)
        simpa [text] using other
      · decide

/-- The units of the characters of a text are valid. -/
theorem valid_units (t : Text) : ∀ u ∈ t.filterMap LabelUnit.ofChar?, u.Valid := by
  intro u hu
  obtain ⟨c, -, unit⟩ := List.mem_filterMap.1 hu
  exact (LabelUnit.valid_of_ofChar? unit).1

theorem units_escape (t : Text) : units (escape t) = t.filterMap LabelUnit.ofChar? := by
  rw [escape_eq_written, units_written (valid_units t)]

/-- A text is read back but for its backslashes. -/
theorem decode_escape (t : Text) : decode (escape t) = t.filter (· ≠ '\\') := by
  rw [decode, units_escape]
  induction t with
  | nil => rfl
  | cons c t ih =>
      cases unit : LabelUnit.ofChar? c with
      | none =>
          have backslash := LabelUnit.ofChar?_eq_none_iff.1 unit
          rw [List.filterMap_cons_none unit, ih, List.filter_cons_of_neg (by simp [backslash])]
      | some u =>
          have other : c ≠ '\\' := fun backslash => by
            rw [LabelUnit.ofChar?_eq_none_iff.2 backslash] at unit
            cases unit
          rw [List.filterMap_cons_some unit, List.filter_cons_of_pos (by simpa using other),
            List.map_cons, (LabelUnit.valid_of_ofChar? unit).2, ih]

/-- Backslashes make no difference to a label. -/
theorem escape_filter (t : Text) : escape (t.filter (· ≠ '\\')) = escape t := by
  induction t with
  | nil => rfl
  | cons c t ih =>
      by_cases backslash : c = '\\'
      · have nothing : escapeChar '\\' = [] := rfl
        subst backslash
        rw [List.filter_cons_of_neg (by simp), ih, escape_cons, nothing, List.nil_append]
      · rw [List.filter_cons_of_pos (by simpa using backslash), escape_cons, escape_cons, ih]

theorem line_not_mem_escape (t : Text) : '\n' ∉ escape t := by
  intro mem
  rw [escape_eq_written, written] at mem
  obtain ⟨u, hu, line⟩ := List.mem_flatMap.1 mem
  exact (valid_units t u hu).line line

/-- Only a line break leaves another character behind when backslashes are deleted. -/
theorem filter_escapeChar (c : Char) :
    (escapeChar c).filter (· ≠ '\\') = (Text.substitute '\n' ['l'] [c]).filter (· ≠ '\\') := by
  unfold escapeChar
  split
  · next backslash =>
      subst backslash
      rfl
  · next other =>
      split
      · next line =>
          subst line
          rfl
      · next inLine =>
          have same : Text.substitute '\n' ['l'] [c] = [c] := by
            rw [Text.substitute_cons, if_neg inLine, Text.substitute_nil, List.append_nil]
          rw [same]
          split
          · exact List.filter_cons_of_neg (by simp)
          · rfl

/-- Without backslashes, an escaped text is the text with an `l` for each line break. -/
theorem filter_escape (t : Text) :
    (escape t).filter (· ≠ '\\') = (Text.substitute '\n' ['l'] t).filter (· ≠ '\\') := by
  induction t with
  | nil => rfl
  | cons c t ih =>
      have front : Text.substitute '\n' ['l'] (c :: t)
          = Text.substitute '\n' ['l'] [c] ++ Text.substitute '\n' ['l'] t :=
        Text.substitute_append '\n' ['l'] [c] t
      rw [escape_cons, List.filter_append, filter_escapeChar, ih, front, List.filter_append]

theorem escape_escape (t : Text) : escape (escape t) = escape (Text.substitute '\n' ['l'] t) :=
  calc escape (escape t)
      = escape ((escape t).filter (· ≠ '\\')) := (escape_filter (escape t)).symm
    _ = escape ((Text.substitute '\n' ['l'] t).filter (· ≠ '\\')) := by rw [filter_escape]
    _ = escape (Text.substitute '\n' ['l'] t) := escape_filter _

/-- A second escaping keeps the label of a text exactly if the text is one line. -/
theorem escape_escape_eq_iff {t : Text} : escape (escape t) = escape t ↔ '\n' ∉ t := by
  constructor
  · -- Decoded, the two sides are the escaped text and the text, and the former has no line break.
    intro same line
    have shown : (escape t).filter (· ≠ '\\') = t.filter (· ≠ '\\') := by
      rw [← decode_escape, same, decode_escape]
    have kept : '\n' ∈ (escape t).filter (· ≠ '\\') := by
      rw [shown]
      exact List.mem_filter.2 ⟨line, by decide⟩
    exact line_not_mem_escape t (List.mem_filter.1 kept).1
  · intro oneLine
    rw [escape_escape, Text.substitute_of_not_mem oneLine]

/-- Escaping leaves a text as it is exactly if some text of one line is escaped to it. -/
theorem escape_eq_self_iff {t : Text} : escape t = t ↔ ∃ s, '\n' ∉ s ∧ escape s = t := by
  constructor
  · intro same
    have oneLine : '\n' ∉ t := same ▸ line_not_mem_escape t
    exact ⟨t, oneLine, same⟩
  · rintro ⟨s, oneLine, rfl⟩
    exact escape_escape_eq_iff.2 oneLine

/-- Escaping twice is escaping once with an `l` for each line break.  So it is the same as
escaping once exactly for a text of one line, and from the second time on nothing changes. -/
theorem escape_twice (t : Text) :
    escape (escape t) = escape (Text.substitute '\n' ['l'] t) ∧
    (escape (escape t) = escape t ↔ '\n' ∉ t) ∧
    ∀ n, escape^[n + 2] t = escape (escape t) := by
  refine ⟨escape_escape t, escape_escape_eq_iff, fun n => ?_⟩
  have settled : escape (escape (escape t)) = escape (escape t) :=
    escape_eq_self_iff.2 ⟨escape t, line_not_mem_escape t, rfl⟩
  rw [Function.iterate_succ_apply, Function.iterate_succ_apply, Function.iterate_fixed settled]

/-- The second time, a backslash is put back before the sign but not before the `l`. -/
example : escape (lit "a > b\n") = lit "a \\> b\\l" ∧
    escape (escape (lit "a > b\n")) = lit "a \\> bl" := by decide

end FlowGraph.Dot
