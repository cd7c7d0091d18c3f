import FlowGraph.Dot.Drawing

/-!
# Bare characters

A text in a label is read from left to right, a backslash and the character after it as
one unit.  The characters that stand outside such units are *bare*.  `bare` lists them,
and gives nothing for a text that ends in a backslash with no character after it.

`FieldText n t` says that `t` can stand anywhere between the quotes of a label and adds
`n` separators to it: no quote in it is bare, it is one line, and of the characters that
give a record its shape only `n` bars are bare.  Field texts can be joined
(`FieldText.append`), and every escaped text is one without separators
(`FieldText.escape`).
-/

namespace FlowGraph.Dot

/-! ## Reading in units -/

/-- The characters of a text that no backslash escapes, unless the text ends within a
unit. -/
def bare : Text → Option Text
  | [] => some []
  | [c] => if c = '\\' then none else some [c]
  | c :: d :: t => if c = '\\' then bare t else (bare (d :: t)).map (c :: ·)

theorem bare_cons {c : Char} (h : c ≠ '\\') (t : Text) : bare (c :: t) = (bare t).map (c :: ·) := by
  cases t with
  | nil => simp [bare, h]
  | cons d t => simp [bare, h]

theorem bare_pair (c : Char) (t : Text) : bare ('\\' :: c :: t) = bare t := by
  simp [bare]

/-- A text that ends between two units is read before whatever follows it. -/
theorem bare_append {s a : Text} (h : bare s = some a) (t : Text) :
    bare (s ++ t) = (bare t).map (a ++ ·) := by
  induction s using bare.induct generalizing a with
  | case1 =>
      cases h
      simp
  | case2 => simp [bare] at h
  | case3 c hc =>
      rw [bare, if_neg hc] at h
      cases h
      exact bare_cons hc t
  | case4 d s ih =>
      rw [bare_pair] at h
      exact (bare_pair d (s ++ t)).trans (ih h)
  | case5 c d s hc ih =>
      rw [bare_cons hc] at h
      obtain ⟨b, hb, rfl⟩ := Option.map_eq_some_iff.1 h
      rw [List.cons_append, bare_cons hc, ih hb, Option.map_map]
      rfl

/-- Without backslashes every character is bare. -/
theorem bare_eq_self {t : Text} (h : '\\' ∉ t) : bare t = some t := by
  induction t with
  | nil => rfl
  | cons c t ih =>
      have hc : c ≠ '\\' := fun e => h (e ▸ List.mem_cons_self)
      rw [bare_cons hc, ih fun ht => h (List.mem_cons_of_mem c ht)]
      rfl

/-! ## Texts within a label -/

/-- The characters that give a record its shape. -/
def recordMarks : List Char := ['{', '}', '|', '<', '>']

/-- A character that a label gives no meaning to. -/
def IsPlain (c : Char) : Prop := c ≠ '\\' ∧ c ≠ '"' ∧ c ≠ '\n' ∧ c ∉ recordMarks

instance (c : Char) : Decidable (IsPlain c) :=
  inferInstanceAs (Decidable (c ≠ '\\' ∧ c ≠ '"' ∧ c ≠ '\n' ∧ c ∉ recordMarks))

theorem isPlain_of_isAlphanum {c : Char} (h : c.isAlphanum = true) : IsPlain c := by
  have differs : ∀ d : Char, d.isAlphanum = false → c ≠ d := by
    rintro d hd rfl
    rw [h] at hd
    cases hd
  have marks : ∀ d ∈ recordMarks, d.isAlphanum = false := by simp [recordMarks]
  exact ⟨differs _ rfl, differs _ rfl, differs _ rfl, fun hc => differs c (marks c hc) rfl⟩

/-- A text that can stand in a label and adds so many separators to it. -/
def FieldText (bars : Nat) (t : Text) : Prop :=
  ∃ marks, bare t = some marks ∧ '"' ∉ marks ∧ '\n' ∉ t ∧
    marks.filter (· ∈ recordMarks) = List.replicate bars '|'

namespace FieldText

theorem nil : FieldText 0 [] := ⟨[], rfl, List.not_mem_nil, List.not_mem_nil, rfl⟩

theorem append {m n : Nat} {s t : Text} (hs : FieldText m s) (ht : FieldText n t) :
    FieldText (m + n) (s ++ t) := by
  obtain ⟨a, ha, hqa, hns, hma⟩ := hs
  obtain ⟨b, hb, hqb, hnt, hmb⟩ := ht
  refine ⟨a ++ b, ?_, ?_, ?_, ?_⟩
  · rw [bare_append ha, hb]
    rfl
  · exact List.not_mem_append hqa hqb
  · exact List.not_mem_append hns hnt
  · rw [List.filter_append, hma, hmb, List.replicate_append_replicate]

/-- A text without characters that a label gives a meaning to. -/
theorem of_plain {t : Text} (h : ∀ c ∈ t, IsPlain c) : FieldText 0 t := by
  refine ⟨t, bare_eq_self ?_, ?_, ?_, ?_⟩
  · exact fun hc => (h _ hc).1 rfl
  · exact fun hc => (h _ hc).2.1 rfl
  · exact fun hc => (h _ hc).2.2.1 rfl
  · rw [List.filter_eq_nil_iff.2 fun c hc => by simpa using (h c hc).2.2.2]
    rfl

/-- What a character becomes in a label adds no separator. -/
theorem escapeChar (c : Char) : FieldText 0 (escapeChar c) := by
  unfold Dot.escapeChar
  split
  · exact nil
  · split
    · exact ⟨[], by decide⟩
    · split
      · exact ⟨[], bare_pair c [], by simp, by simp [*, Ne.symm], rfl⟩
      · next hb hn hr =>
        refine of_plain fun d hd => ?_
        rw [List.mem_singleton.1 hd]
        have quote : '"' ∈ reserved := by decide
        have marks : ∀ e ∈ recordMarks, e ∈ reserved := by simp [recordMarks, reserved]
        exact ⟨hb, fun e => hr (e ▸ quote), hn, fun hc => hr (marks c hc)⟩

theorem escape (t : Text) : FieldText 0 (escape t) := by
  induction t with
  | nil => exact nil
  | cons c t ih =>
      rw [escape_cons]
      exact (escapeChar c).append ih

/-- A list of texts without separators, one after another. -/
theorem flatMap {α : Type} {f : α → Text} (h : ∀ a, FieldText 0 (f a)) :
    ∀ as : List α, FieldText 0 (as.flatMap f)
  | [] => nil
  | a :: as => (h a).append (flatMap h as)

theorem lineEnd : FieldText 0 lineEnd := ⟨[], by decide⟩

theorem attributeLines (as : List Text) : FieldText 0 (attributeLines as) :=
  flatMap (fun a => (escape a).append lineEnd) as

end FieldText

end FlowGraph.Dot
