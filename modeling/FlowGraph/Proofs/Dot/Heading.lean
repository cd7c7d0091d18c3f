import FlowGraph.Proofs.Dot.Reading

/-!
# Headings of blocks

The label of a block starts with a heading: its number in decimal and its offset in
hexadecimal.  `heading?` reads both back from the label, whatever follows the heading
(`heading?_blockLabel`).  A number of any size is read back: of each base it only matters
that the reader stops at the first character that is no digit, and that the value of the
digits is the number (`hexValue_hexadecimal`, `Text.ofDigits_natural`).
-/

namespace FlowGraph.Dot

namespace Reading

/-! ## Hexadecimal digits -/

/-- The digits of hexadecimal numbers, by value. -/
def hexDigits : Text := lit "0123456789abcdef"

/-- Whether a character is a hexadecimal digit. -/
def isHexDigit (c : Char) : Bool := hexDigits.contains c

/-- The number that hexadecimal digits stand for. -/
def hexValue (ds : Text) : Nat := ds.foldl (fun n c => 16 * n + hexDigits.idxOf c) 0

theorem hexValue_concat (ds : Text) (c : Char) :
    hexValue (ds ++ [c]) = 16 * hexValue ds + hexDigits.idxOf c := by
  rw [hexValue, List.foldl_append]
  rfl

/-- The induction takes the last digit off, as the digits are written. -/
theorem hexValue_hexadecimal (n : Nat) : hexValue (Text.hexadecimal n) = n := by
  have digit : ∀ d < 16, hexDigits.idxOf d.digitChar = d := by decide
  induction n using Nat.strongRecOn with
  | ind n ih =>
      rw [Text.hexadecimal, Nat.toDigits_eq_if (by decide)]
      split
      · next small => exact (Nat.zero_add _).trans (digit n small)
      · next large =>
        have high : hexValue (Nat.toDigits 16 (n / 16)) = n / 16 := ih (n / 16) (by omega)
        rw [hexValue_concat, high, digit (n % 16) (by omega)]
        omega

theorem isHexDigit_of_mem_hexadecimal {n : Nat} {c : Char} (h : c ∈ Text.hexadecimal n) :
    isHexDigit c = true := by
  have digit : ∀ d < 16, isHexDigit d.digitChar = true := by decide
  obtain ⟨d, hd, rfl⟩ := Text.exists_digitChar_of_mem_hexadecimal h
  exact digit d hd

/-- Zeros before a number do not change it. -/
theorem hexValue_leftpad (k : Nat) (ds : Text) : hexValue (List.leftpad k '0' ds) = hexValue ds := by
  have zeros : ∀ j, hexValue (List.replicate j '0' ++ ds) = hexValue ds := by
    intro j
    induction j with
    | zero => rfl
    | succ j ih => exact ih
  exact zeros (k - ds.length)

/-! ## Signed numbers -/

/-- The integer that an optional minus sign and digits at the start of a text stand for, and
what follows them. -/
def signed (isDigit : Char → Bool) (value : Text → Nat) (t : Text) : Int × Text :=
  let (negative, t) := optional ['-'] t
  let n : Int := value (t.takeWhile isDigit)
  (if negative then -n else n, t.dropWhile isDigit)

/-- The sign that an integer is written with. -/
def sign (z : Int) : Text := if z < 0 then ['-'] else []

/-- Digits are taken up to the first character that is none. -/
theorem digits_append {isDigit : Char → Bool} {ds rest : Text}
    (digits : ∀ c ∈ ds, isDigit c = true) (stop : ∀ c ∈ rest.head?, isDigit c = false) :
    (ds ++ rest).takeWhile isDigit = ds ∧ (ds ++ rest).dropWhile isDigit = rest := by
  rw [List.takeWhile_append_of_pos digits, List.dropWhile_append_of_pos digits]
  cases rest with
  | nil => exact ⟨List.append_nil ds, rfl⟩
  | cons c rest =>
      have hc : ¬ isDigit c = true := by simp [stop c rfl]
      rw [List.takeWhile_cons_of_neg hc, List.dropWhile_cons_of_neg hc, List.append_nil]
      exact ⟨rfl, rfl⟩

theorem optional_digits {isDigit : Char → Bool} {ds : Text} (digits : ∀ c ∈ ds, isDigit c = true)
    (minus : isDigit '-' = false) (ne : ds ≠ []) (rest : Text) :
    optional ['-'] (ds ++ rest) = (false, ds ++ rest) := by
  obtain ⟨c, ds, rfl⟩ := List.exists_cons_of_ne_nil ne
  have hc : '-' ≠ c := by
    rintro rfl
    rw [digits '-' List.mem_cons_self] at minus
    cases minus
  simp [optional, List.isPrefixOf?, hc]

/-- A written integer is read back, whatever stands behind its last digit. -/
theorem signed_append {isDigit : Char → Bool} {value : Text → Nat} {z : Int} {ds rest : Text}
    (digits : ∀ c ∈ ds, isDigit c = true) (minus : isDigit '-' = false) (ne : ds ≠ [])
    (stop : ∀ c ∈ rest.head?, isDigit c = false) (same : value ds = z.natAbs) :
    signed isDigit value (sign z ++ ds ++ rest) = (z, rest) := by
  obtain ⟨take, drop⟩ := digits_append digits stop
  rw [List.append_assoc, signed]
  by_cases negative : z < 0
  · have number : -(z.natAbs : Int) = z := by omega
    rw [sign, if_pos negative, optional_append]
    simp only [take, drop, same, if_true, number]
  · have number : (z.natAbs : Int) = z := by omega
    rw [sign, if_neg negative, List.nil_append, optional_digits digits minus ne]
    simp only [take, drop, same, Bool.false_eq_true, if_false, number]

/-! ## Headings -/

/-- The number and the offset at the start of the label of a block. -/
def heading? (label : Text) : Option (Int × Int) := do
  let (id, t) := signed Char.isDigit Text.ofDigits label
  let t ← (lit "\\:\\ 0x").isPrefixOf? t
  let (offset, _) := signed isHexDigit hexValue t
  some (id, offset)

theorem integer_eq_sign (z : Int) : Text.integer z = sign z ++ Text.natural z.natAbs := by
  cases z with
  | ofNat n =>
      have natural : ¬ Int.ofNat n < 0 := Int.not_lt.2 (Int.natCast_nonneg n)
      rw [sign, if_neg natural]
      rfl
  | negSucc n =>
      rw [sign, if_pos (Int.negSucc_lt_zero n)]
      rfl

theorem signed_integer (z : Int) {rest : Text} (stop : ∀ c ∈ rest.head?, c.isDigit = false) :
    signed Char.isDigit Text.ofDigits (Text.integer z ++ rest) = (z, rest) := by
  rw [integer_eq_sign]
  exact signed_append (fun _ => Text.isDigit_of_mem_natural) rfl Nat.toDigits_ne_nil stop
    (Text.ofDigits_natural z.natAbs)

/-- Different integers are written differently. -/
theorem integer_injective {y z : Int} (h : Text.integer y = Text.integer z) : y = z := by
  have read : ∀ x, signed Char.isDigit Text.ofDigits (Text.integer x ++ []) = (x, []) :=
    fun x => signed_integer x (by simp)
  have same : (y, ([] : Text)) = (z, []) := by rw [← read y, h, read z]
  exact congrArg Prod.fst same

theorem signed_offset (z : Int) {rest : Text} (stop : ∀ c ∈ rest.head?, isHexDigit c = false) :
    ∃ digits, Text.offset z = lit "0x" ++ digits ∧
      signed isHexDigit hexValue (digits ++ rest) = (z, rest) := by
  let width := 4 - (sign z).length
  let digits := List.leftpad width '0' (Text.hexadecimal z.natAbs)
  have hexDigit : ∀ c ∈ digits, isHexDigit c = true := by
    intro c hc
    rcases List.mem_append.1 hc with zero | digit
    · rw [List.eq_of_mem_replicate zero]
      rfl
    · exact isHexDigit_of_mem_hexadecimal digit
  have ne : digits ≠ [] := List.append_ne_nil_of_right_ne_nil _ Nat.toDigits_ne_nil
  have value : hexValue digits = z.natAbs :=
    (hexValue_leftpad _ _).trans (hexValue_hexadecimal _)
  exact ⟨sign z ++ digits, List.append_assoc .., signed_append hexDigit rfl ne stop value⟩

/-- What a label has behind its heading starts with a bar. -/
theorem head?_labelPart_append (s t : Text) :
    ∀ c ∈ (labelPart ['|'] s ++ labelPart ['|'] t).head?, c = '|' := by
  cases s <;> cases t <;> simp [labelPart]

/-- The number and the offset of a block are read back from its label. -/
theorem heading?_blockLabel (s : InstructionStyle) (b : Block) :
    heading? (blockLabel s b) = some (b.id, b.offset) := by
  let parts := labelPart ['|'] (attributeLines b.attributes)
    ++ labelPart ['|'] (s.lines b.instructions)
  have stop : ∀ c ∈ parts.head?, isHexDigit c = false := by
    intro c hc
    rw [head?_labelPart_append _ _ c hc]
    rfl
  obtain ⟨digits, written, offset⟩ := signed_offset b.offset stop
  have label : blockLabel s b = Text.integer b.id ++ (lit "\\:\\ 0x" ++ (digits ++ parts)) := by
    rw [blockLabel, written]
    simp [parts, lit]
  have id : signed Char.isDigit Text.ofDigits (blockLabel s b)
      = (b.id, lit "\\:\\ 0x" ++ (digits ++ parts)) := by
    rw [label]
    exact signed_integer b.id (by simp [lit])
  rw [heading?, id]
  simp [isPrefixOf?_append, offset]

end Reading

end FlowGraph.Dot
