import FlowGraph.Text.Basic

/-!
# Numbers in decimal and hexadecimal

`natural` and `integer` write a number in decimal, and `ofDigits` reads decimal
digits, leading zeros included.  Reading inverts writing (`ofDigits_natural`).

`offset` writes a code offset in hexadecimal.  It is at least four characters
wide after the `0x`, filled with zeros behind the sign, which counts in the
width: `-5` is `0x-005`.

There are decimal digits in many scripts.  Those of one script follow each other from
zero to nine, so a script is given by its zero (`digitZeros`).
-/

namespace FlowGraph.Text

/-! ## Decimal -/

/-- A natural number in decimal. -/
def natural (n : Nat) : Text := Nat.toDigits 10 n

/-- An integer in decimal, with a `-` before a negative one.  It is written whatever its size, so a
limit on the digits of written numbers is left out. -/
def integer : Int → Text
  | .ofNat n => natural n
  | .negSucc n => '-' :: natural (n + 1)

theorem natural_eq_toString (n : Nat) : natural n = lit (toString n) := by
  simp [natural, lit]

/-- Integers are written as the standard library writes them. -/
theorem integer_eq_toString (z : Int) : integer z = lit (toString z) := by
  cases z with
  | ofNat n => exact natural_eq_toString n
  | negSucc n =>
      show '-' :: natural (n + 1) = ("-" ++ toString (n + 1)).toList
      rw [String.toList_append, natural_eq_toString]
      rfl

/-- The number that decimal digits stand for. -/
def ofDigits (ds : Text) : Nat := Nat.ofDigitChars 10 ds 0

theorem ofDigits_natural (n : Nat) : ofDigits (natural n) = n :=
  Nat.ofDigitChars_toDigits (by decide) (by decide)

theorem natural_injective {m n : Nat} (h : natural m = natural n) : m = n := by
  rw [← ofDigits_natural m, h, ofDigits_natural]

/-- Every character of a written number is a digit. -/
theorem isDigit_of_mem_natural {n : Nat} {c : Char} (h : c ∈ natural n) : c.isDigit = true :=
  Nat.isDigit_of_mem_toDigits (by decide) (by decide) h

/-! ## Hexadecimal -/

/-- A natural number in hexadecimal, with small letters. -/
def hexadecimal (n : Nat) : Text := Nat.toDigits 16 n

theorem exists_digitChar_of_mem_hexadecimal {n : Nat} {c : Char} (h : c ∈ hexadecimal n) :
    ∃ d < 16, c = d.digitChar := by
  induction n using Nat.strongRecOn with
  | ind n ih =>
      rw [hexadecimal, Nat.toDigits_eq_if (by decide)] at h
      split at h
      · next small => exact ⟨n, small, List.mem_singleton.1 h⟩
      · next large =>
        rcases List.mem_append.1 h with high | low
        · exact ih (n / 16) (by omega) high
        · exact ⟨n % 16, Nat.mod_lt n (by decide), List.mem_singleton.1 low⟩

/-- A code offset: `0x`, then the sign and the hexadecimal digits filled up to four
characters. -/
def offset (n : Int) : Text :=
  let sign := if n < 0 then ['-'] else []
  lit "0x" ++ sign ++ List.leftpad (4 - sign.length) '0' (hexadecimal n.natAbs)

/-! ## Digits of all scripts -/

/-- The zeros of the scripts of Unicode 14. -/
def digitZeros : List Nat :=
  [0x30, 0x660, 0x6F0, 0x7C0, 0x966, 0x9E6, 0xA66, 0xAE6, 0xB66, 0xBE6, 0xC66, 0xCE6, 0xD66,
   0xDE6, 0xE50, 0xED0, 0xF20, 0x1040, 0x1090, 0x17E0, 0x1810, 0x1946, 0x19D0, 0x1A80, 0x1A90,
   0x1B50, 0x1BB0, 0x1C40, 0x1C50, 0xA620, 0xA8D0, 0xA900, 0xA9D0, 0xA9F0, 0xAA50, 0xABF0,
   0xFF10, 0x104A0, 0x10D30, 0x11066, 0x110F0, 0x11136, 0x111D0, 0x112F0, 0x11450, 0x114D0,
   0x11650, 0x116C0, 0x11730, 0x118E0, 0x11950, 0x11C50, 0x11D50, 0x11DA0, 0x16A60, 0x16AC0,
   0x16B50, 0x1D7CE, 0x1D7D8, 0x1D7E2, 0x1D7EC, 0x1D7F6, 0x1E140, 0x1E2F0, 0x1E950, 0x1FBF0]

/-- Whether the character is a decimal digit of some script. -/
def isAnyDigit (c : Char) : Bool := digitZeros.any fun z => z ≤ c.toNat && c.toNat < z + 10

end FlowGraph.Text
