import ChipEight.Text.Numeral

/-!
# Hexadecimal numerals can be read back

`Text.IsNumeral` says what a numeral of a number is without saying how it is written: a
text of hexadecimal digits, not too short, that stand for the number. What `Text.hex`
writes for a number that is not negative is such a text, and the zeros that fill it up to
its width do not change what it stands for.
-/

namespace ChipEight

namespace Text

/-- Whether a character is an upper-case hexadecimal digit. -/
def isHexDigit (c : Char) : Bool := c.isDigit || ('A' ≤ c && c ≤ 'F')

/-- The value of an upper-case hexadecimal digit. -/
def digitValue (c : Char) : Nat := if c.isDigit then c.toNat - 0x30 else c.toNat - 0x37

/-- The number that hexadecimal digits stand for, the most significant first. -/
def value (digits : List Char) : Nat := digits.foldl (fun n c => n * 16 + digitValue c) 0

/-- A text consists of hexadecimal digits, at least `width` of them, that stand for a
number. -/
structure IsNumeral (width : Nat) (n : Int) (text : String) : Prop where
  width_le : width ≤ text.length
  isHexDigit : ∀ c ∈ text.toList, isHexDigit c = true
  value_eq : value text.toList = n

theorem isHexDigit_hexDigit {d : Nat} (h : d < 16) : isHexDigit (hexDigit d) = true := by
  revert d
  decide

theorem digitValue_hexDigit {d : Nat} (h : d < 16) : digitValue (hexDigit d) = d := by
  revert d
  decide

theorem isHexDigit_hexDigits (n : Nat) : ∀ c ∈ hexDigits n, isHexDigit c = true := by
  fun_induction hexDigits n with
  | case1 n h => exact List.forall_mem_singleton.mpr (isHexDigit_hexDigit h)
  | case2 n _ ih =>
    rw [List.forall_mem_append]
    exact ⟨ih, List.forall_mem_singleton.mpr (isHexDigit_hexDigit (Nat.mod_lt n (by decide)))⟩

/-- The digits of a number stand for it. -/
theorem value_hexDigits (n : Nat) : value (hexDigits n) = n := by
  fun_induction hexDigits n with
  | case1 n h =>
    rw [value, List.foldl_cons, List.foldl_nil, digitValue_hexDigit h, Nat.zero_mul, Nat.zero_add]
  | case2 n _ ih =>
    have hmod := digitValue_hexDigit (Nat.mod_lt n (by decide : 0 < 16))
    rw [value] at ih ⊢
    rw [List.foldl_append, ih, List.foldl_cons, List.foldl_nil, hmod]
    omega

/-- Zeros on the left do not change the number. -/
theorem value_leftpad (width : Nat) (digits : List Char) :
    value (digits.leftpad width '0') = value digits := by
  have hzeros (k : Nat) : value (List.replicate k '0') = 0 := by
    induction k with
    | zero => rfl
    | succ k ih =>
      rw [value] at ih ⊢
      rw [List.replicate_succ', List.foldl_append, ih]
      rfl
  have hvalue := hzeros (width - digits.length)
  rw [value] at hvalue
  rw [value, List.leftpad, List.foldl_append, hvalue, value]

/-- What is written for a number that is not negative is a numeral of it. -/
theorem isNumeral_hex (width n : Nat) : IsNumeral width n (hex width n) := by
  have hhex : hex width n = String.ofList ((hexDigits n).leftpad width '0') := by
    rw [hex, if_neg (by omega), Int.natAbs_natCast]
  rw [hhex]
  refine ⟨?_, ?_, ?_⟩
  · rw [String.length_ofList, List.length_leftpad]
    exact Nat.le_max_left _ _
  · rw [String.toList_ofList, List.leftpad, List.forall_mem_append]
    refine ⟨?_, isHexDigit_hexDigits n⟩
    intro c hc
    rw [List.eq_of_mem_replicate hc]
    decide
  · rw [String.toList_ofList, value_leftpad, value_hexDigits]

end Text

end ChipEight
