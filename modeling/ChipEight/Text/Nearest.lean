/-!
# The nearest floating-point number

A fraction of natural numbers is rounded to the nearest double-precision number,
and a tie goes to the one with the even last bit. All arithmetic before the last
step is exact.

A positive double is `m * 2 ^ q` with `m < 2 ^ 53` and `q` at least `-1074`, and
`m` is at least `2 ^ 52` unless `q` is least. Its bits, read as a number, are
then `(q + 1074) * 2 ^ 52 + m`. The formula holds for `m = 2 ^ 53` as well, so
rounding up to the next power of two needs no case of its own.
-/

namespace ChipEight.Text

/-- The natural number nearest to `num / den`, of two the even one. -/
def roundDiv (num den : Nat) : Nat :=
  let quotient := num / den
  let rest := 2 * (num % den)
  if den < rest || (den = rest && quotient % 2 = 1) then quotient + 1 else quotient

/-- The rounded fraction is at most half a unit above the fraction. -/
theorem roundDiv_mul_le {num den : Nat} (h : 0 < den) :
    2 * (den * roundDiv num den) ≤ 2 * num + den := by
  have hd := Nat.div_add_mod num den
  have hr := Nat.mod_lt num h
  unfold roundDiv
  simp only [Bool.or_eq_true, Bool.and_eq_true, decide_eq_true_eq]
  split
  · rw [Nat.mul_add, Nat.mul_one]
    omega
  · omega

/-- The rounded fraction is at most half a unit below the fraction. -/
theorem le_roundDiv_mul {num den : Nat} (h : 0 < den) :
    2 * num ≤ 2 * (den * roundDiv num den) + den := by
  have hd := Nat.div_add_mod num den
  have hr := Nat.mod_lt num h
  unfold roundDiv
  simp only [Bool.or_eq_true, Bool.and_eq_true, decide_eq_true_eq]
  split
  · rw [Nat.mul_add, Nat.mul_one]
    omega
  · omega

/-- The fraction `num / den / 2 ^ q`. -/
def scaleDown (num den : Nat) (q : Int) : Nat × Nat :=
  if q < 0 then (num <<< q.natAbs, den) else (num, den <<< q.natAbs)

/-- `2 ^ 52`, the least `m` of a double whose `q` is not least. -/
def leadingBit : Nat := 0x10000000000000

/-- The least power of two, at least `2 ^ (-1074)`, of which `num / den` holds fewer
than `2 ^ 53`. -/
def binaryExponent (num den : Nat) : Int :=
  let q := (Nat.log2 num : Int) - Nat.log2 den - 53
  let (n, d) := scaleDown num den q
  max (if n / d < 2 * leadingBit then q else q + 1) (-1074)

/-- The bits of infinity. -/
def infinityBits : Nat := 0x7FF * leadingBit

/-- The bits of the double nearest to `num / den`; what is too large is infinite. -/
def nearestBits (num den : Nat) : Nat :=
  if num = 0 then 0
  else
    let q := binaryExponent num den
    let (n, d) := scaleDown num den q
    min ((q + 1074).toNat * leadingBit + roundDiv n d) infinityBits

/-- The double nearest to `num / den`. -/
def nearestFloat (num den : Nat) : Float :=
  Float.ofBits (UInt64.ofNat (nearestBits num den))

example : nearestBits 1 1 = 0x3FF0000000000000 := by decide +kernel
example : nearestBits 1 10 = 0x3FB999999999999A := by decide +kernel
example : nearestBits 5 (10 ^ 324) = 1 := by decide +kernel
example : nearestBits 2 (10 ^ 324) = 0 := by decide +kernel
example : nearestBits (2 ^ 1024 - 2 ^ 970) 1 = infinityBits := by decide +kernel
example : nearestBits (2 ^ 1024 - 2 ^ 970 - 1) 1 = infinityBits - 1 := by decide +kernel

end ChipEight.Text
