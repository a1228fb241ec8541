import ChipEight.Screen

/-!
# Pictures

What a window shows: rows of coloured pixels, the bottom row first. A picture of
the screen shows every pixel of the screen as a square of `scale` by `scale`
pixels, white if it is on and black otherwise.
-/

namespace ChipEight

/-- A colour with its opacity. -/
structure Colour where
  red : UInt8
  green : UInt8
  blue : UInt8
  alpha : UInt8
  deriving DecidableEq, Repr

namespace Colour

/-- The colour of pixels that are off. -/
def black : Colour := ⟨0, 0, 0, 255⟩

/-- The colour of pixels that are on. -/
def white : Colour := ⟨255, 255, 255, 255⟩

/-- The colour of a pixel. -/
def ofPixel (on : Bool) : Colour := if on then white else black

end Colour

/-- Rows of coloured pixels, the bottom row first. -/
abbrev Picture := List (List Colour)

namespace Picture

/-- Every element `n` times in a row. -/
def enlarge {α : Type} (n : Nat) (xs : List α) : List α :=
  xs.flatMap (List.replicate n)

theorem length_enlarge {α : Type} (n : Nat) (xs : List α) :
    (enlarge n xs).length = n * xs.length := by
  induction xs with
  | nil => rfl
  | cons a r ih =>
    simp only [enlarge, List.flatMap_cons, List.length_append, List.length_replicate,
      List.length_cons, Nat.mul_succ] at ih ⊢
    omega

/-- The picture of the screen at a scale. -/
def ofPixels (scale : Nat) (pixels : Pixels) : Picture :=
  enlarge scale (pixels.toList.reverse.map fun row => enlarge scale (row.toList.map Colour.ofPixel))

end Picture

end ChipEight
