import ChipEight.Cell

/-!
# The screen

Sixty-four columns by thirty-two rows of pixels that are on or off. Drawing
flips pixels, and it wraps: a sprite that leaves the screen on one side comes
back on the other. Coordinates and the bits of a sprite row are any integers;
only the low eight bits of a row are drawn, in two's complement.
-/

namespace ChipEight

/-- The pixels, row by row, the topmost row first. -/
abbrev Pixels := Vector (Vector Bool 64) 32

/-- The pixels, and whether they were touched since they were last shown. -/
structure Screen where
  /-- which pixels are on -/
  pixels : Pixels
  /-- whether the pixels have to be shown again -/
  dirty : Bool
  deriving DecidableEq

namespace Screen

/-- The number of columns. -/
def width : Nat := 64

/-- The number of rows. -/
def height : Nat := 32

/-- All pixels off. -/
def dark : Pixels := Vector.replicate 32 (Vector.replicate 64 false)

/-- A dark screen that was never shown. -/
def initial : Screen := ⟨dark, true⟩

/-- Turn all pixels off. -/
def clear (_ : Screen) : Screen := ⟨dark, true⟩

/-- The row that a coordinate falls into. -/
def wrapRow (row : Int) : Fin 32 := ⟨(row % 32).toNat, by omega⟩

/-- The column that a coordinate falls into. -/
def wrapColumn (column : Int) : Fin 64 := ⟨(column % 64).toNat, by omega⟩

/-- Whether a sprite row drawn from column `origin` on has a set bit at `column`:
the bits go to the eight columns from `origin`, the most significant first. -/
def covers (origin bits : Int) (column : Nat) : Bool :=
  let place := ((column - origin) % 64).toNat
  place < 8 && bits >>> (7 - place) % 2 = 1

/-- Flip the pixels of one row that a sprite row covers. The result says whether
a pixel that was on was flipped. -/
def plot (s : Screen) (row column bits : Int) : Bool × Screen :=
  let y := wrapRow row
  let old := s.pixels.get y
  let hit := (List.finRange 64).any fun c => old.get c && covers column bits c
  let flipped := Vector.ofFn fun c : Fin 64 => old.get c ^^ covers column bits c
  (hit, ⟨fill s.pixels y flipped, true⟩)

/-- Flip the pixels that a sprite covers whose rows lie below one another from
`(x, y)` on. The result says whether a pixel that was on was flipped by some
row; a sprite longer than the screen may meet pixels it has flipped itself. -/
def drawSprite (s : Screen) (x y : Int) : List Int → Bool × Screen
  | [] => (false, { s with dirty := true })
  | bits :: rest =>
    let (hit, s) := s.plot y x bits
    let (hitLater, s) := drawSprite s x (y + 1) rest
    (hit || hitLater, s)

/-- Whether the pixel at a pair of coordinates is on. -/
def pixel (s : Screen) (row column : Int) : Bool :=
  (s.pixels.get (wrapRow row)).get (wrapColumn column)

end Screen

end ChipEight
