import Mathlib.Data.Int.Bitwise
import ChipEight.Proofs.Picture
import ChipEight.Proofs.WriteSet

/-!
# Sprites, pixel by pixel

A sprite is drawn row by row, and every row flips the pixels that its set bits fall on.
The rows of a sprite that is taller than the screen fall on one another, so what counts
for a pixel is how often it is struck (`Screen.strikes`): it is flipped so many times, and
it is struck while it is on just when it was on at first and is struck at all, or is struck
twice. Both laws go by induction on the rows, pixel by pixel.

A sprite of an instruction has fewer rows than the screen and strikes no pixel twice. So it
flips the pixels that a set bit of it lands on (`Screen.Lands`), and drawing it again from
the same column and row takes it away. The column and the row are the same each time,
because the flag register counts as zero for them, whatever is in it.
-/

namespace ChipEight

/-- The bits of an integer in two's complement are those of its shifts. -/
theorem testBit_eq_shiftRight (bits : Int) (k : Nat) :
    bits.testBit k = decide (bits >>> k % 2 = 1) := by
  cases bits with
  | ofNat m =>
    show m.testBit k = decide (((m >>> k : Nat) : Int) % 2 = 1)
    rw [Nat.testBit_eq_decide_div_mod_eq, Nat.shiftRight_eq_div_pow, decide_eq_decide]
    omega
  | negSucc m =>
    show (!m.testBit k) = decide (Int.negSucc (m >>> k) % 2 = 1)
    rw [Nat.testBit_eq_decide_div_mod_eq, Nat.shiftRight_eq_div_pow, ← decide_not, decide_eq_decide]
    omega

namespace Screen

variable {s : Screen} {x y bits : Int} {rows : List Int} {r : Fin 32} {c : Fin 64}

/-- Whether a pixel is on, as a number. -/
def lit (s : Screen) (r : Fin 32) (c : Fin 64) : Nat := ((s.pixels.get r).get c).toNat

theorem get_dark (r : Fin 32) (c : Fin 64) : (dark.get r).get c = false := by
  simp [dark, get_eq_getElem]

theorem lit_le_one (s : Screen) (r : Fin 32) (c : Fin 64) : s.lit r c ≤ 1 := Bool.toNat_le _

/-- A sprite row that begins in column `x` has a set bit in column `c`: its bit seven lies
in column `x`, and the bits below it lie in the columns to the right, around the edge. -/
def Strikes (x bits : Int) (c : Fin 64) : Prop :=
  (c.val - x) % 64 < 8 ∧ bits.testBit (7 - ((c.val - x) % 64).toNat) = true

instance (x bits : Int) (c : Fin 64) : Decidable (Strikes x bits c) :=
  inferInstanceAs (Decidable (_ ∧ _))

/-- How many rows of a sprite that is drawn from `(x, y)` on have a set bit at a pixel. Each
row lies below the one before it, around the edge. -/
def strikes (x y : Int) (rows : List Int) (r : Fin 32) (c : Fin 64) : Nat :=
  rows.zipIdx.countP fun row => (y + row.2) % 32 = r.val ∧ Strikes x row.1 c

theorem covers_iff : covers x bits c = true ↔ Strikes x bits c := by
  rw [covers, Strikes, testBit_eq_shiftRight, Bool.and_eq_true, decide_eq_true_eq,
    decide_eq_true_eq]
  have hnonneg : 0 ≤ ((c.val : Int) - x) % 64 := Int.emod_nonneg _ (by decide)
  exact and_congr_left' (Int.toNat_lt hnonneg)

theorem strikes_nil : strikes x y [] r c = 0 := rfl

theorem strikes_cons : strikes x y (bits :: rows) r c =
    (if y % 32 = r.val ∧ Strikes x bits c then 1 else 0) + strikes x (y + 1) rows r c := by
  have hshift : ∀ i : Nat, y + (i + 1 : Nat) = y + 1 + i := by intro i; omega
  rw [strikes, strikes, List.zipIdx_cons, List.zipIdx_succ, List.countP_cons, List.countP_map,
    Nat.add_comm]
  simp only [Function.comp_def, hshift, decide_eq_true_eq, Int.natCast_zero, Int.add_zero]

theorem wrapRow_eq_iff : wrapRow y = r ↔ y % 32 = r.val := by
  rw [wrapRow, Fin.ext_iff]
  show (y % 32).toNat = r.val ↔ _
  omega

theorem get_plot (s : Screen) (x y bits : Int) (r : Fin 32) (c : Fin 64) :
    ((s.plot y x bits).2.pixels.get r).get c =
      ((s.pixels.get r).get c ^^ (decide (y % 32 = r.val) && covers x bits c)) := by
  have hflipped : (Vector.ofFn fun c : Fin 64 => (s.pixels.get (wrapRow y)).get c ^^
      covers x bits c).get c = ((s.pixels.get (wrapRow y)).get c ^^ covers x bits c) := by
    rw [get_eq_getElem, Fin.getElem_fin, Vector.getElem_ofFn]
  rw [plot]
  show ((fill s.pixels (wrapRow y) _).get r).get c = _
  rw [get_fill]
  by_cases hrow : wrapRow y = r
  · rw [if_pos hrow, hflipped, decide_eq_true (wrapRow_eq_iff.mp hrow), hrow, Bool.true_and]
  · rw [if_neg hrow, decide_eq_false (mt wrapRow_eq_iff.mpr hrow), Bool.false_and, Bool.xor_false]

/-- Drawing a row flips the pixels that it strikes. -/
theorem lit_plot (s : Screen) (x y bits : Int) (r : Fin 32) (c : Fin 64) :
    (s.plot y x bits).2.lit r c =
      (s.lit r c + if y % 32 = r.val ∧ Strikes x bits c then 1 else 0) % 2 := by
  simp only [← covers_iff, lit, get_plot]
  by_cases hstruck : y % 32 = r.val ∧ covers x bits c = true
  · rw [if_pos hstruck, decide_eq_true hstruck.1, hstruck.2]
    cases (s.pixels.get r).get c <;> rfl
  · have hmissed : (decide (y % 32 = r.val) && covers x bits c) = false := by
      rwa [← Bool.not_eq_true, Bool.and_eq_true, decide_eq_true_eq]
    rw [if_neg hstruck, hmissed]
    cases (s.pixels.get r).get c <;> rfl

/-- The result says whether a pixel that was on was struck. -/
theorem plot_hit_iff : (s.plot y x bits).1 = true ↔
    ∃ r c, (y % 32 = (r.val : Int) ∧ Strikes x bits c) ∧ s.lit r c = 1 := by
  have hlit : ∀ r c, s.lit r c = 1 ↔ (s.pixels.get r).get c = true := fun r c => Bool.toNat_eq_one
  rw [plot]
  show ((List.finRange 64).any fun c => (s.pixels.get (wrapRow y)).get c && covers x bits c) = true
    ↔ _
  simp only [List.any_eq_true, List.mem_finRange, true_and, Bool.and_eq_true, covers_iff, hlit]
  constructor
  · rintro ⟨c, hon, hstruck⟩
    exact ⟨wrapRow y, c, ⟨wrapRow_eq_iff.mp rfl, hstruck⟩, hon⟩
  · rintro ⟨r, c, ⟨hrow, hstruck⟩, hon⟩
    obtain rfl := wrapRow_eq_iff.mpr hrow
    exact ⟨c, hon, hstruck⟩

theorem drawSprite_cons (s : Screen) (x y bits : Int) (rows : List Int) :
    s.drawSprite x y (bits :: rows) =
      ((s.plot y x bits).1 || ((s.plot y x bits).2.drawSprite x (y + 1) rows).1,
        ((s.plot y x bits).2.drawSprite x (y + 1) rows).2) := rfl

/-- Drawing a sprite flips a pixel as often as it is struck. -/
theorem lit_drawSprite (s : Screen) (x y : Int) (rows : List Int) (r : Fin 32) (c : Fin 64) :
    (s.drawSprite x y rows).2.lit r c = (s.lit r c + strikes x y rows r c) % 2 := by
  induction rows generalizing s y with
  | nil =>
    have hle := s.lit_le_one r c
    show s.lit r c = (s.lit r c + 0) % 2
    omega
  | cons bits rest ih =>
    rw [drawSprite_cons, ih, lit_plot, strikes_cons]
    omega

/-- A pixel is struck while it is on just when it is on at first and struck at all, or
struck twice. -/
theorem hit_drawSprite_iff (s : Screen) (x y : Int) (rows : List Int) :
    (s.drawSprite x y rows).1 = true ↔ ∃ r c, 2 ≤ s.lit r c + strikes x y rows r c := by
  induction rows generalizing s y with
  | nil =>
    refine ⟨fun h => (nomatch h), ?_⟩
    rintro ⟨r, c, hstruck⟩
    have hle := s.lit_le_one r c
    rw [strikes_nil] at hstruck
    omega
  | cons bits rest ih =>
    -- pixel by pixel: on and struck by the first row, or struck while on by a later one
    have hpixel (r : Fin 32) (c : Fin 64) :
        2 ≤ s.lit r c + strikes x y (bits :: rest) r c ↔
          ((y % 32 = r.val ∧ Strikes x bits c) ∧ s.lit r c = 1) ∨
            2 ≤ (s.plot y x bits).2.lit r c + strikes x (y + 1) rest r c := by
      have hle := s.lit_le_one r c
      rw [lit_plot, strikes_cons]
      by_cases hfirst : y % 32 = r.val ∧ Strikes x bits c
      · simp only [hfirst, and_self, if_true, true_and]
        omega
      · simp only [hfirst, if_false, false_and, false_or]
        omega
    rw [drawSprite_cons, Bool.or_eq_true, plot_hit_iff, ih]
    simp only [hpixel, exists_or]

/-- **Drawing a sprite, pixel by pixel.** Take any screen, any two coordinates and any rows,
as many as there are, and let a pixel be struck by so many of them. It is flipped that
often, the result says whether some pixel was on and struck, counting a pixel that the
sprite itself has turned on, and the screen is marked as touched. -/
theorem flips_drawSprite (s : Screen) (x y : Int) (rows : List Int) :
    (∀ r c, (s.drawSprite x y rows).2.lit r c = (s.lit r c + strikes x y rows r c) % 2) ∧
    ((s.drawSprite x y rows).1 = true ↔ ∃ r c, 2 ≤ s.lit r c + strikes x y rows r c) ∧
    (s.drawSprite x y rows).2.dirty = true :=
  ⟨s.lit_drawSprite x y rows, s.hit_drawSprite_iff x y rows, s.dirty_drawSprite x y rows⟩

/-- The thirty-third row falls on the first one. -/
example : strikes (-1) 0 (List.replicate 33 (-1)) 0 3 = 2 := by decide +kernel

/-! ## Sprites that strike no pixel twice -/

theorem strikes_pos_iff : 0 < strikes x y rows r c ↔
    ∃ (i : Nat) (bits : Int), rows[i]? = some bits ∧ (y + i) % 32 = r.val ∧ Strikes x bits c := by
  rw [strikes, List.countP_pos_iff]
  constructor
  · rintro ⟨⟨bits, i⟩, hmem, hstruck⟩
    exact ⟨i, bits, List.mem_zipIdx_iff_getElem?.mp hmem, of_decide_eq_true hstruck⟩
  · rintro ⟨i, bits, hrow, hstruck⟩
    exact ⟨(bits, i), List.mem_zipIdx_iff_getElem?.mpr hrow, decide_eq_true hstruck⟩

/-- The rows of a sprite that is no taller than the screen lie in different rows of it. -/
theorem strikes_le_one (h : rows.length ≤ 32) : strikes x y rows r c ≤ 1 := by
  induction rows generalizing y with
  | nil => exact Nat.zero_le 1
  | cons bits rest ih =>
    rw [List.length_cons] at h
    have hrest : strikes x (y + 1) rest r c ≤ 1 := ih (by omega)
    rw [strikes_cons]
    by_cases hfirst : y % 32 = r.val ∧ Strikes x bits c
    · have hnone : ¬ 0 < strikes x (y + 1) rest r c := by
        rw [strikes_pos_iff]
        rintro ⟨i, other, hother, hrow, -⟩
        obtain ⟨hi, -⟩ := List.getElem?_eq_some_iff.mp hother
        omega
      rw [if_pos hfirst]
      omega
    · rw [if_neg hfirst]
      omega

/-- A set bit of a sprite lands on a pixel when the sprite is drawn from a column and a row
on: bit `7 - j` of its `i`-th byte lands `j` columns to the right and `i` rows below, around
the edges. -/
def Lands (column row : Nat) (sprite : List UInt8) (r : Fin 32) (c : Fin 64) : Prop :=
  ∃ (i j : Nat) (byte : UInt8), sprite[i]? = some byte ∧ j < 8 ∧
    byte.toNat.testBit (7 - j) = true ∧ (row + i) % 32 = r.val ∧ (column + j) % 64 = c.val

theorem strikes_byte_iff {column : Nat} {byte : UInt8} : Strikes column byte.toNat c ↔
    ∃ j < 8, byte.toNat.testBit (7 - j) = true ∧ (column + j) % 64 = c.val := by
  have hplace : ∀ j < 8, (column + j) % 64 = c.val ↔ ((c.val : Int) - column) % 64 = j := by
    intro j hj
    omega
  constructor
  · rintro ⟨hlt, hbit⟩
    refine ⟨(((c.val : Int) - column) % 64).toNat, by omega, hbit, ?_⟩
    rw [hplace _ (by omega)]
    omega
  · rintro ⟨j, hj, hbit, hcolumn⟩
    rw [hplace j hj] at hcolumn
    rw [Strikes, hcolumn, Int.toNat_natCast]
    exact ⟨by omega, hbit⟩

/-- A pixel is struck by a sprite of bytes when a set bit lands on it. -/
theorem strikes_bytes_pos_iff {column row : Nat} {sprite : List UInt8} :
    0 < strikes column row (sprite.map fun byte => (byte.toNat : Int)) r c ↔
      Lands column row sprite r c := by
  have hrow : ∀ i : Nat, ((row : Int) + i) % 32 = r.val ↔ (row + i) % 32 = r.val := by
    intro i
    omega
  rw [strikes_pos_iff]
  constructor
  · rintro ⟨i, bits, hbits, hi, hstruck⟩
    rw [List.getElem?_map] at hbits
    obtain ⟨byte, hbyte, rfl⟩ := Option.map_eq_some_iff.mp hbits
    obtain ⟨j, hj, hbit, hcolumn⟩ := strikes_byte_iff.mp hstruck
    exact ⟨i, j, byte, hbyte, hj, hbit, (hrow i).mp hi, hcolumn⟩
  · rintro ⟨i, j, byte, hbyte, hj, hbit, hi, hcolumn⟩
    refine ⟨i, byte.toNat, ?_, (hrow i).mpr hi, strikes_byte_iff.mpr ⟨j, hj, hbit, hcolumn⟩⟩
    rw [List.getElem?_map, hbyte, Option.map_some]

/-- What drawing a sprite that is no taller than the screen makes of a pixel. -/
theorem get_drawSprite (s : Screen) (column row : Nat) {sprite : List UInt8}
    (h : sprite.length ≤ 32) (r : Fin 32) (c : Fin 64) :
    let drawn := (s.drawSprite column row (sprite.map fun byte => (byte.toNat : Int))).2
    (Lands column row sprite r c → (drawn.pixels.get r).get c = !(s.pixels.get r).get c) ∧
    (¬ Lands column row sprite r c → (drawn.pixels.get r).get c = (s.pixels.get r).get c) := by
  intro drawn
  have hlit := s.lit_drawSprite column row (sprite.map fun byte => (byte.toNat : Int)) r c
  have hle : strikes column row (sprite.map fun byte => (byte.toNat : Int)) r c ≤ 1 :=
    strikes_le_one (by rwa [List.length_map])
  rw [← strikes_bytes_pos_iff]
  generalize strikes column row (sprite.map _) r c = struck at hlit hle ⊢
  have hflipped : ∀ new old : Bool, new.toNat = (old.toNat + 1) % 2 → new = !old := by decide
  have hkept : ∀ new old : Bool, new.toNat = (old.toNat + 0) % 2 → new = old := by decide
  constructor
  · intro hstruck
    obtain rfl : struck = 1 := by omega
    exact hflipped _ _ hlit
  · intro hmissed
    obtain rfl : struck = 0 := by omega
    exact hkept _ _ hlit

/-- The result of drawing a sprite that is no taller than the screen says whether a set bit
of it lands on a pixel that is on. -/
theorem hit_drawSprite_iff_lands (s : Screen) (column row : Nat) {sprite : List UInt8}
    (h : sprite.length ≤ 32) :
    (s.drawSprite column row (sprite.map fun byte => (byte.toNat : Int))).1 = true ↔
      ∃ r c, Lands column row sprite r c ∧ (s.pixels.get r).get c = true := by
  rw [hit_drawSprite_iff]
  refine exists_congr fun r => exists_congr fun c => ?_
  have hon : s.lit r c = 1 ↔ (s.pixels.get r).get c = true := Bool.toNat_eq_one
  have hlit := s.lit_le_one r c
  have hle : strikes column row (sprite.map fun byte => (byte.toNat : Int)) r c ≤ 1 :=
    strikes_le_one (by rwa [List.length_map])
  rw [← strikes_bytes_pos_iff, ← hon]
  omega

end Screen

/-! ## The instruction that draws -/

namespace Machine

variable {m m' m'' : Machine} {column row : Nat} {sprite : List UInt8}

/-- The coordinate that a register gives to a sprite. The flag register gives zero. -/
def coordinate (m : Machine) (k : Fin 16) : Nat :=
  if k = Registers.flag then 0 else (m.registers.v.get k).toNat

/-- What drawing a sprite from a column and a row on makes of a machine: it flips the pixels
that a set bit lands on, puts into the flag register whether one of them was on, and goes on
behind the instruction. -/
structure Stamped (m m' : Machine) (column row : Nat) (sprite : List UInt8) : Prop where
  flipped : ∀ r c, Screen.Lands column row sprite r c →
    (m'.screen.pixels.get r).get c = !(m.screen.pixels.get r).get c
  kept : ∀ r c, ¬ Screen.Lands column row sprite r c →
    (m'.screen.pixels.get r).get c = (m.screen.pixels.get r).get c
  hit : (∃ r c, Screen.Lands column row sprite r c ∧ (m.screen.pixels.get r).get c = true) →
    m'.registers.v.get Registers.flag = 1
  missed : (¬ ∃ r c, Screen.Lands column row sprite r c ∧ (m.screen.pixels.get r).get c = true) →
    m'.registers.v.get Registers.flag = 0
  others : ∀ k ≠ Registers.flag, m'.registers.v.get k = m.registers.v.get k
  index : m'.registers.i = m.registers.i
  memory : m'.memory = m.memory
  counter : m'.registers.pc = m.registers.pc + 2

theorem toNat_setV_flag (m : Machine) (k : Fin 16) :
    ((m.registers.setV Registers.flag 0).v.get k).toNat = m.coordinate k := by
  rw [coordinate, Registers.setV, get_fill]
  by_cases hk : k = Registers.flag
  · rw [if_pos hk, if_pos hk.symm]
    rfl
  · rw [if_neg hk, if_neg (Ne.symm hk)]

theorem stamped_drawn (m : Machine) (x y : Fin 16) (h : sprite.length ≤ 32) :
    m.Stamped ((m.drawn x y sprite).withRegisters (m.drawn x y sprite).registers.next)
      (m.coordinate x) (m.coordinate y) sprite := by
  have hpixels := m.screen.get_drawSprite (m.coordinate x) (m.coordinate y) h
  have hhit := m.screen.hit_drawSprite_iff_lands (m.coordinate x) (m.coordinate y) h
  have hset (r : Registers) (value : UInt8) :
      (r.setV Registers.flag value).v.get Registers.flag = value := by
    rw [Registers.setV, get_fill, if_pos rfl]
  have hothers (r : Registers) (value : UInt8) :
      ∀ k ≠ Registers.flag, (r.setV Registers.flag value).v.get k = r.v.get k := by
    intro k hk
    rw [Registers.setV, get_fill, if_neg (Ne.symm hk)]
  simp only [drawn, toNat_setV_flag]
  generalize m.screen.drawSprite (m.coordinate x) (m.coordinate y) _ = result at hpixels hhit ⊢
  obtain ⟨_ | _, screen⟩ := result
  · have hnone := mt hhit.mpr Bool.false_ne_true
    exact {
      flipped := fun r c => (hpixels r c).1
      kept := fun r c => (hpixels r c).2
      hit := fun hsome => absurd hsome hnone
      missed := fun _ => hset _ 0
      others := fun k hk => hothers _ _ k hk
      index := rfl
      memory := rfl
      counter := rfl }
  · have hsome := hhit.mp rfl
    exact {
      flipped := fun r c => (hpixels r c).1
      kept := fun r c => (hpixels r c).2
      hit := fun _ => hset _ 1
      missed := fun hnone => absurd hsome hnone
      others := fun k hk => (hothers _ _ k hk).trans (hothers _ _ k hk)
      index := rfl
      memory := rfl
      counter := rfl }

namespace Stamped

/-- What a sprite has flipped twice is as it was, whatever else is changed in between. -/
theorem pixels_eq {between : Machine} (h : m.Stamped m' column row sprite)
    (hsame : between.screen = m'.screen) (h' : between.Stamped m'' column row sprite) :
    m''.screen.pixels = m.screen.pixels := by
  refine eq_of_get fun r => eq_of_get fun c => ?_
  by_cases hlands : Screen.Lands column row sprite r c
  · rw [h'.flipped r c hlands, hsame, h.flipped r c hlands, Bool.not_not]
  · rw [h'.kept r c hlands, hsame, h.kept r c hlands]

/-- A set bit lands on a pixel that is on for the second time just when the pixel was off
for the first. -/
theorem lands_on_iff (h : m.Stamped m' column row sprite) {r : Fin 32} {c : Fin 64} :
    (Screen.Lands column row sprite r c ∧ (m'.screen.pixels.get r).get c = true) ↔
      Screen.Lands column row sprite r c ∧ (m.screen.pixels.get r).get c = false := by
  refine and_congr_right fun hlands => ?_
  rw [h.flipped r c hlands, Bool.not_eq_true']

/-- Where a sprite is drawn does not depend on the flag register. -/
theorem coordinate_eq (h : m.Stamped m' column row sprite) (k : Fin 16) :
    m'.coordinate k = m.coordinate k := by
  rw [coordinate, coordinate]
  by_cases hk : k = Registers.flag
  · rw [if_pos hk, if_pos hk]
  · rw [if_neg hk, if_neg hk, h.others k hk]

end Stamped

end Machine

namespace Processor

variable {p : Processor}

/-- The processor with its program counter at another address. -/
def withCounter (p : Processor) (address : Int) : Processor :=
  { p with machine := p.machine.withRegisters (p.machine.registers.goto address) }

/-- A sprite that lies in memory is drawn. -/
theorem step_draw {start : Nat} (hlow : 0 ≤ p.machine.registers.pc)
    (hpc : p.machine.registers.pc ≤ 4094) (hword : p.machine.word / 0x1000 = 0xD)
    (hindex : p.machine.registers.i = start) (hsprite : start + p.machine.word % 0x10 ≤ 4096) :
    ∃ q, step p = .ok (some ⟨p.machine.word, .draw⟩) q ∧
      p.machine.Stamped q.machine (p.machine.coordinate (wordDigit p.machine.word 2))
        (p.machine.coordinate (wordDigit p.machine.word 1))
        (p.machine.memory.bytesAt start (p.machine.word % 0x10)) := by
  have hup : p.machine.upcoming = .ok (some ⟨p.machine.word, .draw⟩) :=
    Machine.upcoming_of_hasForm hlow hpc nofun hword
  have hshort : (p.machine.memory.bytesAt start (p.machine.word % 0x10)).length ≤ 32 := by
    rw [Memory.length_bytesAt]
    omega
  have heffect : ∃ m', Instruction.effect ⟨p.machine.word, .draw⟩ p.draws.next p.machine = .ok m' ∧
      p.machine.Stamped m' (p.machine.coordinate (wordDigit p.machine.word 2))
        (p.machine.coordinate (wordDigit p.machine.word 1))
        (p.machine.memory.bytesAt start (p.machine.word % 0x10)) := by
    refine ⟨_, ?_, p.machine.stamped_drawn _ _ hshort⟩
    rw [Instruction.effect, Instruction.val_n, hindex]
    show (p.machine.memory.readBlock start (p.machine.word % 0x10 : Nat)).map _ = _
    rw [Memory.readBlock_eq_bytesAt hsprite]
    rfl
  obtain ⟨m', heffect, hstamped⟩ := heffect
  obtain ⟨hstep, rfl⟩ := step_of_effect hup heffect
  exact ⟨_, hstep, hstamped⟩

/-- **Drawing twice erases.** Take a processor that can be reached, at an instruction that
draws a sprite which lies in memory; its coordinates may be in any registers. It is executed,
and executed again from the same address. Both times the bytes at the address register are
drawn from the same column and row, which count the flag register as zero; the flag register
then says whether a set bit landed on a pixel that was on, which the second time is one that
was off at first; and the screen is left as it was. -/
theorem Reachable.step_draw_twice (h : Reachable p) (hpc : p.machine.registers.pc ≤ 4094)
    (hword : p.machine.word / 0x1000 = 0xD)
    (hsprite : p.machine.registers.i + (p.machine.word % 0x10 : Nat) ≤ 4096) :
    let m := p.machine
    let column := m.coordinate (wordDigit m.word 2)
    let row := m.coordinate (wordDigit m.word 1)
    let sprite := m.memory.bytesAt m.registers.i.toNat (m.word % 0x10)
    ∃ q q', step p = .ok (some ⟨m.word, .draw⟩) q ∧
      m.Stamped q.machine column row sprite ∧
      step (q.withCounter m.registers.pc) = .ok (some ⟨m.word, .draw⟩) q' ∧
      (q.withCounter m.registers.pc).machine.Stamped q'.machine column row sprite ∧
      q'.machine.screen.pixels = m.screen.pixels ∧
      ((∃ r c, Screen.Lands column row sprite r c ∧ (m.screen.pixels.get r).get c = false) →
        q'.machine.registers.v.get Registers.flag = 1) ∧
      ((¬ ∃ r c, Screen.Lands column row sprite r c ∧ (m.screen.pixels.get r).get c = false) →
        q'.machine.registers.v.get Registers.flag = 0) := by
  intro m column row sprite
  have hlow := h.bounded.registers.pc_nonneg
  have hindex : p.machine.registers.i = p.machine.registers.i.toNat :=
    (Int.toNat_of_nonneg h.bounded.registers.i_nonneg).symm
  have hfits : p.machine.registers.i.toNat + p.machine.word % 0x10 ≤ 4096 := by omega
  obtain ⟨q, hstep, hstamped⟩ := step_draw hlow hpc hword hindex hfits
  -- the second time memory, the address register and the word are the same
  have hagain : (q.withCounter m.registers.pc).machine.word = m.word :=
    congrArg (fun memory => Memory.wordAt memory m.registers.pc.toNat) hstamped.memory
  obtain ⟨q', hstep', hstamped'⟩ := step_draw (p := q.withCounter m.registers.pc) hlow hpc
    (by rw [hagain]; exact hword) (hstamped.index.trans hindex) (by rw [hagain]; exact hfits)
  have hcoordinate (k : Fin 16) : (q.withCounter m.registers.pc).machine.coordinate k =
      m.coordinate k := hstamped.coordinate_eq k
  have hmemory : (q.withCounter m.registers.pc).machine.memory = m.memory := hstamped.memory
  have hscreen : (q.withCounter m.registers.pc).machine.screen = q.machine.screen := rfl
  rw [hagain, hcoordinate, hcoordinate, hmemory] at hstamped'
  rw [hagain] at hstep'
  have hlands : (∃ r c, Screen.Lands column row sprite r c ∧
      ((q.withCounter m.registers.pc).machine.screen.pixels.get r).get c = true) ↔
      ∃ r c, Screen.Lands column row sprite r c ∧ (m.screen.pixels.get r).get c = false :=
    exists_congr fun r => exists_congr fun c => hstamped.lands_on_iff
  exact ⟨q, q', hstep, hstamped, hstep', hstamped', hstamped.pixels_eq hscreen hstamped',
    fun hoff => hstamped'.hit (hlands.mpr hoff), fun hnone => hstamped'.missed (mt hlands.mp hnone)⟩

/-- The glyph of zero is drawn with the flag register as both coordinates. It holds seven at
first, and one after the second time; the glyph is drawn in the corner of the screen. -/
theorem step_draw_twice_flag :
    let machine : Machine :=
      { Machine.initial with
        memory := Machine.initial.memory.store Memory.programStart [0x6F, 0x07, 0xDF, 0xF5] }
    let p : Processor := act (.ofMachine machine (.ofSource fun _ => 0) (.new false)) .step
    p.machine.registers.v.get Registers.flag = 7 ∧
    ∃ q q', step p = .ok (some ⟨0xDFF5, .draw⟩) q ∧
      (q.machine.screen.pixels.get 0).get 0 = true ∧
      q.machine.registers.v.get Registers.flag = 0 ∧
      step (q.withCounter 0x202) = .ok (some ⟨0xDFF5, .draw⟩) q' ∧
      q'.machine.screen.pixels = Screen.dark ∧
      q'.machine.registers.v.get Registers.flag = 1 := by
  intro machine p
  have hreachable : Reachable p := .act (.start (Machine.ofProgram_of_le (by decide)) _ _) .step
  -- the facts are computed together, for the machine is the same in all of them
  obtain ⟨hseven, hpc, hword, hindex, hdark, hsprite⟩ :
      p.machine.registers.v.get Registers.flag = 7 ∧ p.machine.registers.pc = 0x202 ∧
      p.machine.word = 0xDFF5 ∧ p.machine.registers.i = 0 ∧
      p.machine.screen.pixels = Screen.dark ∧
      p.machine.memory.bytesAt 0 5 = [0xF0, 0x90, 0x90, 0x90, 0xF0] := by
    decide +kernel
  obtain ⟨q, q', hstep, hstamped, hstep', -, hpixels, hoff, -⟩ :=
    hreachable.step_draw_twice (by rw [hpc]; decide) (by rw [hword]) (by rw [hword, hindex]; decide)
  have hzero (digit : Nat) (h : wordDigit (0xDFF5 : Nat) digit = Registers.flag) :
      p.machine.coordinate (wordDigit (0xDFF5 : Nat) digit) = 0 := by
    rw [Machine.coordinate, if_pos h]
  rw [hword, hzero 2 rfl, hzero 1 rfl, hindex] at hstamped hoff
  have hcorner : Screen.Lands 0 0 (p.machine.memory.bytesAt 0 5) 0 0 :=
    ⟨0, 0, 0xF0, by rw [hsprite]; rfl, by decide, by decide, rfl, rfl⟩
  have hlit (r : Fin 32) (c : Fin 64) : (p.machine.screen.pixels.get r).get c = false := by
    rw [hdark, Screen.get_dark]
  rw [hword] at hstep hstep'
  rw [hpc] at hstep'
  refine ⟨hseven, q, q', hstep, ?_, ?_, hstep', hpixels.trans hdark, hoff ⟨0, 0, hcorner, hlit 0 0⟩⟩
  · rw [hstamped.flipped 0 0 hcorner, hlit]
    rfl
  · refine hstamped.missed ?_
    rintro ⟨r, c, -, hon⟩
    rw [hlit] at hon
    cases hon

end Processor

end ChipEight
