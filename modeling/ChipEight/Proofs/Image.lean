import ChipEight.Session
import ChipEight.Proofs.Accessors
import ChipEight.Proofs.Action

/-!
# From a program image to memory

The size of a program image is looked at twice, when its file is read and when it is loaded, and
both tests are the same one. An image that passes is loaded byte for byte: memory then holds the
font, zeros up to the image, the image, and zeros behind it (`Memory.Holds`). An image that does
not pass is refused with the same fault in both places, and memory is left as it is. The whole
way from the file to memory is told by `Program.loads_verbatim`.
-/

namespace ChipEight

/-! ## Reading an image -/

namespace Program

variable {reader : Reader} {path : String} {content : List UInt8}

/-- A reader is asked for any path without the character with the code zero. -/
theorem fetch_eq (h : '\x00' ∉ path.toList) :
    fetch reader path = (image reader path).mapError .fault := by
  have hcontains : ¬ path.toList.contains '\x00' = true := by
    rwa [List.contains_iff_mem]
  rw [fetch, if_neg hcontains]

theorem image_of_fits (hread : reader path = .ok content) (hfits : content.length ≤ 3584) :
    image reader path = .ok content := by
  rw [image, hread]
  exact if_neg (Nat.not_lt.mpr hfits)

theorem image_of_tooLong (hread : reader path = .ok content) (hlong : 3584 < content.length) :
    image reader path = .error (.programTooLarge content.length 3584) := by
  rw [image, hread]
  exact if_pos hlong

end Program

/-! ## Loading an image -/

namespace Memory

variable {m m' : Memory} {program : List UInt8}

/-- An image that does not fit is refused before anything is written. -/
theorem loadInPlace_of_tooLong (m : Memory) (h : 3584 < program.length) :
    loadInPlace program m = .error (.programTooLarge program.length 3584) m := by
  have hlimit : program.length > programLimit := h
  rw [loadInPlace, if_pos hlimit]
  rfl

theorem load_of_tooLong (m : Memory) (h : 3584 < program.length) :
    m.load program = .error (.programTooLarge program.length 3584) := by
  rw [load, resulting, m.loadInPlace_of_tooLong h]

/-- The memory `m'` is `m` with a program loaded: the image stands in the place of as many bytes,
from `0x200` on, and the bytes outside of it are what they were. -/
structure Loaded (m m' : Memory) (program : List UInt8) : Prop where
  inside : ∀ (i : Nat) (hi : i < program.length), m'.readByte (0x200 + i) = .ok program[i]
  outside : ∀ place : Int, place < 0x200 ∨ 0x200 + program.length ≤ place →
    m'.readByte place = m.readByte place
  toList_eq : m'.bytes.toList =
    m.bytes.toList.take 0x200 ++ program ++ m.bytes.toList.drop (0x200 + program.length)
  length : m'.bytes.toList.length = 4096

/-- The bytes of a block that was stored are read one by one. -/
theorem readByte_store_of_inside (m : Memory) {start : Nat} {bytes : List UInt8}
    (h : start + bytes.length ≤ 4096) (i : Nat) (hi : i < bytes.length) :
    (m.store start bytes).readByte (start + i) = .ok bytes[i] := by
  have hread := readByte_bytesAt (m := m.store start bytes) h i (by rwa [length_bytesAt])
  exact hread.trans (congrArg Except.ok (List.getElem_of_eq (m.bytesAt_store h) _))

theorem loaded_store (m : Memory) (h : program.length ≤ 3584) :
    m.Loaded (m.store 0x200 program) program := by
  have hfits : 0x200 + program.length ≤ 4096 := by omega
  exact ⟨m.readByte_store_of_inside hfits, fun _ hplace => m.readByte_store_of_outside hfits hplace,
    m.toList_store hfits, length_toList _⟩

theorem loaded_of_load (h : m.load program = .ok m') : m.Loaded m' program := by
  rcases Nat.lt_or_ge 3584 program.length with hlong | hfits
  · rw [m.load_of_tooLong hlong] at h
    cases h
  · rw [m.load_of_le hfits] at h
    obtain rfl := Except.ok.inj h
    exact m.loaded_store hfits

/-- Memory holds the font at the bottom, an image from `0x200` on, and otherwise zeros. -/
structure Holds (m : Memory) (program : List UInt8) : Prop where
  font : ∀ (i : Nat) (hi : i < 80), m.readByte i = .ok Font.glyphs[i]
  below : ∀ i : Nat, 80 ≤ i → i < 0x200 → m.readByte i = .ok 0
  image : ∀ (i : Nat) (hi : i < program.length), m.readByte (0x200 + i) = .ok program[i]
  above : ∀ i : Nat, 0x200 + program.length ≤ i → i < 4096 → m.readByte i = .ok 0

theorem readByte_zeros {i : Nat} (h : i < 4096) :
    (⟨Vector.replicate 4096 0⟩ : Memory).readByte i = .ok 0 := by
  have hbounds : InBounds i 1 := ⟨by omega, by simp only [size]; omega⟩
  rw [readByte_of_inBounds hbounds, byteAt, Int.toNat_natCast, Vector.getElem?_replicate, if_pos h]
  rfl

theorem readByte_blank_of_lt {i : Nat} (h : i < 80) : blank.readByte i = .ok Font.glyphs[i] := by
  have hfits : 0 + Font.glyphs.length ≤ 4096 := by decide
  have hfont := readByte_store_of_inside ⟨Vector.replicate 4096 0⟩ hfits i h
  rwa [Int.natCast_zero, Int.zero_add] at hfont

theorem readByte_blank_of_le {i : Nat} (hlow : 80 ≤ i) (hhigh : i < 4096) :
    blank.readByte i = .ok 0 := by
  have hplace : 0 + (Font.glyphs.length : Int) ≤ i := by
    show (0 : Int) + 80 ≤ i
    omega
  exact (readByte_store_of_outside _ (by decide) (.inr hplace)).trans (readByte_zeros hhigh)

/-- What memory holds with a program loaded. -/
theorem Loaded.holds (h : blank.Loaded m program) : m.Holds program where
  font := by
    intro i hi
    rw [h.outside i (.inl (by omega)), readByte_blank_of_lt hi]
  below := by
    intro i hlow hhigh
    rw [h.outside i (.inl (by omega)), readByte_blank_of_le hlow (by omega)]
  image := h.inside
  above := by
    intro i hlow hhigh
    rw [h.outside i (.inr (by omega)), readByte_blank_of_le (by omega) hhigh]

end Memory

/-! ## From the file to memory -/

namespace Machine

/-- No machine is built with an image that does not fit. -/
theorem ofProgram_of_tooLong {program : List UInt8} (h : 3584 < program.length) :
    ofProgram program = .error (.programTooLarge program.length 3584) := by
  rw [ofProgram, Memory.load_of_tooLong _ h]
  rfl

end Machine

namespace Program

variable {reader : Reader} {path : String} {content : List UInt8}

/-- **A program image reaches memory as it is.** Take a file that can be read. If it fits, its
content is what is read, a machine is built from it, and the memory of the machine holds the font,
zeros, the content from `0x200` on, and zeros again; it can be loaded into any other memory just
as well. If it does not fit, it is refused when it is read and when it is loaded, with the same
size and the same limit, and memory is what it was. Whatever was loaded into whichever memory, no
byte outside of the image has changed, and memory has kept its size. -/
theorem loads_verbatim (hpath : '\x00' ∉ path.toList) (hread : reader path = .ok content)
    (log : Log) :
    (content.length ≤ 3584 →
      (read reader path log).1 = .ok content ∧
      (∃ machine, Machine.ofProgram content = .ok machine ∧ machine.memory.Holds content) ∧
      ∀ m : Memory, ∃ m', m.load content = .ok m') ∧
    (3584 < content.length →
      (read reader path log).1 = .error (.fault (.programTooLarge content.length 3584)) ∧
      Machine.ofProgram content = .error (.programTooLarge content.length 3584) ∧
      ∀ m : Memory, m.load content = .error (.programTooLarge content.length 3584) ∧
        after (Memory.loadInPlace content) m = m) ∧
    ∀ m m' : Memory, m.load content = .ok m' → m.Loaded m' content := by
  refine ⟨fun hfits => ⟨?_, ⟨_, Machine.ofProgram_of_le hfits, ?_⟩, fun m => ?_⟩,
    fun hlong => ⟨?_, Machine.ofProgram_of_tooLong hlong, fun m => ?_⟩,
    fun m m' => Memory.loaded_of_load⟩
  · rw [read, fetch_eq hpath, image_of_fits hread hfits]
    rfl
  · exact (Memory.blank.loaded_store hfits).holds
  · exact ⟨_, m.load_of_le hfits⟩
  · rw [read, fetch_eq hpath, image_of_tooLong hread hlong]
    rfl
  · refine ⟨m.load_of_tooLong hlong, ?_⟩
    rw [after, m.loadInPlace_of_tooLong hlong]

/-- A file in a directory with a single jump in it is loaded, and one byte too many is refused. -/
theorem loads_verbatim_of_jump :
    let reader : Reader := (FileTree.empty.addFile "roms/a.ch8" [0x12, 0x00]).read
    let long : List UInt8 := List.replicate 3585 0x12
    let everywhere : Reader := fun _ => .ok long
    (read reader "roms/./a.ch8" (.new false)).1 = .ok [0x12, 0x00] ∧
    (∃ machine, Machine.ofProgram [0x12, 0x00] = .ok machine ∧
      machine.memory.readByte 79 = .ok 0x80 ∧ machine.memory.readByte 80 = .ok 0 ∧
      machine.memory.readByte 0x200 = .ok 0x12 ∧ machine.memory.readByte 0x202 = .ok 0) ∧
    (read everywhere "b.ch8" (.new false)).1 =
      .error (.fault (.programTooLarge 3585 3584)) ∧
    Memory.blank.load long = .error (.programTooLarge 3585 3584) := by
  intro reader long everywhere
  have hread : reader "roms/./a.ch8" = .ok [0x12, 0x00] :=
    of_toOption_eq_some (by decide +kernel)
  obtain ⟨hfits, -, -⟩ := loads_verbatim (by decide) hread (.new false)
  obtain ⟨hcontent, ⟨machine, hmachine, hholds⟩, -⟩ := hfits (by decide)
  have hlength : long.length = 3585 := List.length_replicate
  have hpath : '\x00' ∉ "b.ch8".toList := by decide
  have hreadLong : everywhere "b.ch8" = .ok long := rfl
  obtain ⟨-, hlong, -⟩ := loads_verbatim hpath hreadLong (.new false)
  rw [hlength] at hlong
  obtain ⟨hrefused, -, hload⟩ := hlong (by decide)
  exact ⟨hcontent, ⟨machine, hmachine, hholds.font 79 (by decide),
    hholds.below 80 (by decide) (by decide), hholds.image 0 (by decide),
    hholds.above 0x202 (by decide) (by decide)⟩, hrefused, (hload _).1⟩

end Program

end ChipEight
