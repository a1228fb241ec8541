import ChipEight.Proofs.Decoding

/-!
# The grammar of instruction words

The forms of instruction words, said by arithmetic on the low sixteen bits of a word
(`Opcode.HasForm`), and the words that have none (`Opcode.Unassigned`). A word has at most
one form, and the decoder finds it: `Instruction.decode_grammar`. It finds it with the rows
of the table in any order, as long as the rows of `00E0` and `00EE` stand ahead of that of
`0nnn`.

A row fixes digits of the words that it admits. That is the same as fixing the bits under a
mask (`Pattern.admits_iff_mask`).
-/

namespace ChipEight

/-! ## The low sixteen bits -/

/-- The low sixteen bits of a word, in two's complement. -/
def lowBits (word : Int) : Nat := (word % 0x10000).toNat

theorem lowBits_lt (word : Int) : lowBits word < 0x10000 := by
  rw [lowBits]
  omega

/-- The four digits of a word are those of its low sixteen bits. -/
theorem wordDigit_lowBits (word : Int) {place : Nat} (h : place < 4) :
    wordDigit (lowBits word) place = wordDigit word place := by
  have hshift (w : Int) :
      (wordDigit w place).val = (w / (2 ^ (4 * place) : Nat) % 16).toNat :=
    congrArg (fun w : Int => (w % 16).toNat) (Int.shiftRight_eq_div_pow w (4 * place))
  refine Fin.ext ?_
  rw [hshift, hshift, lowBits]
  obtain rfl | rfl | rfl | rfl : place = 0 ∨ place = 1 ∨ place = 2 ∨ place = 3 := by omega
  all_goals
    simp only [Nat.reducePow, Nat.reduceMul]
    omega

theorem val_lowDigit (word : Int) {place : Nat} (h : place < 4) :
    (wordDigit word place).val = lowBits word >>> (4 * place) % 16 := by
  rw [← wordDigit_lowBits word h, val_wordDigit]

namespace Pattern

theorem admits_lowBits (p : Pattern) (word : Int) : p.admits (lowBits word) = p.admits word := by
  simp only [admits, wordDigit_lowBits word (by decide : 0 < 4),
    wordDigit_lowBits word (by decide : 1 < 4), wordDigit_lowBits word (by decide : 2 < 4),
    wordDigit_lowBits word (by decide : 3 < 4)]

/-- Numbers are masked digit by digit. -/
theorem and_digits {a b c d : Nat} (hb : b < 16) (hd : d < 16) :
    (a * 16 + b) &&& (c * 16 + d) = (a &&& c) * 16 + (b &&& d) := by
  have hlow := Nat.and_mod_two_pow (a := a * 16 + b) (b := c * 16 + d) (n := 4)
  have hhigh := Nat.and_div_two_pow (a := a * 16 + b) (b := c * 16 + d) (n := 4)
  rw [show (a * 16 + b) % 2 ^ 4 = b by omega, show (c * 16 + d) % 2 ^ 4 = d by omega] at hlow
  rw [show (a * 16 + b) / 2 ^ 4 = a by omega, show (c * 16 + d) / 2 ^ 4 = c by omega] at hhigh
  omega

/-- A digit is admitted when its fixed bits are what they should be. -/
theorem admitsDigit_iff_mask (asked : Option (Fin 16)) (digit : Fin 16) :
    admitsDigit asked digit = true ↔
      digit.val &&& (if asked.isSome then 0xF else 0) = (asked.map Fin.val).getD 0 := by
  rcases asked with _ | d
  · exact ⟨fun _ => Nat.and_zero _, fun _ => rfl⟩
  · have hmasked : digit.val &&& 0xF = digit.val :=
      (Nat.and_two_pow_sub_one_eq_mod digit.val 4).trans (Nat.mod_eq_of_lt digit.isLt)
    rw [admitsDigit_some, Fin.ext_iff]
    show _ ↔ digit.val &&& 0xF = d.val
    rw [hmasked]

/-- **Masks.** A pattern admits the words whose bits under its mask are its value. -/
theorem admits_iff_mask (p : Pattern) (word : Int) :
    p.admits word = true ↔ lowBits word &&& p.mask = p.value := by
  have hdigits : lowBits word = (((wordDigit word 3).val * 16 + (wordDigit word 2).val) * 16 +
      (wordDigit word 1).val) * 16 + (wordDigit word 0).val := by
    have hlt := lowBits_lt word
    rw [val_lowDigit word (by decide : 3 < 4), val_lowDigit word (by decide : 2 < 4),
      val_lowDigit word (by decide : 1 < 4), val_lowDigit word (by decide : 0 < 4)]
    simp only [Nat.shiftRight_eq_div_pow, Nat.reducePow, Nat.reduceMul]
    omega
  have hmask (asked : Option (Fin 16)) : (if asked.isSome then 0xF else 0) < 16 := by
    split <;> decide
  have hmasked (asked : Option (Fin 16)) (digit : Fin 16) :
      digit.val &&& (if asked.isSome then 0xF else 0) < 16 :=
    Nat.lt_of_le_of_lt Nat.and_le_left digit.isLt
  have hvalue (asked : Option (Fin 16)) : (asked.map Fin.val).getD 0 < 16 := by
    rcases asked with _ | d
    · decide
    · exact d.isLt
  rw [admits, Bool.and_eq_true, Bool.and_eq_true, Bool.and_eq_true, admitsDigit_iff_mask,
    admitsDigit_iff_mask, admitsDigit_iff_mask, admitsDigit_iff_mask, mask, value, number, number,
    hdigits, and_digits (Fin.isLt _) (hmask _), and_digits (Fin.isLt _) (hmask _),
    and_digits (Fin.isLt _) (hmask _)]
  have h₃ := hmasked p.first (wordDigit word 3)
  have h₂ := hmasked p.second (wordDigit word 2)
  have h₁ := hmasked p.third (wordDigit word 1)
  have h₀ := hmasked p.fourth (wordDigit word 0)
  have hv₃ := hvalue p.first
  have hv₂ := hvalue p.second
  have hv₁ := hvalue p.third
  have hv₀ := hvalue p.fourth
  omega

end Pattern

/-! ## The forms -/

namespace Opcode

/-- Which words have the form of an opcode, by the number that their low sixteen bits make.
The two words that have a form of their own do not have that of `0nnn`. -/
def HasForm : Opcode → Nat → Prop
  | clear, u => u = 0x00E0
  | ret, u => u = 0x00EE
  | sys, u => u / 0x1000 = 0x0 ∧ u ≠ 0x00E0 ∧ u ≠ 0x00EE
  | jump, u => u / 0x1000 = 0x1
  | call, u => u / 0x1000 = 0x2
  | skipEqByte, u => u / 0x1000 = 0x3
  | skipNeByte, u => u / 0x1000 = 0x4
  | skipEqReg, u => u / 0x1000 = 0x5 ∧ u % 0x10 = 0x0
  | loadByte, u => u / 0x1000 = 0x6
  | addByte, u => u / 0x1000 = 0x7
  | loadReg, u => u / 0x1000 = 0x8 ∧ u % 0x10 = 0x0
  | or, u => u / 0x1000 = 0x8 ∧ u % 0x10 = 0x1
  | and, u => u / 0x1000 = 0x8 ∧ u % 0x10 = 0x2
  | xor, u => u / 0x1000 = 0x8 ∧ u % 0x10 = 0x3
  | add, u => u / 0x1000 = 0x8 ∧ u % 0x10 = 0x4
  | sub, u => u / 0x1000 = 0x8 ∧ u % 0x10 = 0x5
  | shiftRight, u => u / 0x1000 = 0x8 ∧ u % 0x10 = 0x6
  | subFrom, u => u / 0x1000 = 0x8 ∧ u % 0x10 = 0x7
  | shiftLeft, u => u / 0x1000 = 0x8 ∧ u % 0x10 = 0xE
  | skipNeReg, u => u / 0x1000 = 0x9
  | loadIndex, u => u / 0x1000 = 0xA
  | jumpOffset, u => u / 0x1000 = 0xB
  | random, u => u / 0x1000 = 0xC
  | draw, u => u / 0x1000 = 0xD
  | skipKeyDown, u => u / 0x1000 = 0xE ∧ u % 0x100 = 0x9E
  | skipKeyUp, u => u / 0x1000 = 0xE ∧ u % 0x100 = 0xA1
  | readDelay, u => u / 0x1000 = 0xF ∧ u % 0x100 = 0x07
  | waitKey, u => u / 0x1000 = 0xF ∧ u % 0x100 = 0x0A
  | setDelay, u => u / 0x1000 = 0xF ∧ u % 0x100 = 0x15
  | setSound, u => u / 0x1000 = 0xF ∧ u % 0x100 = 0x18
  | addIndex, u => u / 0x1000 = 0xF ∧ u % 0x100 = 0x1E
  | glyph, u => u / 0x1000 = 0xF ∧ u % 0x100 = 0x29
  | decimal, u => u / 0x1000 = 0xF ∧ u % 0x100 = 0x33
  | storeRegs, u => u / 0x1000 = 0xF ∧ u % 0x100 = 0x55
  | loadRegs, u => u / 0x1000 = 0xF ∧ u % 0x100 = 0x65

/-- The words without a form: `5xy?`, `8xy?`, `Ex??` and `Fx??` with any other end than those
of the forms. -/
def Unassigned (u : Nat) : Prop :=
  (u / 0x1000 = 0x5 ∧ u % 0x10 ≠ 0x0) ∨
  (u / 0x1000 = 0x8 ∧ u % 0x10 ∉ [0x0, 0x1, 0x2, 0x3, 0x4, 0x5, 0x6, 0x7, 0xE]) ∨
  (u / 0x1000 = 0xE ∧ u % 0x100 ∉ [0x9E, 0xA1]) ∨
  (u / 0x1000 = 0xF ∧ u % 0x100 ∉ [0x07, 0x0A, 0x15, 0x18, 0x1E, 0x29, 0x33, 0x55, 0x65])

variable {op : Opcode} {u : Nat}

theorem admits_sys_iff (hu : u < 0x10000) : sys.Admits u ↔ sys.HasForm u := by
  have hclear : clear.row.pattern.admits u = true ↔ u = 0x00E0 := admits_row4 hu
  have hret : ret.row.pattern.admits u = true ↔ u = 0x00EE := admits_row4 hu
  refine and_congr (admits_row1 hu) ⟨fun hfree => ⟨fun h => ?_, fun h => ?_⟩, ?_⟩
  · exact absurd (hclear.mpr h) (Bool.eq_false_iff.mp (hfree clear rfl))
  · exact absurd (hret.mpr h) (Bool.eq_false_iff.mp (hfree ret rfl))
  · rintro ⟨hne, hne'⟩ other hshadow
    simp only [shadows, Bool.and_eq_true, Bool.or_eq_true, decide_eq_true_eq] at hshadow
    rcases hshadow.2 with rfl | rfl
    · exact Bool.eq_false_iff.mpr fun h => hne (hclear.mp h)
    · exact Bool.eq_false_iff.mpr fun h => hne' (hret.mp h)

/-- The table and the grammar agree on the form of an opcode. -/
theorem admits_iff_hasForm (hu : u < 0x10000) : op.Admits u ↔ op.HasForm u := by
  cases op
  case sys => exact admits_sys_iff hu
  case clear | ret => exact (admits_iff_of_ne_sys (by decide)).trans (admits_row4 hu)
  case skipEqReg | loadReg | or | and | xor | add | sub | shiftRight | subFrom | shiftLeft =>
    exact (admits_iff_of_ne_sys (by decide)).trans (admits_row2 hu)
  case skipKeyDown | skipKeyUp | readDelay | waitKey | setDelay | setSound | addIndex | glyph |
      decimal | storeRegs | loadRegs =>
    exact (admits_iff_of_ne_sys (by decide)).trans (admits_row3 hu)
  all_goals exact (admits_iff_of_ne_sys (by decide)).trans (admits_row1 hu)

theorem hasForm_lowBits_iff {word : Int} : op.HasForm (lowBits word) ↔ op.Admits word := by
  rw [← admits_iff_hasForm (lowBits_lt word)]
  simp only [Admits, Pattern.admits_lowBits]

/-- No word has the forms of two opcodes. -/
theorem HasForm.unique {op' : Opcode} (hu : u < 0x10000) (h : op.HasForm u) (h' : op'.HasForm u) :
    op = op' :=
  ((admits_iff_hasForm hu).mpr h).unique ((admits_iff_hasForm hu).mpr h')

/-- The word zero has the form of `0nnn` only. -/
theorem HasForm.ne_zero (h : op.HasForm u) (hop : op ≠ sys) : u ≠ 0 := by
  rintro rfl
  cases op
  case sys => exact hop rfl
  all_goals
    simp only [HasForm] at h
    omega

theorem not_hasForm_of_unassigned (h : Unassigned u) : ¬ op.HasForm u := by
  intro hform
  simp only [Unassigned, List.mem_cons, List.not_mem_nil, or_false, not_or] at h
  cases op
  all_goals
    simp only [HasForm] at hform
    omega

/-- A word that is not unassigned has a form: the first digit settles it, or leaves a choice
by the end of the word. -/
theorem exists_hasForm (hu : u < 0x10000) (h : ¬ Unassigned u) : ∃ op : Opcode, op.HasForm u := by
  simp only [Unassigned, not_or, not_and, Decidable.not_not] at h
  obtain ⟨hcompare, harithmetic, hkey, hother⟩ := h
  simp only [List.mem_cons, List.not_mem_nil, or_false] at harithmetic hkey hother
  have hfirst : u / 0x1000 = 0x0 ∨ u / 0x1000 = 0x1 ∨ u / 0x1000 = 0x2 ∨ u / 0x1000 = 0x3 ∨
      u / 0x1000 = 0x4 ∨ u / 0x1000 = 0x5 ∨ u / 0x1000 = 0x6 ∨ u / 0x1000 = 0x7 ∨
      u / 0x1000 = 0x8 ∨ u / 0x1000 = 0x9 ∨ u / 0x1000 = 0xA ∨ u / 0x1000 = 0xB ∨
      u / 0x1000 = 0xC ∨ u / 0x1000 = 0xD ∨ u / 0x1000 = 0xE ∨ u / 0x1000 = 0xF := by
    omega
  rcases hfirst with hd | hd | hd | hd | hd | hd | hd | hd | hd | hd | hd | hd | hd | hd | hd | hd
  · by_cases hclear : u = 0x00E0
    · exact ⟨clear, hclear⟩
    by_cases hret : u = 0x00EE
    · exact ⟨ret, hret⟩
    exact ⟨sys, hd, hclear, hret⟩
  · exact ⟨jump, hd⟩
  · exact ⟨call, hd⟩
  · exact ⟨skipEqByte, hd⟩
  · exact ⟨skipNeByte, hd⟩
  · exact ⟨skipEqReg, hd, hcompare hd⟩
  · exact ⟨loadByte, hd⟩
  · exact ⟨addByte, hd⟩
  · rcases harithmetic hd with hend | hend | hend | hend | hend | hend | hend | hend | hend
    · exact ⟨loadReg, hd, hend⟩
    · exact ⟨or, hd, hend⟩
    · exact ⟨and, hd, hend⟩
    · exact ⟨xor, hd, hend⟩
    · exact ⟨add, hd, hend⟩
    · exact ⟨sub, hd, hend⟩
    · exact ⟨shiftRight, hd, hend⟩
    · exact ⟨subFrom, hd, hend⟩
    · exact ⟨shiftLeft, hd, hend⟩
  · exact ⟨skipNeReg, hd⟩
  · exact ⟨loadIndex, hd⟩
  · exact ⟨jumpOffset, hd⟩
  · exact ⟨random, hd⟩
  · exact ⟨draw, hd⟩
  · rcases hkey hd with hend | hend
    · exact ⟨skipKeyDown, hd, hend⟩
    · exact ⟨skipKeyUp, hd, hend⟩
  · rcases hother hd with hend | hend | hend | hend | hend | hend | hend | hend | hend
    · exact ⟨readDelay, hd, hend⟩
    · exact ⟨waitKey, hd, hend⟩
    · exact ⟨setDelay, hd, hend⟩
    · exact ⟨setSound, hd, hend⟩
    · exact ⟨addIndex, hd, hend⟩
    · exact ⟨glyph, hd, hend⟩
    · exact ⟨decimal, hd, hend⟩
    · exact ⟨storeRegs, hd, hend⟩
    · exact ⟨loadRegs, hd, hend⟩

/-- An opcode is known by its name. -/
theorem name_inj {op op' : Opcode} : op.name = op'.name ↔ op = op' := by
  have hall : ∀ r ∈ table, ∀ s ∈ table, r.opcode.name = s.opcode.name → r.opcode = s.opcode := by
    decide +kernel
  refine ⟨fun h => ?_, congrArg name⟩
  rw [← op.opcode_row, ← op'.opcode_row] at h ⊢
  exact hall op.row op.row_mem op'.row op'.row_mem h

end Opcode

/-! ## Orders of the table -/

/-- Of two rows that stand in a list one after the other, and only once, the first is ahead
of the second. -/
theorem mem_of_pair_sublist {α : Type} {a b : α} {before after : List α}
    (hnodup : (before ++ b :: after).Nodup) (hne : a ≠ b)
    (h : [a, b].Sublist (before ++ b :: after)) : a ∈ before := by
  obtain ⟨-, hafter, hapart⟩ := List.nodup_append.mp hnodup
  obtain ⟨front, back, hsplit, hfront, hback⟩ := List.sublist_append_iff.mp h
  rcases front with _ | ⟨c, front⟩
  · -- then both stand behind `before`, although `b` stands there only at the head
    obtain rfl : [a, b] = back := hsplit
    have hbehind : [a, b].Sublist after := by
      rcases List.sublist_cons_iff.mp hback with hbehind | ⟨rest, hrest, -⟩
      · exact hbehind
      · exact absurd (List.cons.inj hrest).1 hne
    have hmem : b ∈ after := hbehind.subset (List.mem_cons_of_mem _ List.mem_cons_self)
    exact absurd hmem (List.nodup_cons.mp hafter).1
  · obtain rfl : a = c := (List.cons.inj hsplit).1
    exact hfront.subset List.mem_cons_self

/-- The rows in any order are arranged if those of `00E0` and `00EE` stand ahead of that of
`0nnn`. -/
theorem arranged_of_perm {rows : List Row} (hperm : rows.Perm Opcode.table)
    (hclear : [Opcode.clear.row, Opcode.sys.row].Sublist rows)
    (hret : [Opcode.ret.row, Opcode.sys.row].Sublist rows) : Arranged rows := by
  have hnodup : rows.Nodup := hperm.nodup_iff.mpr (by decide)
  refine ⟨fun r => hperm.mem_iff, fun {before after r} hsplit op hshadow => ?_⟩
  subst hsplit
  simp only [Opcode.shadows, Bool.and_eq_true, Bool.or_eq_true, decide_eq_true_eq] at hshadow
  obtain ⟨hsys, hop⟩ := hshadow
  have hmem : r ∈ Opcode.table := hperm.mem_iff.mp (List.mem_append_right _ List.mem_cons_self)
  obtain rfl : Opcode.sys.row = r := by rw [← hsys, Opcode.row_opcode hmem]
  rcases hop with rfl | rfl
  · exact mem_of_pair_sublist hnodup (by decide) hclear
  · exact mem_of_pair_sublist hnodup (by decide) hret

namespace Instruction

variable {rows : List Row} {word : Int}

/-- Arranged rows decode all words alike. -/
theorem decodeWith_eq_decode (hrows : Arranged rows) : decodeWith rows word = decode word := by
  rcases h : decode word with fault | ins
  · rwa [decodeWith_eq_error_iff hrows, ← decodeWith_eq_error_iff arranged_table]
  · rwa [decodeWith_eq_ok_iff hrows, ← decodeWith_eq_ok_iff arranged_table]

/-! ## Decoding -/

/-- Decoding finds the opcode whose form the low bits of the word have. -/
theorem decode_eq_ok_iff_hasForm {ins : Instruction} :
    decode word = .ok ins ↔ ins.word = word ∧ ins.opcode.HasForm (lowBits word) := by
  rw [Opcode.hasForm_lowBits_iff]
  exact decodeWith_eq_ok_iff arranged_table

/-- Decoding is refused when the word is unassigned. -/
theorem decode_eq_error_iff_unassigned {fault : Fault} :
    decode word = .error fault ↔
      Opcode.Unassigned (lowBits word) ∧ fault = .unknownOpcode word none := by
  constructor
  · intro h
    refine ⟨?_, ((decodeWith_eq_error_iff arranged_table).mp h).1⟩
    by_cases hun : Opcode.Unassigned (lowBits word)
    · exact hun
    · obtain ⟨op, hform⟩ := Opcode.exists_hasForm (lowBits_lt word) hun
      have hdecode : decode word = .ok ⟨word, op⟩ := decode_eq_ok_iff_hasForm.mpr ⟨rfl, hform⟩
      rw [hdecode] at h
      cases h
  · rintro ⟨hun, rfl⟩
    rcases h : decode word with fault | ins
    · rw [((decodeWith_eq_error_iff arranged_table).mp h).1]
    · obtain ⟨-, hform⟩ := decode_eq_ok_iff_hasForm.mp h
      exact absurd hform (Opcode.not_hasForm_of_unassigned hun)

/-- The operands of a word are its digits, and what its digits make together. -/
structure Operands (ins : Instruction) (u : Nat) : Prop where
  x : ins.x.val = u / 0x100 % 0x10
  y : ins.y.val = u / 0x10 % 0x10
  n : ins.n.val = u % 0x10
  kk : ins.kk.toNat = u % 0x100
  nnn : ins.nnn = u % 0x1000

theorem operands_lowBits (ins : Instruction) : ins.Operands (lowBits ins.word) := by
  refine ⟨?_, ?_, ?_, ?_, ?_⟩
  · rw [x, val_lowDigit ins.word (by decide), Nat.shiftRight_eq_div_pow]
  · rw [y, val_lowDigit ins.word (by decide), Nat.shiftRight_eq_div_pow]
  · rw [n, val_lowDigit ins.word (by decide), Nat.mul_zero, Nat.shiftRight_zero]
  · rw [Instruction.kk, UInt8.toNat_ofNat', lowBits]
    omega
  · rw [Instruction.nnn, lowBits]
    omega

/-- **The decoder accepts the grammar of instruction words, and nothing else.** A word, taken
by its low sixteen bits, is refused just when it is unassigned, and the fault carries the
whole word. Any other word is decoded, and its mnemonic is that of the one form that it has.
It makes no difference in which order the rows of the table are tried, if those of `00E0`
and `00EE` are tried before that of `0nnn`. -/
theorem decode_grammar (word : Int) :
    let u := lowBits word
    (∀ fault, decode word = .error fault ↔
      Opcode.Unassigned u ∧ fault = .unknownOpcode word none) ∧
    (¬ Opcode.Unassigned u → ∃ ins, decode word = .ok ins ∧ ins.word = word ∧
      (∀ op : Opcode, op.HasForm u ↔ op.name = ins.opcode.name) ∧ ins.Operands u) ∧
    (∀ rows : List Row, rows.Perm Opcode.table →
      [Opcode.clear.row, Opcode.sys.row].Sublist rows →
      [Opcode.ret.row, Opcode.sys.row].Sublist rows → decodeWith rows word = decode word) := by
  intro u
  refine ⟨fun fault => decode_eq_error_iff_unassigned, fun hassigned => ?_,
    fun rows hperm hclear hret => decodeWith_eq_decode (arranged_of_perm hperm hclear hret)⟩
  obtain ⟨op, hform⟩ := Opcode.exists_hasForm (lowBits_lt word) hassigned
  refine ⟨⟨word, op⟩, decode_eq_ok_iff_hasForm.mpr ⟨rfl, hform⟩, rfl, fun other => ?_,
    operands_lowBits _⟩
  rw [Opcode.name_inj]
  constructor
  · intro hother
    exact hother.unique (lowBits_lt word) hform
  · rintro rfl
    exact hform

/-- With all rows behind those of `00E0` and `00EE` turned round, so that `0nnn` comes last,
a negative word is still the sum of `V1` and `VF`, and a word of eighteen bits is refused. -/
theorem decode_grammar_backwards :
    let rows := Opcode.table.take 2 ++ (Opcode.table.drop 2).reverse
    rows.Perm Opcode.table ∧
    (∃ ins, decodeWith rows (-0x27E0C) = .ok ins ∧ ins.opcode.name = "ADD" ∧
      ins.x.val = 0x1 ∧ ins.y.val = 0xF) ∧
    decodeWith rows 0x3F0FF = .error (.unknownOpcode 0x3F0FF none) := by
  intro rows
  have hperm : rows.Perm Opcode.table :=
    ((List.reverse_perm _).append_left _).trans (.of_eq (List.take_append_drop 2 _))
  have hclear : [Opcode.clear.row, Opcode.sys.row].Sublist rows := by decide
  have hret : [Opcode.ret.row, Opcode.sys.row].Sublist rows := by decide
  obtain ⟨-, hdecodes, horder⟩ := decode_grammar (-0x27E0C)
  obtain ⟨hrefused, -, horder'⟩ := decode_grammar 0x3F0FF
  have hlow : lowBits (-0x27E0C) = 0x81F4 := rfl
  have hlow' : lowBits 0x3F0FF = 0xF0FF := rfl
  rw [hlow] at hdecodes
  rw [hlow'] at hrefused
  obtain ⟨ins, hdecode, -, hname, hoperands⟩ := hdecodes (by simp [Opcode.Unassigned])
  refine ⟨hperm, ⟨ins, (horder rows hperm hclear hret).trans hdecode, ?_, hoperands.x,
    hoperands.y⟩, ?_⟩
  · exact ((hname .add).mp (by simp [Opcode.HasForm])).symm
  · rw [horder' rows hperm hclear hret]
    exact (hrefused _).mpr ⟨by simp [Opcode.Unassigned], rfl⟩

end Instruction

end ChipEight
