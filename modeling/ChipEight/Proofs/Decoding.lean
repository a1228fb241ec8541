import ChipEight.Instruction

/-!
# Decoding

The rows of the decoding table exclude one another, with two exceptions: `0nnn`
admits the words of `00E0` and `00EE` as well. That any other two rows fix some
digit differently is a fact about the table that is checked row by row
(`Opcode.clashes_or_shadows`); what it means for words is proved of patterns in
general. So an opcode can be said to admit a word without any mention of an order
(`Opcode.Admits`), and decoding finds the one opcode that does, with whatever list
of the rows it is done, as long as `00E0` and `00EE` stand ahead of `0nnn`.

The second half reads the patterns as conditions on the digits of a word that was
fetched.
-/

namespace ChipEight

/-! ## Patterns that exclude one another -/

namespace Pattern

/-- Whether two digits are asked for that differ. -/
def digitClashes : Option (Fin 16) → Option (Fin 16) → Bool
  | some d, some e => d != e
  | _, _ => false

/-- Whether two patterns ask for different digits at some place. -/
def clashes (p q : Pattern) : Bool :=
  digitClashes p.first q.first || digitClashes p.second q.second ||
    digitClashes p.third q.third || digitClashes p.fourth q.fourth

theorem not_digitClashes {asked asked' : Option (Fin 16)} {digit : Fin 16}
    (h : admitsDigit asked digit = true) (h' : admitsDigit asked' digit = true) :
    digitClashes asked asked' = false := by
  rcases asked with _ | d
  · rfl
  rcases asked' with _ | e
  · rfl
  obtain rfl : d = digit := of_decide_eq_true h
  obtain rfl : e = d := of_decide_eq_true h'
  exact bne_self_eq_false e

/-- No word is admitted by patterns that clash. -/
theorem not_clashes {p q : Pattern} {word : Int} (hp : p.admits word = true)
    (hq : q.admits word = true) : p.clashes q = false := by
  simp only [admits, Bool.and_eq_true] at hp hq
  obtain ⟨⟨⟨hp₃, hp₂⟩, hp₁⟩, hp₀⟩ := hp
  obtain ⟨⟨⟨hq₃, hq₂⟩, hq₁⟩, hq₀⟩ := hq
  rw [clashes, not_digitClashes hp₃ hq₃, not_digitClashes hp₂ hq₂, not_digitClashes hp₁ hq₁,
    not_digitClashes hp₀ hq₀]
  rfl

end Pattern

/-! ## The table -/

namespace Opcode

/-- The row of an opcode. -/
def row (op : Opcode) : Row :=
  (table.find? (·.opcode = op)).getD ⟨⟨none, none, none, none⟩, op⟩

theorem row_mem (op : Opcode) : op.row ∈ table := by
  cases op <;> decide

theorem opcode_row (op : Opcode) : op.row.opcode = op := by
  cases op <;> rfl

theorem row_opcode {r : Row} (h : r ∈ table) : r.opcode.row = r := by
  have hall : ∀ r ∈ table, r.opcode.row = r := by decide
  exact hall r h

/-- Whether an opcode is `0nnn` and the other one takes words away from it. -/
def shadows (op other : Opcode) : Bool :=
  other = sys && (op = clear || op = ret)

/-- Two rows are the same, or they clash, or one of them shadows the other. -/
theorem clashes_or_shadows {r s : Row} (hr : r ∈ table) (hs : s ∈ table) :
    r = s ∨ r.pattern.clashes s.pattern = true ∨ r.opcode.shadows s.opcode = true ∨
      s.opcode.shadows r.opcode = true := by
  have hall : ∀ r ∈ table, ∀ s ∈ table, r = s ∨ r.pattern.clashes s.pattern = true ∨
      r.opcode.shadows s.opcode = true ∨ s.opcode.shadows r.opcode = true := by
    decide +kernel
  exact hall r hr s hs

/-- Whether a word has the form of an opcode. A word of the form `0nnn` must not
have that of `00E0` or `00EE`. -/
def Admits (op : Opcode) (word : Int) : Prop :=
  op.row.pattern.admits word = true ∧
    ∀ other : Opcode, other.shadows op = true → other.row.pattern.admits word = false

/-- A word has the form of at most one opcode. -/
theorem Admits.unique {op op' : Opcode} {word : Int} (h : op.Admits word)
    (h' : op'.Admits word) : op = op' := by
  rcases clashes_or_shadows op.row_mem op'.row_mem with hsame | hclash | hshadow | hshadow
  · rw [← op.opcode_row, hsame, opcode_row]
  · rw [Pattern.not_clashes h.1 h'.1] at hclash
    cases hclash
  · rw [opcode_row, opcode_row] at hshadow
    have hnot := h'.2 op hshadow
    rw [h.1] at hnot
    cases hnot
  · rw [opcode_row, opcode_row] at hshadow
    have hnot := h.2 op' hshadow
    rw [h'.1] at hnot
    cases hnot

end Opcode

/-! ## Decoding by a list of the rows -/

/-- Whether a list has exactly the rows of the table, with every row ahead of those
that it shadows. -/
structure Arranged (rows : List Row) : Prop where
  mem_iff : ∀ r : Row, r ∈ rows ↔ r ∈ Opcode.table
  ahead : ∀ {before after : List Row} {r : Row}, rows = before ++ r :: after →
    ∀ op : Opcode, op.shadows r.opcode = true → op.row ∈ before

theorem arranged_table : Arranged Opcode.table := by
  refine ⟨fun r => Iff.rfl, fun {before after r} hsplit op hshadow => ?_⟩
  simp only [Opcode.shadows, Bool.and_eq_true, Bool.or_eq_true, decide_eq_true_eq] at hshadow
  obtain ⟨hsys, hop⟩ := hshadow
  -- `0nnn` is neither the first row nor the second
  rcases before with _ | ⟨first, _ | ⟨second, before⟩⟩
  · obtain ⟨rfl, -⟩ := List.cons.inj hsplit
    cases hsys
  · obtain ⟨-, hrest⟩ := List.cons.inj hsplit
    obtain ⟨rfl, -⟩ := List.cons.inj hrest
    cases hsys
  · obtain ⟨rfl, hrest⟩ := List.cons.inj hsplit
    obtain ⟨rfl, -⟩ := List.cons.inj hrest
    rcases hop with rfl | rfl
    · exact List.mem_cons_self
    · exact List.mem_cons_of_mem _ List.mem_cons_self

namespace Instruction

variable {rows : List Row} {word : Int}

/-- The first row that admits a word is the row of the opcode whose form it has. -/
theorem admits_of_find? (hrows : Arranged rows) {r : Row}
    (h : rows.find? (·.pattern.admits word) = some r) :
    r ∈ Opcode.table ∧ r.opcode.Admits word := by
  obtain ⟨hadmits, before, after, hsplit, hbefore⟩ := List.find?_eq_some_iff_append.mp h
  have hmem : r ∈ Opcode.table := by
    rw [← hrows.mem_iff, hsplit]
    exact List.mem_append_right _ List.mem_cons_self
  refine ⟨hmem, ?_, fun other hshadow => ?_⟩
  · rw [Opcode.row_opcode hmem]
    exact hadmits
  · have hnot := hbefore other.row (hrows.ahead hsplit other hshadow)
    exact (Bool.not_eq_true' _).mp hnot

/-- Decoding finds the opcode whose form the word has. -/
theorem decodeWith_eq_ok_iff (hrows : Arranged rows) {ins : Instruction} :
    decodeWith rows word = .ok ins ↔ ins.word = word ∧ ins.opcode.Admits word := by
  rw [decodeWith]
  constructor
  · intro h
    rcases hfind : rows.find? (·.pattern.admits word) with _ | r
    · rw [hfind] at h
      cases h
    · rw [hfind] at h
      obtain rfl := Except.ok.inj h
      exact ⟨rfl, (admits_of_find? hrows hfind).2⟩
  · rintro ⟨rfl, hadmits⟩
    obtain ⟨r, hfind⟩ : ∃ r, rows.find? (·.pattern.admits ins.word) = some r := by
      rw [← Option.isSome_iff_exists, List.find?_isSome]
      exact ⟨_, (hrows.mem_iff _).mpr ins.opcode.row_mem, hadmits.1⟩
    have hsame := (admits_of_find? hrows hfind).2.unique hadmits
    simp only [hfind, hsame]

/-- Decoding is refused when no row admits the word. -/
theorem decodeWith_eq_error_iff (hrows : Arranged rows) {fault : Fault} :
    decodeWith rows word = .error fault ↔
      fault = .unknownOpcode word none ∧ ∀ r ∈ Opcode.table, r.pattern.admits word = false := by
  rw [decodeWith]
  rcases hfind : rows.find? (·.pattern.admits word) with _ | r
  · have hnone : ∀ r ∈ Opcode.table, r.pattern.admits word = false := fun r hr =>
      Bool.eq_false_iff.mpr (List.find?_eq_none.mp hfind r ((hrows.mem_iff r).mpr hr))
    rw [hfind]
    constructor
    · intro h
      exact ⟨(Except.error.inj h).symm, hnone⟩
    · rintro ⟨rfl, -⟩
      rfl
  · obtain ⟨hmem, hadmits⟩ := admits_of_find? hrows hfind
    rw [hfind]
    constructor
    · intro h
      cases h
    · rintro ⟨-, hnone⟩
      have hnot := hnone r hmem
      rw [List.find?_some hfind] at hnot
      cases hnot

end Instruction

/-! ## The forms of fetched words -/

theorem admitsDigit_none {digit : Fin 16} : Pattern.admitsDigit none digit = true := rfl

theorem admitsDigit_some {d digit : Fin 16} :
    Pattern.admitsDigit (some d) digit = true ↔ digit = d := by
  rw [Pattern.admitsDigit, decide_eq_true_eq]
  exact eq_comm

/-- A digit of a number. -/
theorem val_wordDigit (w place : Nat) : (wordDigit w place).val = w >>> (4 * place) % 16 := by
  rw [wordDigit]
  norm_cast

theorem Instruction.val_n (w : Nat) (op : Opcode) :
    (Instruction.n ⟨w, op⟩).val = w % 0x10 := by
  rw [n, val_wordDigit, Nat.mul_zero, Nat.shiftRight_zero]

theorem Instruction.val_x (w : Nat) (op : Opcode) :
    (Instruction.x ⟨w, op⟩).val = w / 0x100 % 0x10 := by
  rw [x, val_wordDigit, Nat.shiftRight_eq_div_pow]

namespace Opcode

variable {op : Opcode} {w : Nat} {a b c d : Fin 16}

theorem admits_iff_of_ne_sys {word : Int} (h : op ≠ sys) :
    op.Admits word ↔ op.row.pattern.admits word = true := by
  refine ⟨And.left, fun hadmits => ⟨hadmits, fun other hshadow => ?_⟩⟩
  rw [shadows, decide_eq_false h, Bool.false_and] at hshadow
  cases hshadow

theorem admits_row1 (hw : w < 0x10000) :
    (row1 a op).pattern.admits w = true ↔ w / 0x1000 = a.val := by
  simp only [row1, Pattern.admits, Bool.and_eq_true, admitsDigit_some, admitsDigit_none, Fin.ext_iff,
    val_wordDigit, and_true]
  omega

theorem admits_row2 (hw : w < 0x10000) :
    (row2 a d op).pattern.admits w = true ↔ w / 0x1000 = a.val ∧ w % 0x10 = d.val := by
  simp only [row2, Pattern.admits, Bool.and_eq_true, admitsDigit_some, admitsDigit_none, Fin.ext_iff,
    val_wordDigit, and_true]
  omega

theorem admits_row3 (hw : w < 0x10000) :
    (row3 a c d op).pattern.admits w = true ↔
      w / 0x1000 = a.val ∧ w % 0x100 = c.val * 16 + d.val := by
  simp only [row3, Pattern.admits, Bool.and_eq_true, admitsDigit_some, admitsDigit_none, Fin.ext_iff,
    val_wordDigit, and_true]
  omega

theorem admits_row4 (hw : w < 0x10000) :
    (row4 a b c d op).pattern.admits w = true ↔
      w = ((a.val * 16 + b.val) * 16 + c.val) * 16 + d.val := by
  simp only [row4, Pattern.admits, Bool.and_eq_true, admitsDigit_some, Fin.ext_iff, val_wordDigit]
  omega

end Opcode

end ChipEight
