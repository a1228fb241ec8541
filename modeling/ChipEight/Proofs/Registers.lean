import ChipEight.Processor.Execute

/-!
# Changes of the registers

The few ways in which instructions change the registers, with a name for each,
and what loading a block, pushing and popping do. A push or a pop that succeeds
concerns one slot `k` of the call stack: a push fills it and a pop reads it, and
no other slot is touched.
-/

namespace ChipEight

namespace Registers

/-- Go on with the next instruction. -/
def next (r : Registers) : Registers := { r with pc := r.pc + 2 }

/-- Go on with the next instruction, or with the one after it. -/
def skip (r : Registers) (skipped : Bool) : Registers :=
  { r with pc := r.pc + if skipped then 4 else 2 }

/-- Go on at an address. -/
def goto (r : Registers) (address : Int) : Registers := { r with pc := address }

/-- Give a byte register a value. -/
def setV (r : Registers) (k : Fin 16) (value : UInt8) : Registers :=
  { r with v := fill r.v k value }

/-- Loading a block replaces the first byte registers by it. -/
theorem toList_loadV (r : Registers) {bytes : List UInt8} (h : bytes.length ≤ 16) :
    (r.loadV bytes).v.toList = bytes ++ r.v.toList.drop bytes.length := by
  rw [loadV, Vector.toList_ofFn]
  apply List.ext_getElem
  · simp
    omega
  · intro k hk₁ hk₂
    rw [List.length_ofFn] at hk₁
    rw [List.getElem_ofFn]
    rcases Nat.lt_or_ge k bytes.length with hlt | hge
    · rw [List.getElem_append_left hlt, List.getElem?_eq_getElem hlt, Option.getD_some]
    · rw [List.getElem_append_right hge, List.getElem?_eq_none hge, Option.getD_none,
        List.getElem_drop, Vector.getElem_toList]
      simp only [Nat.add_sub_cancel' hge]
      rfl

/-! ## The call stack -/

/-- A slot holds the whole of an address of sixteen bits. -/
theorem toNat_slot {address : Int} (hnonneg : 0 ≤ address) (hlt : address < 0x10000) :
    ((UInt16.ofNat address.toNat).toNat : Int) = address := by
  rw [UInt16.toNat_ofNat']
  omega

variable {r r' : Registers} {address : UInt16}

/-- A push that succeeds fills the first free slot. -/
theorem of_push_eq_ok (h : r.push address = .ok r') :
    ∃ k : Fin 16, r.stack.depth = k ∧ r'.stack.slots = fill r.stack.slots k address ∧
      r'.stack.depth = k + 1 ∧ r' = { r with stack := r'.stack } := by
  rw [push, CallStack.push?] at h
  by_cases hfree : r.stack.depth < 16
  · rw [dif_pos hfree] at h
    obtain rfl := Except.ok.inj h
    exact ⟨⟨r.stack.depth, hfree⟩, rfl, rfl, rfl, rfl⟩
  · rw [dif_neg hfree] at h
    cases h

/-- A pop that succeeds reads the last slot in use and leaves it as it is. -/
theorem of_pop_eq_ok (h : r.pop = .ok (address, r')) :
    ∃ k : Fin 16, r.stack.depth = k + 1 ∧ address = r.stack.slots.get k ∧
      r'.stack.slots = r.stack.slots ∧ r'.stack.depth = k ∧
      r' = { r with stack := r'.stack } := by
  rw [pop, CallStack.pop?] at h
  by_cases hused : 0 < r.stack.depth
  · rw [dif_pos hused] at h
    have hle := r.stack.depth_le
    obtain ⟨rfl, rfl⟩ := Prod.mk.inj (Except.ok.inj h)
    exact ⟨⟨r.stack.depth - 1, by omega⟩, by simp only; omega, rfl, rfl, rfl, rfl⟩
  · rw [dif_neg hused] at h
    cases h

end Registers

end ChipEight
