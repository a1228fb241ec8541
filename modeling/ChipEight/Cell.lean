/-!
# Numbered cells

Registers, keys and the slots of the call stack are cells that are numbered from
zero on. A caller may name a cell by any integer; a cell that exists is named by
a `Fin`.
-/

namespace ChipEight

/-- The cell with a number, of sixteen. -/
def cell? (number : Int) : Option (Fin 16) :=
  if h : 0 ≤ number ∧ number < 16 then some ⟨number.toNat, by omega⟩ else none

/-- The cells with a new content for one of them. -/
def fill {α : Type} {n : Nat} (cells : Vector α n) (k : Fin n) (content : α) : Vector α n :=
  cells.set k content

/-- A number from zero to fifteen is the number of its cell. -/
theorem cell?_eq_some_iff {number : Int} {k : Fin 16} :
    cell? number = some k ↔ number = k.val := by
  rw [cell?]
  by_cases h : 0 ≤ number ∧ number < 16
  · rw [dif_pos h, Option.some.injEq, Fin.ext_iff]
    simp only
    omega
  · rw [dif_neg h]
    have := k.isLt
    exact ⟨fun hk => (nomatch hk), fun hk => by omega⟩

/-- There are no other cells. -/
theorem cell?_eq_none_iff {number : Int} :
    cell? number = none ↔ ¬ (0 ≤ number ∧ number < 16) := by
  rw [cell?]
  by_cases h : 0 ≤ number ∧ number < 16
  · rw [dif_pos h]
    exact ⟨fun hnone => (nomatch hnone), fun hnot => absurd h hnot⟩
  · rw [dif_neg h]
    exact ⟨fun _ => h, fun _ => rfl⟩

theorem get_eq_getElem {α : Type} {n : Nat} (cells : Vector α n) (k : Fin n) :
    cells.get k = cells[k] := rfl

/-- The content of a cell after one of them got a new one. -/
theorem get_fill {α : Type} {n : Nat} (cells : Vector α n) (j k : Fin n) (content : α) :
    (fill cells k content).get j = if k = j then content else cells.get j := by
  simp only [fill, get_eq_getElem, Fin.getElem_fin, Vector.getElem_set, Fin.ext_iff]

end ChipEight
