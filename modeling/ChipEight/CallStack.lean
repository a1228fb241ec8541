/-!
# The call stack

Sixteen slots for addresses, of which the first `depth` are in use. Taking an
address off the stack leaves it in its slot; it is only written over by a later
push.
-/

namespace ChipEight

/-- The slots of the call stack and how many of them are in use. -/
structure CallStack where
  /-- the slots, the outermost call first -/
  slots : Vector UInt16 16
  /-- how many slots are in use -/
  depth : Nat
  /-- there are no more slots to use -/
  depth_le : depth ≤ 16
  deriving DecidableEq

namespace CallStack

/-- The number of slots. -/
def capacity : Nat := 16

/-- A stack with no slot in use. -/
def empty : CallStack := ⟨Vector.replicate 16 0, 0, by decide⟩

/-- Put an address on the stack, unless every slot is in use. -/
def push? (s : CallStack) (address : UInt16) : Option CallStack :=
  if h : s.depth < 16 then
    some ⟨s.slots.set s.depth address, s.depth + 1, h⟩
  else
    none

/-- Take the last address off the stack, unless there is none. -/
def pop? (s : CallStack) : Option (UInt16 × CallStack) :=
  if h : 0 < s.depth then
    have := s.depth_le
    some (s.slots[s.depth - 1], ⟨s.slots, s.depth - 1, by omega⟩)
  else
    none

/-- What was pushed last is taken off first; its slot keeps it. -/
theorem pop?_of_push? {s t : CallStack} {address : UInt16} (h : s.push? address = some t) :
    t.pop? = some (address, ⟨t.slots, s.depth, s.depth_le⟩) := by
  unfold push? at h
  split at h
  · obtain rfl := Option.some.inj h
    simp [pop?]
  · cases h

end CallStack

end ChipEight
