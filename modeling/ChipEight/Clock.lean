/-!
# Clocks

Time comes from a clock that is handed in. Reading it shows the time and leaves
the clock as it is afterwards, so that two readings in a row may differ and the
number of readings is part of the behaviour.
-/

namespace ChipEight

/-- A clock of type `κ` that shows times of type `τ`. -/
class Clock (κ : Type) (τ : outParam Type) where
  /-- the time that is shown, and the clock after the reading -/
  read : κ → τ × κ

/-- A clock that is moved by hand. Every reading moves it on by a fixed amount. -/
structure HandClock (τ : Type) where
  /-- the time that the next reading shows -/
  now : τ
  /-- by how much a reading moves the clock on -/
  drift : τ

namespace HandClock

variable {τ : Type} [Add τ]

instance : Clock (HandClock τ) τ where
  read c := (c.now, { c with now := c.now + c.drift })

/-- Move the clock on. -/
def advance (c : HandClock τ) (time : τ) : HandClock τ :=
  { c with now := c.now + time }

end HandClock

/-- A clock whose readings are given beforehand. -/
structure Timetable (τ : Type) where
  /-- the readings, in order -/
  reading : Nat → τ
  /-- how many readings were made -/
  made : Nat

instance {τ : Type} : Clock (Timetable τ) τ where
  read c := (c.reading c.made, { c with made := c.made + 1 })

end ChipEight
