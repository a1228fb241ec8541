import ChipEight.Text.Quoted

/-!
# Events

What reaches a running machine from outside: keys that go down or up, and the
controls of the run. A caller may also queue something that is no event at all;
it is kept in order with the others and refused when its turn comes.
-/

namespace ChipEight

/-- The controls of a run. -/
inductive Control where
  /-- pause, or resume when paused -/
  | pause
  /-- execute one instruction now -/
  | step
  /-- halt the machine -/
  | quit
  deriving DecidableEq, Repr

/-- A value that is no event. -/
inductive Foreign where
  | text (text : String)
  | number (number : Int)
  deriving DecidableEq, Repr

/-- A foreign value as reports show it: texts are quoted. -/
def Foreign.shown : Foreign → String
  | .text t => Text.quoted t
  | .number n => toString n

/-- An element of the event queue. -/
inductive Event where
  /-- a key went down or up -/
  | key (number : Int) (isDown : Bool)
  | control (control : Control)
  | foreign (value : Foreign)
  deriving DecidableEq, Repr

end ChipEight
