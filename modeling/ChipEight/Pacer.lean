import ChipEight.Clock
import ChipEight.Event
import ChipEight.Processor.Step

/-!
# Pacing

A pacer lets a machine run in time. It keeps two deadlines, one for the next
instruction and one for the next step of the timers, and a queue of events. One
`tick` first applies the queued events, then executes at most one instruction
and lets the timers take at most one step.

A deadline that has passed moves on by exactly one period per tick. A host that
is too slow therefore makes the machine run late, and never in bursts.

The type of time is a parameter, as is the clock: the program runs on
floating-point seconds, while the laws about deadlines are about exact ones.
-/

namespace ChipEight

/-- A processor with its deadlines, its clock and its pending events. -/
structure Pacer (κ τ : Type) where
  processor : Processor
  clock : κ
  /-- the time between instructions -/
  clockPeriod : τ
  /-- the time between steps of the timers -/
  timerPeriod : τ
  /-- whether the machine is paused; events are applied all the same -/
  paused : Bool
  /-- the pending events, the oldest first -/
  queue : List Event
  /-- when the next instruction is due -/
  nextClock : τ
  /-- when the timers take their next step -/
  nextTimer : τ

/-- A computation on a pacer that may be refused. -/
abbrev Pacing (κ τ : Type) := EStateM Error (Pacer κ τ)

namespace Pacer

variable {κ τ : Type} [Clock κ τ]

/-- A pacer for a processor. Both deadlines are due at the time that the clock
shows, which is read once. -/
def new (processor : Processor) (clock : κ) (clockPeriod timerPeriod : τ) : Pacer κ τ :=
  let (now, clock) := Clock.read clock
  { processor, clock, clockPeriod, timerPeriod, paused := false, queue := [],
    nextClock := now, nextTimer := now }

/-- The emulated machine. -/
def machine (p : Pacer κ τ) : Machine := p.processor.machine

/-- Whether the machine has halted. -/
def halted (p : Pacer κ τ) : Bool := p.machine.halted

/-- Change the machine. -/
def mapMachine (p : Pacer κ τ) (f : Machine → Machine) : Pacer κ τ :=
  { p with processor := { p.processor with machine := f p.processor.machine } }

/-- Change the log. -/
def mapLog (p : Pacer κ τ) (f : Log → Log) : Pacer κ τ :=
  { p with processor := { p.processor with log := f p.processor.log } }

/-- Put an event at the end of the queue. -/
def post (p : Pacer κ τ) (event : Event) : Pacer κ τ :=
  { p with queue := p.queue ++ [event] }

/-- Post that a key went down. -/
def press (p : Pacer κ τ) (number : Int) : Pacer κ τ := p.post (.key number true)

/-- Post that a key went up. -/
def release (p : Pacer κ τ) (number : Int) : Pacer κ τ := p.post (.key number false)

/-- Pause the machine. -/
def pause (p : Pacer κ τ) : Pacer κ τ := { p with paused := true }

/-- Let the machine go on. Both deadlines are set to the time of the clock, so
that nothing of the pause is made up for. -/
def resume (p : Pacer κ τ) : Pacer κ τ :=
  let (now, clock) := Clock.read p.clock
  { p with paused := false, clock, nextClock := now, nextTimer := now }

/-- Pause, or resume when paused, and say so. -/
def togglePause (p : Pacer κ τ) : Pacer κ τ :=
  if p.paused then p.resume.mapLog (·.info "Resumed") else p.pause.mapLog (·.info "Paused")

/-- Let the next instruction be due at the time that the clock shows. -/
def hurry (p : Pacer κ τ) : Pacer κ τ :=
  let (now, clock) := Clock.read p.clock
  { p with clock, nextClock := now }

end Pacer

namespace Pacing

variable {κ τ : Type}

/-- Do something on the processor. -/
def onProcessor {α : Type} (act : Execution α) : Pacing κ τ α := fun p =>
  match act p.processor with
  | .ok a processor => .ok a { p with processor }
  | .error fault processor => .error (.fault fault) { p with processor }

/-- Do something on the machine. -/
def onMachine {α : Type} (act : EStateM Error Machine α) : Pacing κ τ α := fun p =>
  match act p.processor.machine with
  | .ok a machine => .ok a { p with processor := { p.processor with machine } }
  | .error error machine => .error error { p with processor := { p.processor with machine } }

/-- Execute one instruction. -/
def step : Pacing κ τ Unit := do
  let _ ← onProcessor Processor.step

/-- Whether the machine has halted. -/
def halted : Pacing κ τ Bool :=
  return (← get).processor.machine.halted

/-- Whether the machine waits for a key. -/
def waiting : Pacing κ τ Bool :=
  return (← get).processor.machine.waiting

variable [Clock κ τ]

/-- Read the clock. -/
def readClock : Pacing κ τ τ := do
  let (now, clock) := Clock.read (← get).clock
  modify fun p => { p with clock }
  return now

/-- Let an event have its effect. A press that ends a wait makes the next
instruction due at once; a single step does nothing while a key is awaited. -/
def apply : Event → Pacing κ τ Unit
  | .key number isDown => do
    if ← onMachine (Machine.keyEvent number isDown) then
      modify Pacer.hurry
  | .control .pause => modify Pacer.togglePause
  | .control .step => do
    if !(← waiting) then
      step
  | .control .quit =>
    modify fun p => (p.mapLog (·.info "Exit requested")).mapMachine Machine.halt
  | .foreign value => throw (.misuse (.foreignEvent value.shown))

/-- Apply the given events in order until the machine halts. Each one is taken
off the queue before it is applied, so one that is refused is gone and those
behind it stay. -/
def applyAll : List Event → Pacing κ τ Unit
  | [] => pure ()
  | event :: rest => do
    if !(← halted) then
      modify fun p => { p with queue := rest }
      apply event
      applyAll rest

/-- Apply the queued events. -/
def drain : Pacing κ τ Unit := do
  applyAll (← get).queue

variable [Add τ] [LE τ] [DecidableLE τ]

/-- Execute an instruction if one is due and no key is awaited, then let the
timers take a step if that is due. -/
def meetDeadlines (now : τ) : Pacing κ τ Unit := do
  if !(← waiting) && (← get).nextClock ≤ now then
    modify fun p => { p with nextClock := p.nextClock + p.clockPeriod }
    step
  if (← get).nextTimer ≤ now then
    modify fun p =>
      { p with nextTimer := p.nextTimer + p.timerPeriod }.mapMachine fun m =>
        { m with registers := m.registers.decrementTimers }

/-- One turn of the loop. The result says whether the machine is still running. -/
def tick : Pacing κ τ Bool := do
  if ← halted then
    return false
  drain
  if ← halted then
    return false
  if (← get).paused then
    return true
  let now ← readClock
  meetDeadlines now
  return !(← halted)

/-- Tick until the machine halts, but at most the given number of times; `done`
ticks that left it running were made before. -/
def runFrom (done : Nat) : Nat → Pacing κ τ Nat
  | 0 => return done
  | more + 1 => do
    if ← tick then
      runFrom (done + 1) more
    else
      return done

/-- Tick until the machine halts or `cap` ticks have left it running. The cap is
looked at after a tick, so there is always one. The result is the number of
ticks that left the machine running. -/
def run (cap : Int) : Pacing κ τ Nat :=
  runFrom 0 (max cap 1).toNat

/-- What ticking without a cap comes to, where `done` ticks were made before. It need not come
to an end, so it is a relation: there is a result only if a tick leaves the machine halted or
is refused. -/
inductive RunsOut : Nat → Pacer κ τ → EStateM.Result Error (Pacer κ τ) Nat → Prop
  /-- the machine has halted -/
  | halted {done : Nat} {p q : Pacer κ τ} (htick : (tick : Pacing κ τ Bool) p = .ok false q) :
    RunsOut done p (.ok done q)
  /-- the tick is refused -/
  | refused {done : Nat} {p q : Pacer κ τ} {error : Error}
    (htick : (tick : Pacing κ τ Bool) p = .error error q) : RunsOut done p (.error error q)
  /-- the machine is still running, and there is another tick -/
  | ticks {done : Nat} {p q : Pacer κ τ} {result : EStateM.Result Error (Pacer κ τ) Nat}
    (htick : (tick : Pacing κ τ Bool) p = .ok true q) (hrest : RunsOut (done + 1) q result) :
    RunsOut done p result

end Pacing

end ChipEight
