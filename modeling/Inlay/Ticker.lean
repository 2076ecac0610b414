namespace Inlay

/-- One that ended by itself is still to be stopped. -/
inductive Ticker where
  | absent
  | running
  | ended
deriving DecidableEq, Repr

namespace Ticker

/-- A clockwork whose owner ends it at a tick of some number, if at any. -/
def start (lastTick : Option Nat) : Ticker := if lastTick.isSome then .ended else .running

/-- The ticks made before the clockwork ended by itself. -/
def ticks (lastTick : Option Nat) : Nat := lastTick.getD 0

def stop (_ : Ticker) : Ticker := .absent

/-- Stops a clockwork some number of times; the first does it. -/
def stopTimes (t : Ticker) : Nat → Ticker
  | 0 => t
  | n + 1 => t.stop.stopTimes n

def isRunning (t : Ticker) : Bool := t = .running

end Ticker

end Inlay
