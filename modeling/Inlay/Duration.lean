import Inlay.Text

namespace Inlay

structure Duration where
  nanos : Nat
deriving DecidableEq, Repr

namespace Duration

def nanosPerSecond : Nat := 1_000_000_000

def nanosPerMillisecond : Nat := 1_000_000

def ofSeconds (n : Nat) : Duration := ⟨n * nanosPerSecond⟩

def ofMilliseconds (n : Nat) : Duration := ⟨n * nanosPerMillisecond⟩

def isZero (d : Duration) : Bool := d.nanos == 0

def seconds (d : Duration) : Nat := d.nanos / nanosPerSecond

def milliseconds (d : Duration) : Nat := d.nanos / nanosPerMillisecond

def subsecond (d : Duration) : Nat := d.nanos % nanosPerSecond

/-- A count of a unit, with an s unless it is one. -/
def counted (n : Nat) (unit : Text) : Text :=
  Text.decimal n ++ " " ++ unit ++ (if n = 1 then "" else "s")

/-- Hours, minutes and seconds in words, without those that are zero and without the fraction of a
second. -/
def spelled (d : Duration) : Text :=
  if d.seconds = 0 then "less than a second"
  else
    let parts : List (Nat × Text) :=
      [(d.seconds / 3600, "hour"), (d.seconds % 3600 / 60, "minute"), (d.seconds % 60, "second")]
    Text.join " " ((parts.filter fun part => part.1 ≠ 0).map fun part => counted part.1 part.2)

/-- Seconds if nothing is left of them down to the millisecond, and milliseconds otherwise. -/
def short (d : Duration) : Text :=
  if d.subsecond / nanosPerMillisecond = 0 then Text.decimal d.seconds ++ "s"
  else Text.decimal d.milliseconds ++ "ms"

end Duration

end Inlay
