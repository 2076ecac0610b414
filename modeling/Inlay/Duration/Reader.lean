import Inlay.Binary64
import Inlay.Duration
import Inlay.Text.Blank

namespace Inlay.Duration

def unitNanos? (unit : Text) : Option Nat :=
  if unit = "ns" then some 1
  else if unit = "us" ∨ unit = "µs" ∨ unit = "μs" then some 1_000
  else if unit = "ms" then some nanosPerMillisecond
  else if unit = "s" then some nanosPerSecond
  else if unit = "m" then some (60 * nanosPerSecond)
  else if unit = "h" then some (3600 * nanosPerSecond)
  else none

def isNumeric (c : Char) : Bool := c.isDigit || c == '.'

/-- Pairs each number with the unit after it. -/
def segments? : List Text → Option (List (Text × Text))
  | [] => some []
  | [_] => none
  | number :: unit :: rest =>
      if number.all isNumeric then (segments? rest).map ((number, unit) :: ·) else none

def segmentNanos? (segment : Text × Text) : Option Binary64 := do
  let number ← Binary64.parse? segment.1
  let unit ← unitNanos? segment.2
  return number.scale unit

def addSegment? (total : Binary64) (segment : Text × Text) : Option Binary64 :=
  (segmentNanos? segment).map total.add

def parse? (text : Text) : Option Duration :=
  match Text.word? text with
  | some n => some (ofSeconds n)
  | none => do
      let segments ← segments? (text.splitBy fun a b => isNumeric a == isNumeric b)
      let total ← segments.foldlM addSegment? (.finite 0)
      let nanos ← total.roundBelow? UInt64.size
      return ⟨nanos⟩

/-- The time to wait for an answer. Nothing, a negative or zero duration and what is no duration
set no limit. -/
def parseLimit? (text : Text) : Option Duration :=
  let value := Text.Blank.trim text
  if value.head? = some '-' then none
  else (parse? value).filter fun d => !d.isZero

end Inlay.Duration
