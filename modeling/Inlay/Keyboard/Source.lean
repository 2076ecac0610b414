import Inlay.Failure
import Inlay.Key
/-!
A source of keyboard bytes that follows a script. Each chunk of the script is followed by a pause,
as between two strokes, in which a read finds nothing.
-/

namespace Inlay.Keyboard

/-- What a source does once its chunks are read. -/
inductive Ending where
  | closed
  | idle
  | failed (fault : Fault)
  /-- The reader of the source dies without a word. -/
  | died
deriving DecidableEq, Repr

structure Script where
  chunks : List (List UInt8) := []
  ending : Ending := .closed
  /-- The fault of entering raw mode, if that fails. -/
  enterFault : Option Fault := none
  leaveFault : Option Fault := none
  /-- The fault of making a thread for the reader, if that fails. -/
  threadFault : Option Fault := none
deriving DecidableEq, Repr

def Script.ofKeys (keys : List Key) : Script := { chunks := keys.map Key.encode }

/-- A source with the rest of its script, the rest of the chunk being read, whether a pause is
due, and how often raw mode was entered and left. -/
structure Source where
  script : Script := {}
  rest : List UInt8 := []
  pause : Bool := false
  rawMode : Bool := false
  entered : Nat := 0
  left : Nat := 0
deriving DecidableEq, Repr

inductive Status where
  | data (bytes : List UInt8)
  | idle
  | closed
  | failed (fault : Fault)
  | died
deriving DecidableEq, Repr

def Ending.status : Ending → Status
  | closed => .closed
  | idle => .idle
  | failed fault => .failed fault
  | died => .died

namespace Source

/-- The source at the start of a script. What is left of the one before is dropped. -/
def load (s : Source) (script : Script) : Source :=
  { s with script := script, rest := [], pause := false }

def enterRawMode (s : Source) : Except Fault Unit × Source :=
  match s.script.enterFault with
  | some fault => (.error fault, s)
  | none => (.ok (), { s with rawMode := true, entered := s.entered + 1 })

def leaveRawMode (s : Source) : Except Fault Unit × Source :=
  let s := { s with rawMode := false, left := s.left + 1 }
  match s.script.leaveFault with
  | some fault => (.error fault, s)
  | none => (.ok (), s)

/-- Hands over at most `size` bytes of the chunk being read. A pause is due after its last. -/
def deliver (s : Source) (size : Nat) : Status × Source :=
  let rest := s.rest.drop size
  (.data (s.rest.take size), { s with rest := rest, pause := rest.isEmpty })

def read (s : Source) (size : Nat) : Status × Source :=
  if s.pause then (.idle, { s with pause := false })
  else if s.rest.isEmpty then
    match s.script.chunks with
    | [] => (s.script.ending.status, s)
    | chunk :: more =>
        { s with script := { s.script with chunks := more }, rest := chunk }.deliver size
  else s.deliver size

def isExhausted (s : Source) : Bool := !s.pause && s.rest.isEmpty && s.script.chunks.isEmpty

/-- An upper bound of the reads until the source is exhausted. -/
def remaining (s : Source) : Nat :=
  s.script.chunks.foldr (fun chunk reads => 2 * chunk.length + 2 + reads) 0 +
    2 * s.rest.length + s.pause.toNat

theorem remaining_deliver_le (s : Source) (size : Nat) :
    (s.deliver size).2.remaining ≤ s.remaining + 1 := by
  have := Bool.toNat_le (s.rest.drop size).isEmpty
  simp only [deliver, remaining, List.length_drop]
  omega

theorem remaining_deliver_lt (s : Source) (size : Nat) (positive : 0 < size)
    (more : s.rest.isEmpty = false) : (s.deliver size).2.remaining < s.remaining := by
  have : 0 < s.rest.length := by
    cases hrest : s.rest with
    | nil => simp [hrest] at more
    | cons b rest => simp
  have := Bool.toNat_le (s.rest.drop size).isEmpty
  simp only [deliver, remaining, List.length_drop]
  omega

theorem remaining_read_lt (s : Source) (size : Nat) (positive : 0 < size)
    (h : s.isExhausted = false) : (s.read size).2.remaining < s.remaining := by
  unfold read
  split
  · rename_i pause
    simp [remaining, pause]
  · rename_i pause
    have pause : s.pause = false := by simpa using pause
    split
    · rename_i rest
      cases hchunks : s.script.chunks with
      | nil => simp [isExhausted, pause, rest, hchunks] at h
      | cons chunk more =>
          have hrest : s.rest = [] := by simpa using rest
          refine Nat.lt_of_le_of_lt (remaining_deliver_le _ size) ?_
          simp [remaining, pause, hchunks, hrest]
          omega
    · rename_i rest
      exact remaining_deliver_lt s size positive (by simpa using rest)

end Source

end Inlay.Keyboard
