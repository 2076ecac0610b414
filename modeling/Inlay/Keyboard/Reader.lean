import Inlay.Key.Decoder
import Inlay.Keyboard.Source

namespace Inlay.Keyboard

/-- What the loop over keys may meet: keys and news of their source, the passing of time, and the
cancellation of its token by another. -/
inductive Occurrence where
  | key (key : Key)
  /-- The process was asked to stop. -/
  | interrupt
  | failed (fault : Fault)
  | closed
  | elapsed (nanos : Nat)
  | cancelled
deriving DecidableEq, Repr

namespace Reader

def bufferSize : Nat := 1024

/-- The last news of a source that is exhausted. -/
def farewell (decoder : Key.Decoder) : Ending → List Occurrence
  | .closed => decoder.flush.1.map .key ++ [.closed]
  | .idle => decoder.flush.1.map .key
  | .failed fault => [.failed fault]
  | .died => []

/-- Reads a source to its end. A pause settles what the bytes before it were. -/
def readLoop (source : Source) (decoder : Key.Decoder) : List Occurrence × Source :=
  if _exhausted : source.isExhausted then (farewell decoder source.script.ending, source)
  else
    let next := source.read bufferSize
    let (keys, decoder) := match next.1 with
      | .data bytes => decoder.process bytes
      | _ => decoder.flush
    let (later, source) := readLoop next.2 decoder
    (keys.map .key ++ later, source)
termination_by source.remaining
decreasing_by
  exact Source.remaining_read_lt source bufferSize (by decide) (by simpa using _exhausted)

/-- Reads a source in raw mode, and leaves that mode however the reading ends. -/
def run (source : Source) : List Occurrence × Source :=
  match source.enterRawMode with
  | (.error fault, source) => ([.failed fault], source)
  | (.ok (), source) =>
      let (occurrences, source) := readLoop source {}
      (occurrences, source.leaveRawMode.2)

/-- Whether a source goes missing: no thread can be made for its reader, or the reader dies. -/
def losesSource (script : Script) : Bool :=
  script.threadFault.isSome || script.enterFault.isNone && script.ending = .died

end Reader

end Inlay.Keyboard
