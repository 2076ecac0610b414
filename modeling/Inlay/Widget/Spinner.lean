import Inlay.Ticker
import Inlay.Widget.Slot

namespace Inlay

structure Spinner where
  text : Text
  frames : List Text
  frame : Nat := 0
  /-- Erase the line when stopped instead of leaving it. -/
  clearOnStop : Bool := true
  slot : Slot
  /-- The canvas in use since the first start, and whether it is the spinner's own. -/
  canvas : Option (CanvasRef × Bool) := none
  ticker : Ticker := .absent

namespace Spinner

def defaultFrames : List Text := ["⠋", "⠙", "⠹", "⠸", "⠼", "⠴", "⠦", "⠧", "⠇", "⠏"]

def advance (s : Spinner) : Spinner :=
  if s.frames.isEmpty then s else { s with frame := (s.frame + 1) % s.frames.length }

def isRunning (s : Spinner) : Bool := s.ticker.isRunning

def painting (s : Spinner) (style : Style) : Painting :=
  [.print (style.highlight (s.frames[s.frame]?.getD []) ++ " " ++ s.text)]

end Spinner

end Inlay
