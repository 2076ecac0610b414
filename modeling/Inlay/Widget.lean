import Inlay.Keyboard
import Inlay.Prompt
import Inlay.Widget.Spinner
import Inlay.Widget.TaskList

namespace Inlay

/-- A prompt, where it draws, what it reads from and how long it waits. -/
structure Dialog where
  prompt : Prompt
  slot : Slot
  keyboard : Option Keyboard := none
  /-- Unset, the environment's limit holds. -/
  limit : Option Duration := none

namespace Dialog

/-- The keyboard to read from: the process's own input, if there is no other or it was lost. -/
def reader (d : Dialog) : Keyboard := (d.keyboard.filter fun kb => !kb.lost).getD .processInput

/-- The dialog after a reading with `kb`. A keyboard that was lost before stays as it was. -/
def returnKeyboard (d : Dialog) (kb : Keyboard) : Dialog :=
  match d.keyboard with
  | some own => if own.lost then d else { d with keyboard := some kb }
  | none => d

end Dialog

inductive Widget where
  | dialog (d : Dialog)
  | spinner (s : Spinner)
  | tasks (l : TaskList)

namespace Widget

def painting (now : Instant) (style : Style) : Widget → Painting
  | dialog d => d.prompt.painting style
  | spinner s => s.painting style
  | tasks l => l.painting now style

def slot : Widget → Slot
  | dialog d => d.slot
  | spinner s => s.slot
  | tasks l => l.slot

def withSlot (slot : Slot) : Widget → Widget
  | dialog d => .dialog { d with slot := slot }
  | spinner s => .spinner { s with slot := slot }
  | tasks l => .tasks { l with slot := slot }

end Widget

end Inlay
