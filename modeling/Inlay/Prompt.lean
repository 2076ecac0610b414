import Inlay.Prompt.Confirm
import Inlay.Prompt.Line
import Inlay.Prompt.MultiSelect

namespace Inlay

open Prompt

inductive Prompt where
  | confirm (c : Confirm)
  | line (l : Line)
  | select (s : Select)
  | multiSelect (m : MultiSelect)

namespace Prompt

inductive Answer where
  | yesNo (yes : Bool)
  | text (text : Text)
  | index (index : Nat)
  | choices (choices : List Choice)
deriving DecidableEq, Repr

def phase : Prompt → Phase
  | confirm c => c.phase
  | line l => l.phase
  | select s => s.phase
  | multiSelect m => m.phase

def withPhase (phase : Phase) : Prompt → Prompt
  | confirm c => .confirm { c with phase := phase }
  | line l => .line { l with phase := phase }
  | select s => .select { s with phase := phase }
  | multiSelect m => .multiSelect { m with phase := phase }

/-- Follows an event and tells whether to read on. -/
def press (event : Keyboard.KeyEvent) : Prompt → Bool × Prompt
  | confirm c => (c.press event).map id .confirm
  | line l => (l.press event).map id .line
  | select s => (s.press event).map id .select
  | multiSelect m => (m.press event).map id .multiSelect

def painting (style : Style) : Prompt → Painting
  | confirm c => c.painting style
  | line l => l.painting style
  | select s => s.painting style
  | multiSelect m => m.painting style

/-- A list that is not filtered by typing is shown without the cursor. -/
def hidesCursor : Prompt → Bool
  | confirm _ | line _ => false
  | select s => !s.filtering
  | multiSelect m => !m.filtering

def clearsOnCompletion : Prompt → Bool
  | line l => l.clearOnCompletion
  | _ => false

def inputConfig : Prompt → Keyboard.InputConfig
  | line l => { initialValue := l.default, ignoreHintKeys := l.ignoreHintKeys }
  | _ => {}

def answer : Prompt → Except Failure Answer
  | confirm c =>
      match c.answer with
      | some yes => .ok (.yesNo yes)
      | none => .error (.render "confirm finished without an answer")
  | line l => .ok (.text l.value)
  | select s =>
      match s.selected with
      | some index => .ok (.index index)
      | none => .error (.render "select finished without a choice")
  | multiSelect m => .ok (.choices m.chosen)

end Prompt

end Inlay
