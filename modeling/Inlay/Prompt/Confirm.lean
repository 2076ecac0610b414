import Inlay.Keyboard.Input
import Inlay.Prompt.Phase
import Inlay.Text.Blank

namespace Inlay.Prompt

open Keyboard

structure Confirm where
  message : Text
  /-- The answer that an empty line stands for. -/
  default : Option Bool := none
  help : Text := []
  hint : Text := defaultHint
  value : Text := []
  answer : Option Bool := none
  invalid : Bool := false
  showHelp : Bool := false
  phase : Phase := .pending
deriving DecidableEq, Repr

namespace Confirm

/-- Reads an answer. Case and white space around it do not matter. -/
def parseAnswer? (text : Text) : Option Bool :=
  let word := Text.asciiLowercase (Text.Blank.trim text)
  if word = "y" ∨ word = "yes" then some true
  else if word = "n" ∨ word = "no" then some false
  else none

def denoted? (c : Confirm) (value : Text) : Option Bool :=
  if (Text.Blank.trim value).isEmpty then c.default else parseAnswer? value

def press (c : Confirm) (event : KeyEvent) : Bool × Confirm :=
  if event.cancelled then (false, { c with phase := .cancelled })
  else if event.timedOut then (false, { c with phase := .timedOut })
  else
    let c := { c with showHelp := event.hint, value := event.value, invalid := false }
    if event.key = some .enter then
      match c.denoted? c.value with
      | some answer => (false, { c with answer := some answer, phase := .complete })
      | none => (true, { c with invalid := true })
    else (true, c)

def cue : Option Bool → Text
  | some true => "(Y/n)"
  | some false => "(y/N)"
  | none => "(y/n)"

def paintOpen (c : Confirm) (style : Style) : Painting :=
  paintHintCall style c.help c.hint ++
    [.print (style.gray (cue c.default ++ " ")), .print c.value, .savePosition, .printLine []] ++
    (if c.invalid && !c.showHelp then [.printLine (style.warning "  Enter a valid value")]
      else []) ++
    (if c.showHelp then paintHelp style c.help else []) ++
    [.restorePosition]

def painting (c : Confirm) (style : Style) : Painting :=
  paintQuestion style c.message ++
    match calledOffNote? c.phase with
    | some note => [.printLine (style.error note)]
    | none =>
        if c.phase = .complete then
          [.printLine (style.highlight (if c.answer = some true then "Yes" else "No"))]
        else c.paintOpen style

end Confirm

end Inlay.Prompt
