import Inlay.Keyboard.Input
import Inlay.Prompt.Phase
import Inlay.Text.Blank

namespace Inlay.Prompt

open Keyboard

/-- Accepts a submitted text or says what is wrong with it. -/
abbrev Validator := Text → Option Text

structure Line where
  message : Text
  /-- What the line holds before any key. -/
  default : Text := []
  /-- Shown in place of an empty line. -/
  placeholder : Text := []
  required : Bool := false
  /-- Show an asterisk for every character. -/
  secret : Bool := false
  validator : Option Validator := none
  help : Text := []
  hint : Text := defaultHint
  clearOnCompletion : Bool := false
  ignoreHintKeys : Bool := false
  value : Text := default
  error : Option Text := none
  showHelp : Bool := false
  phase : Phase := .pending

namespace Line

def requiredMessage : Text := "This field is required"

def shown (l : Line) : Text :=
  if l.secret then List.replicate l.value.length '*' else l.value

def objection? (l : Line) (value : Text) : Option Text :=
  if l.required && (Text.Blank.trim value).isEmpty then some requiredMessage
  else l.validator.bind fun validate => validate value

def press (l : Line) (event : KeyEvent) : Bool × Line :=
  if event.cancelled then (false, { l with phase := .cancelled })
  else if event.timedOut then (false, { l with phase := .timedOut })
  else
    let l := { l with showHelp := event.hint, value := event.value, error := none }
    if event.key = some .enter then
      match l.objection? l.value with
      | none => (false, { l with phase := .complete })
      | some message => (true, { l with error := some message })
    else (true, l)

def paintValue (l : Line) (style : Style) : Painting :=
  if l.value.isEmpty && !l.placeholder.isEmpty then
    [.savePosition, .print (style.gray l.placeholder)]
  else [.print l.shown, .savePosition]

def paintOpen (l : Line) (style : Style) : Painting :=
  paintHintCall style l.help l.hint ++
    l.paintValue style ++
    [.printLine []] ++
    (match l.error with
      | some message => if l.showHelp then [] else [.printLine (style.warning ("  " ++ message))]
      | none => []) ++
    (if l.showHelp then paintHelp style l.help else []) ++
    [.restorePosition]

def painting (l : Line) (style : Style) : Painting :=
  paintQuestion style l.message ++
    match calledOffNote? l.phase with
    | some note => [.printLine (style.error note)]
    | none =>
        if l.phase = .complete then [.printLine (style.highlight l.shown)] else l.paintOpen style

end Line

end Inlay.Prompt
