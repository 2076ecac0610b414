import Inlay.Prompt.Select
import Inlay.Text.Blank

namespace Inlay.Prompt

open Keyboard

structure CheckedChoice where
  choice : Choice
  checked : Bool
deriving DecidableEq, Repr

structure MultiSelect where
  message : Text
  help : Text := []
  filtering : Bool := true
  list : Choices
  checks : List Bool
  submitted : Bool := false
  showHelp : Bool := false
  phase : Phase := .pending
deriving DecidableEq, Repr

namespace MultiSelect

def ofChoices (message : Text) (choices : List CheckedChoice) (displayCount : Nat)
    (displayNumbers : Bool) : MultiSelect where
  message := message
  list :=
    (Choices.ofEntries (choices.map CheckedChoice.choice) displayCount displayNumbers).highlight 0
  checks := choices.map CheckedChoice.checked

def noMatch : Text := "No options found matching the filter"

def noneChecked : Text := "At least one option must be selected"

def objection? (m : MultiSelect) : Option Text :=
  if m.list.isEmpty then some noMatch
  else if m.submitted && !m.checks.contains true then some noneChecked
  else none

def chosen (m : MultiSelect) : List Choice :=
  ((m.list.entries.zip m.checks).filter Prod.snd).map Prod.fst

/-- Follows a key: up and down move the highlight, a blank flips the check of the highlighted
choice, right checks all and left none, and Enter submits. -/
def pressKey (m : MultiSelect) : Option Key → Bool × MultiSelect
  | some .up => (true, { m with list := m.list.moveUp })
  | some .down => (true, { m with list := m.list.moveDown })
  | some (.char ' ') =>
      match m.list.highlighted? with
      | some index => (true, { m with checks := m.checks.modify index not })
      | none => (true, m)
  | some .right => (true, { m with checks := m.checks.map fun _ => true })
  | some .left => (true, { m with checks := m.checks.map fun _ => false })
  | some .enter =>
      let m := { m with submitted := true }
      if m.objection?.isNone then (false, { m with phase := .complete }) else (true, m)
  | _ => (true, m)

/-- Follows an event and tells whether to read on. White space around the text, which the check
key leaves behind, does not filter. -/
def press (m : MultiSelect) (event : KeyEvent) : Bool × MultiSelect :=
  if event.cancelled then (false, { m with phase := .cancelled })
  else if event.timedOut then (false, { m with phase := .timedOut })
  else
    let list := if m.filtering then m.list.setFilter (Text.Blank.trim event.value) else m.list
    let list := if list.highlighted?.isNone && !list.isEmpty then list.moveDown else list
    { m with showHelp := event.hint, list := list }.pressKey event.key

def footer : List Text :=
  ["Use arrows to move, use space to select", "Use left/right to select none/all",
    "Use enter to submit, type ? for help"]

def paintRow (m : MultiSelect) (style : Style) (row : Choices.Row) : Painting :=
  let mark := if m.checks[row.index]? = some true then style.success "✔" else " "
  if row.isHighlighted then
    [printWhole ("  " ++ style.highlight ">" ++ " " ++ style.highlight "[" ++
      style.highlight mark ++ style.highlight "]" ++ " " ++ style.highlight row.number ++
      style.highlight row.label)]
  else [printWhole ("    [" ++ mark ++ "] " ++ row.number ++ row.label)]

def paintAnswer (m : MultiSelect) (style : Style) : Painting :=
  match calledOffNote? m.phase with
  | some note => [.print (style.error note)]
  | none => [.print (style.highlight (Text.join ", " (m.chosen.map Choice.label)))]

def paintOpen (m : MultiSelect) (style : Style) : Painting :=
  (if m.filtering then paintFilter style m.list.filter else []) ++
    m.list.painting style (m.paintRow style) ++
    (match m.objection? with
      | some message =>
          if m.showHelp then []
          else [.printLine [], .printLine (style.warning ("  " ++ message))]
      | none => []) ++
    (if m.showHelp then paintHelp style m.help else []) ++
    paintFooter style footer ++
    [.restorePosition]

def painting (m : MultiSelect) (style : Style) : Painting :=
  paintQuestion style m.message ++ m.paintAnswer style ++ [.printLine []] ++
    (if m.phase.isFinished then [] else m.paintOpen style)

end MultiSelect

end Inlay.Prompt
