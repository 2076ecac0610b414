import Inlay.Keyboard.Input
import Inlay.Prompt.Choices
import Inlay.Prompt.Phase

namespace Inlay.Prompt

open Keyboard

structure Select where
  message : Text
  help : Text := []
  filtering : Bool := true
  list : Choices
  /-- Index of the choice shown beside the question. -/
  selected : Option Nat := none
  showHelp : Bool := false
  phase : Phase := .pending
deriving DecidableEq, Repr

/-- The line of a list prompt where the filter is typed. -/
def paintFilter (style : Style) (filter : Text) : Painting :=
  [.printLine [], .print "  Filter: "] ++
    (if filter.isEmpty then [.savePosition, .print (style.gray "Type to filter list")]
      else [.print filter, .savePosition]) ++
    [.printLine [], .printLine []]

namespace Select

/-- A list with one of its choices highlighted, if there is one of that index. -/
def ofChoices (message : Text) (list : Choices) (index : Option Nat) : Select :=
  let selected := index.filter (· < list.entries.length)
  { message := message
    list := match selected with
      | some i => list.highlight i
      | none => list
    selected := selected }

def move (list : Choices) : Option Key → Choices
  | some .up => list.moveUp
  | some .down => list.moveDown
  | _ => list

def press (s : Select) (event : KeyEvent) : Bool × Select :=
  if event.cancelled then (false, { s with phase := .cancelled })
  else if event.timedOut then (false, { s with phase := .timedOut })
  else
    let list := if s.filtering then s.list.setFilter event.value else s.list
    let list := move list event.key
    let s :=
      { s with
        showHelp := event.hint
        list := list
        selected := list.highlighted?.or s.selected }
    if event.key = some .enter ∧ list.highlighted?.isSome then
      (false, { s with phase := .complete })
    else (true, s)

def footer : List Text := ["Use arrows to move, type ? for hint"]

def paintRow (style : Style) (row : Choices.Row) : Painting :=
  if row.isHighlighted then
    [printWhole ("  " ++ style.highlight ">" ++ " " ++ style.highlight row.number ++
      style.highlight row.label)]
  else [printWhole ("    " ++ row.number ++ row.label)]

def paintAnswer (s : Select) (style : Style) : Painting :=
  match calledOffNote? s.phase with
  | some note => [.print (style.error note)]
  | none =>
      match s.selected.bind fun index => s.list.entries[index]? with
      | some choice => [.print (style.highlight choice.label)]
      | none => []

def paintOpen (s : Select) (style : Style) : Painting :=
  (if s.filtering then paintFilter style s.list.filter else []) ++
    s.list.painting style (paintRow style) ++
    (if s.list.isEmpty && !s.showHelp then
      [.printLine (style.warning "  No options found matching the filter")] else []) ++
    (if s.showHelp then paintHelp style s.help else []) ++
    paintFooter style footer ++
    [.restorePosition]

def painting (s : Select) (style : Style) : Painting :=
  paintQuestion style s.message ++ s.paintAnswer style ++ [.printLine []] ++
    (if s.phase.isFinished then [] else s.paintOpen style)

end Select

end Inlay.Prompt
