import Inlay.Cursor
import Inlay.Style
import Inlay.Text.Measure
/-!
A printer collects the text and cursor commands of a frame and keeps track of the room they take
on screen: how many rows, how far the last one reaches, and where the cursor was left.
-/

namespace Inlay

open Text.Measure

/-- Room on screen, in rows and in the cells of the last row's line. -/
structure Size where
  rows : Nat := 1
  cols : Nat := 0
deriving DecidableEq, Repr

/-- A place on screen, counted from the origin of a canvas. -/
structure Position where
  row : Nat
  col : Nat
deriving DecidableEq, Repr

structure Printer where
  frame : Text := []
  line : Text := []
  /-- Rows already counted for the wrapping of that line. -/
  lineWraps : Nat := 0
  size : Size := {}
  /-- Where the cursor was moved; unset while it stands where the last text ended. -/
  cursor : Option Position := none
  /-- Columns of the terminal. With none, the width is unknown and no command is emitted. -/
  width : Nat
  style : Style
deriving DecidableEq, Repr

namespace Printer

def bottomRight (p : Printer) : Position := ⟨p.size.rows - 1, p.size.cols⟩

def position (p : Printer) : Position := p.cursor.getD p.bottomRight

def emit (p : Printer) (commands : List Cursor.Command) : Printer :=
  if p.width = 0 then p else { p with frame := p.frame ++ Cursor.sequences commands }

/-- Counts the rows that the current line takes by wrapping and that are not yet counted. -/
def countWraps (p : Printer) : Printer :=
  let wraps := wrapRows (visibleLength p.line) p.width
  if p.lineWraps < wraps then
    { p with
      size := { p.size with rows := p.size.rows + (wraps - p.lineWraps) }
      lineWraps := wraps }
  else p

def startLine (p : Printer) (line : Text) : Printer :=
  let p := p.countWraps
  { p with
    size := { p.size with rows := p.size.rows + 1 }
    line := line
    lineWraps := 0 }

def print (p : Printer) (text : Text) : Printer :=
  if text.isEmpty then p
  else
    let (first, others) := Text.lines text
    let p := { p with frame := p.frame ++ text, line := p.line ++ first }
    let p := (others.foldl startLine p).countWraps
    { p with
      size := { p.size with cols := visibleLength p.line }
      cursor := none }

/-- Prints a text and then, apart, a line feed. -/
def printLine (p : Printer) (text : Text) : Printer := (p.print text).print "\n"

/-- Moves the cursor by rows, then from the start of the line to the column. -/
def moveTo (p : Printer) (target : Position) : Printer :=
  let current := p.position
  if target = current then p
  else
    let vertical : Cursor.Command :=
      if current.row < target.row then .down (target.row - current.row)
      else .up (current.row - target.row)
    { p.emit [vertical, .startOfLine, .right target.col] with cursor := some target }

/-- Clears the row of the cursor and the `above` rows over it. -/
def clearRows : Nat → List Cursor.Command
  | 0 => [.clearLine]
  | above + 1 => .clearLine :: .up 1 :: clearRows above

/-- Erases every row that was drawn, from the last to the first. -/
def clear (p : Printer) : Printer :=
  let p := p.moveTo p.bottomRight
  let p := if p.size.rows = 0 then p else p.emit (clearRows (p.size.rows - 1))
  { p with size := {}, line := [], lineWraps := 0, cursor := none }

def setWidth (p : Printer) (width : Nat) : Printer := { p with width := width }

def emptied (p : Printer) : Printer := { p with frame := [] }

def describe (p : Printer) : Text :=
  let cursor : Text := match p.cursor with
    | none => "None"
    | some position =>
        "Some(CursorPosition \x7b row: " ++ Text.decimal position.row ++ ", col: " ++
          Text.decimal position.col ++ " \x7d)"
  "Printer \x7b size: CanvasSize \x7b rows: " ++ Text.decimal p.size.rows ++ ", cols: " ++
    Text.decimal p.size.cols ++ " \x7d, cursor: " ++ cursor ++ ", width: " ++
    Text.decimal p.width ++ ", style: Style \x7b color: " ++
    (if p.style.color then "true" else "false") ++ " \x7d \x7d"

end Printer

end Inlay
