import Inlay.Printer

namespace Inlay

structure Measurement where
  size : Size
  position : Position
  width : Nat
deriving DecidableEq, Repr

inductive Stroke where
  | print (text : Text)
  /-- Prints a text and, apart from it, a line feed. -/
  | printLine (text : Text)
  | printMarked (text : Style.Marked)
  | moveTo (target : Position)
  | emit (command : Cursor.Command)
  | setWidth (width : Nat)
  | clear
  | measure
  | fail (message : Text)
  | savePosition
  /-- Moves the cursor to where it was remembered to be, if it was. -/
  | restorePosition
deriving DecidableEq, Repr

abbrev Painting := List Stroke

structure Easel where
  printer : Printer
  saved : Option Position := none
  measurements : List Measurement := []
  failure : Option Text := none

namespace Printer

def measurement (p : Printer) : Measurement := ⟨p.size, p.position, p.width⟩

end Printer

namespace Easel

def onPrinter (e : Easel) (act : Printer → Printer) : Easel := { e with printer := act e.printer }

def stroke (e : Easel) : Stroke → Easel
  | .print text => e.onPrinter (·.print text)
  | .printLine text => e.onPrinter (·.printLine text)
  | .printMarked text => e.onPrinter fun p => p.print (p.style.render text)
  | .moveTo target => e.onPrinter (·.moveTo target)
  | .emit command => e.onPrinter (·.emit [command])
  | .setWidth width => e.onPrinter (·.setWidth width)
  | .clear => e.onPrinter (·.clear)
  | .measure => { e with measurements := e.measurements ++ [e.printer.measurement] }
  | .fail message => { e with failure := some message }
  | .savePosition => { e with saved := some e.printer.position }
  | .restorePosition => e.onPrinter fun p => (e.saved.map p.moveTo).getD p

/-- Makes the strokes in order up to the first that fails. -/
def paint (e : Easel) : Painting → Easel
  | [] => e
  | s :: rest =>
      let e := e.stroke s
      if e.failure.isSome then e else paint e rest

end Easel

namespace Printer

def paint (p : Printer) (painting : Painting) : Easel := Easel.paint { printer := p } painting

end Printer

end Inlay
