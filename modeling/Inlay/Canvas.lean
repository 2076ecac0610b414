import Inlay.Environment
import Inlay.Painting
import Inlay.Sink
import Inlay.Text.Blank
/-!
A canvas is a region of the output that is drawn again and again. Each repaint erases the frame
before, lets the visuals paint in order and hands the new frame to the sink. Where the width is
unknown a canvas is a plain log: nothing is erased, and a row is written once it shows new text.
-/

namespace Inlay

open Text

/-- The paintings of widgets, by number. -/
abbrev Gallery := Nat → Style → Painting

inductive Visual where
  /-- A visual of its own: the painting of each rendering, and the renderings so far. -/
  | drawn (painting : Nat → Painting) (renderings : Nat)
  | widget (widget : Nat)

namespace Visual

def painting (gallery : Gallery) (style : Style) : Visual → Painting
  | drawn painting renderings => painting renderings
  | widget w => gallery w style

def rendered : Visual → Visual
  | drawn painting renderings => drawn painting (renderings + 1)
  | widget w => widget w

end Visual

inductive WidthSource where
  | terminal
  | fixed (width : Nat)
deriving DecidableEq, Repr

def WidthSource.columns (env : Environment) : WidthSource → Nat
  | terminal => env.columns
  | fixed width => width

structure Canvas where
  visuals : List Visual
  /-- Made when first needed. -/
  printer : Option Printer := none
  /-- The text last logged for each row, where the width is unknown. -/
  logged : List Text := []
  sink : Sink := {}
  width : WidthSource := .terminal
  /-- If unset, the style that the environment calls for when the printer is made. -/
  style : Option Style := none
  closed : Bool := false

structure Frame where
  visuals : List Visual
  printer : Printer
  measurements : List Measurement := []
  failure : Option Text := none

namespace Frame

/-- Lets visuals paint in order. One that fails ends the frame. -/
def paint (gallery : Gallery) (p : Printer) : List Visual → Frame
  | [] => { visuals := [], printer := p }
  | v :: rest =>
      let easel := p.paint (v.painting gallery p.style)
      match easel.failure with
      | some message =>
          { visuals := v.rendered :: rest
            printer := easel.printer
            measurements := easel.measurements
            failure := some message }
      | none =>
          let frame := paint gallery easel.printer rest
          { frame with
            visuals := v.rendered :: frame.visuals
            measurements := easel.measurements ++ frame.measurements }

end Frame

namespace Canvas

def printerIn (c : Canvas) (env : Environment) : Printer :=
  c.printer.getD { width := c.width.columns env, style := c.style.getD env.style }

def withPrinter (c : Canvas) (env : Environment) : Canvas :=
  { c with printer := some (c.printerIn env) }

def logRow (logged : List Text) (row : Nat) (text : Text) : List Text :=
  (logged ++ List.replicate (row + 1 - logged.length) []).set row text

/-- The rows of a frame, from number `row` on, that are new to the log, and the log with them.
Blank rows are passed over. -/
def newRows (logged : List Text) (row : Nat) : List Text → Text × List Text
  | [] => ([], logged)
  | line :: rest =>
      let text := Escape.strip line
      if (Blank.trim text).isEmpty || logged[row]? = some text then newRows logged (row + 1) rest
      else
        let (out, logged) := newRows (logRow logged row text) (row + 1) rest
        (line ++ "\n" ++ out, logged)

def write (c : Canvas) (text : Text) : Except Fault Unit × Canvas :=
  let (result, sink) := c.sink.write text
  (result, { c with sink := sink })

def writeLog (c : Canvas) (frame : Text) : Except Fault Unit × Canvas :=
  let (out, logged) := newRows c.logged 0 (allLines frame)
  let c := { c with logged := logged }
  if out.isEmpty then (.ok (), c) else c.write out

def flush (c : Canvas) (p : Printer) : Except Fault Unit × Canvas :=
  let c := { c with printer := some p.emptied }
  if p.width = 0 then c.writeLog p.frame
  else if p.frame.isEmpty then (.ok (), c)
  else c.write p.frame

/-- A repainted canvas, what its visuals measured, and how the frame ended. A frame that a visual
ended early is written as far as it went, and a fault of the sink counts before the visual's. -/
structure Repaint where
  result : Except Failure Unit
  canvas : Canvas
  measurements : List Measurement

def repaint (c : Canvas) (env : Environment) (gallery : Gallery) : Repaint :=
  let frame := Frame.paint gallery (c.printerIn env).clear c.visuals
  let (flushed, c) := { c with visuals := frame.visuals }.flush frame.printer
  let result := match flushed, frame.failure with
    | .error fault, _ => .error (.output fault)
    | .ok (), some message => .error (.render message)
    | .ok (), none => .ok ()
  ⟨result, c, frame.measurements⟩

/-- Erases the frame. A canvas that has no printer yet has drawn nothing. -/
def erase (c : Canvas) : Except Fault Unit × Canvas :=
  match c.printer with
  | none => (.ok (), c)
  | some p => c.flush p.clear

def eraseUnlessClosed (c : Canvas) : Except Fault Unit × Canvas :=
  if c.closed then (.ok (), c) else c.erase

/-- Writes a sequence past the printer, unless the canvas is closed or a plain log. -/
def writeSequence (c : Canvas) (env : Environment) (sequence : Text) :
    Except Fault Unit × Canvas :=
  if c.closed then (.ok (), c)
  else
    let c := c.withPrinter env
    if (c.printerIn env).width = 0 then (.ok (), c) else c.write sequence

def close (c : Canvas) : Canvas := { c with closed := true }

end Canvas

end Inlay
