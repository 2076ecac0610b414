import Inlay.Widget
/-!
A scene holds all canvases of a process with their managers and widgets. A manager knows the
canvases that are registered with it and lets one of them have the focus; while one has it, the
others are not drawn.
-/

namespace Inlay

structure Manager where
  nextNumber : Nat := 0
  /-- The canvases registered, those whose last handle is gone included. -/
  entries : List CanvasRef := []
  /-- Number of the canvas that has the focus. -/
  focused : Option Nat := none
deriving DecidableEq, Repr

/-- A canvas, the manager it belongs to with its number there, and how many handles to it are
left. -/
structure CanvasEntry where
  canvas : Canvas
  manager : ManagerRef
  number : Nat
  handles : Nat := 1

structure FocusGuard where
  manager : ManagerRef
  number : Nat
deriving DecidableEq, Repr

/-- What is noted down while visuals paint and tasks run. -/
inductive Note where
  | measurement (m : Measurement)
  | task (title text : Text)
  | update (title : Text) (result : Except Failure Unit)
  | redrawn (title : Text)

structure Scene where
  env : Environment := {}
  watch : Watch := {}
  managers : Array Manager := #[{}]
  canvases : Array CanvasEntry := #[]
  widgets : Array Widget := #[]
  journal : List Note := []

namespace Scene

def gallery (s : Scene) : Gallery := fun w style =>
  match s.widgets[w]? with
  | some widget => widget.painting s.watch.now style
  | none => []

def newManager (s : Scene) : ManagerRef × Scene :=
  (s.managers.size, { s with managers := s.managers.push {} })

def newWidget (s : Scene) (widget : Widget) : Nat × Scene :=
  (s.widgets.size, { s with widgets := s.widgets.push widget })

def setWidget (s : Scene) (w : Nat) (widget : Widget) : Scene :=
  { s with widgets := s.widgets.setIfInBounds w widget }

def note (s : Scene) (notes : List Note) : Scene := { s with journal := s.journal ++ notes }

def modifyEntry (s : Scene) (c : CanvasRef) (f : CanvasEntry → CanvasEntry) : Scene :=
  { s with canvases := s.canvases.modify c f }

def modifyCanvas (s : Scene) (c : CanvasRef) (f : Canvas → Canvas) : Scene :=
  s.modifyEntry c fun e => { e with canvas := f e.canvas }

def setCanvas (s : Scene) (c : CanvasRef) (canvas : Canvas) : Scene :=
  s.modifyCanvas c fun _ => canvas

def modifyManager (s : Scene) (m : ManagerRef) (f : Manager → Manager) : Scene :=
  { s with managers := s.managers.modify m f }

def isAlive (s : Scene) (c : CanvasRef) : Bool := s.canvases[c]?.any (0 < ·.handles)

def isClosed (s : Scene) (c : CanvasRef) : Bool := s.canvases[c]?.any (·.canvas.closed)

def numberOf (s : Scene) (c : CanvasRef) : Nat := (s.canvases[c]?.map (·.number)).getD 0

def managerOf (s : Scene) (c : CanvasRef) : ManagerRef := (s.canvases[c]?.map (·.manager)).getD 0

/-- Registers a canvas, once, and forgets the dead. -/
def register (s : Scene) (m : ManagerRef) (c : CanvasRef) : Scene :=
  s.modifyManager m fun manager =>
    let alive := manager.entries.filter s.isAlive
    let isNew := alive.all fun e => s.numberOf e ≠ s.numberOf c
    { manager with entries := if isNew then alive ++ [c] else alive }

/-- Takes a canvas off the register, and the focus from it if it had that. -/
def deregister (s : Scene) (m : ManagerRef) (c : CanvasRef) : Scene :=
  s.modifyManager m fun manager =>
    { manager with
      entries := manager.entries.filter fun e => s.numberOf e ≠ s.numberOf c && s.isAlive e
      focused := if manager.focused = some (s.numberOf c) then none else manager.focused }

def registered (s : Scene) (m : ManagerRef) : Nat :=
  ((s.managers[m]?.map Manager.entries).getD []).countP s.isAlive

def focused (s : Scene) (m : ManagerRef) : Option Nat := s.managers[m]?.bind Manager.focused

/-- A canvas may be drawn while it has the focus or nobody does. -/
def canUpdate (s : Scene) (m : ManagerRef) (c : CanvasRef) : Bool :=
  (s.focused m).all (· = s.numberOf c)

def hasFocus (s : Scene) (m : ManagerRef) (c : CanvasRef) : Bool :=
  s.focused m = some (s.numberOf c)

def newCanvas (s : Scene) (m : ManagerRef) (canvas : Canvas) : CanvasRef × Scene :=
  let c := s.canvases.size
  let number := (s.managers[m]?.map Manager.nextNumber).getD 0
  let s := { s with canvases := s.canvases.push ⟨canvas, m, number, 1⟩ }
  let s := s.modifyManager m fun manager => { manager with nextNumber := number + 1 }
  (c, s.register m c)

def addHandle (s : Scene) (c : CanvasRef) : Scene :=
  s.modifyEntry c fun e => { e with handles := e.handles + 1 }

def dropHandle (s : Scene) (c : CanvasRef) : Scene :=
  s.modifyEntry c fun e => { e with handles := e.handles - 1 }

def addVisual (s : Scene) (c : CanvasRef) (visual : Visual) : Scene :=
  s.modifyCanvas c fun canvas => { canvas with visuals := canvas.visuals ++ [visual] }

def printer (s : Scene) (c : CanvasRef) : Option Printer :=
  s.canvases[c]?.map fun e => e.canvas.printerIn s.env

def preparePrinter (s : Scene) (c : CanvasRef) : Scene := s.modifyCanvas c (·.withPrinter s.env)

def repaintUnlessClosed (s : Scene) (c : CanvasRef) : Except Failure Unit × Scene :=
  match s.canvases[c]? with
  | none => (.ok (), s)
  | some e =>
      if e.canvas.closed then (.ok (), s)
      else
        let r := e.canvas.repaint s.env s.gallery
        (r.result, (s.setCanvas c r.canvas).note (r.measurements.map .measurement))

/-- Erases the frame before and draws a new one, if the canvas may be drawn. -/
def update (s : Scene) (c : CanvasRef) : Except Failure Unit × Scene :=
  if s.canUpdate (s.managerOf c) c then s.repaintUnlessClosed c else (.ok (), s)

def run (s : Scene) (c : CanvasRef) : Except Failure Unit × Scene := (s.preparePrinter c).update c

def asOutput : Except Fault Unit → Except Failure Unit
  | .ok () => .ok ()
  | .error fault => .error (.output fault)

def eraseUnlessClosed (s : Scene) (c : CanvasRef) : Except Fault Unit × Scene :=
  match s.canvases[c]? with
  | none => (.ok (), s)
  | some e =>
      let (result, canvas) := e.canvas.eraseUnlessClosed
      (result, s.setCanvas c canvas)

/-- Erases the frame without drawing another, if the canvas may be drawn. -/
def clear (s : Scene) (c : CanvasRef) : Except Failure Unit × Scene :=
  if s.canUpdate (s.managerOf c) c then
    let (result, s) := s.eraseUnlessClosed c
    (asOutput result, s)
  else (.ok (), s)

def writeSequence (s : Scene) (c : CanvasRef) (sequence : Text) : Except Failure Unit × Scene :=
  match s.canvases[c]? with
  | none => (.ok (), s)
  | some e =>
      let (result, canvas) := e.canvas.writeSequence s.env sequence
      (asOutput result, s.setCanvas c canvas)

def hideCursor (s : Scene) (c : CanvasRef) : Except Failure Unit × Scene :=
  s.writeSequence c Cursor.hideSequence

def showCursor (s : Scene) (c : CanvasRef) : Except Failure Unit × Scene :=
  s.writeSequence c Cursor.showSequence

/-- Takes a canvas out of use. Nothing draws it afterwards. -/
def close (s : Scene) (c : CanvasRef) : Scene :=
  (s.deregister (s.managerOf c) c).modifyCanvas c Canvas.close

/-- Lets a painting be made with the printer of a canvas, ahead of its next frame. -/
def paint (s : Scene) (c : CanvasRef) (painting : Painting) : Except Failure Unit × Scene :=
  match s.printer c with
  | none => (.ok (), s)
  | some p =>
      let easel := p.paint painting
      let s := s.modifyCanvas c fun canvas => { canvas with printer := some easel.printer }
      let s := s.note (easel.measurements.map .measurement)
      match easel.failure with
      | some message => (.error (.render message), s)
      | none => (.ok (), s)

def describe (s : Scene) (c : CanvasRef) : Text :=
  "Canvas \x7b id: " ++ Text.decimal (s.numberOf c) ++ " \x7d"

/-- The canvases that lose their frames when `c` gets the focus. -/
def others (s : Scene) (m : ManagerRef) (c : CanvasRef) : List CanvasRef :=
  ((s.managers[m]?.map Manager.entries).getD []).filter fun e =>
    s.numberOf e ≠ s.numberOf c && s.isAlive e

/-- Erases canvases in order. A fault of one does not spare the next. -/
def eraseAll (s : Scene) : List CanvasRef → Scene
  | [] => s
  | c :: rest => (s.eraseUnlessClosed c).2.eraseAll rest

/-- Gives the focus to a canvas and erases every other one of its manager. -/
def focus (s : Scene) (c : CanvasRef) : FocusGuard × Scene :=
  let m := s.managerOf c
  let number := s.numberOf c
  let s := s.modifyManager m fun manager => { manager with focused := some number }
  (⟨m, number⟩, s.eraseAll (s.others m c))

/-- Ends a grant of focus. If the focus has moved on to another canvas it stays there. -/
def release (s : Scene) (guard : FocusGuard) : Scene :=
  s.modifyManager guard.manager fun manager =>
    { manager with
      focused := if manager.focused = some guard.number then none else manager.focused }

/-- The canvas of a widget and whether it is the widget's own. A widget makes its own canvas once;
from then on it counts as shared. -/
def resolve (s : Scene) (w : Nat) (slot : Slot) : (CanvasRef × Bool) × Scene :=
  match slot with
  | .shared c => ((c, false), s)
  | .owned options =>
      let canvas : Canvas :=
        { visuals := [.widget w]
          sink := { behavior := options.behavior }
          width := options.width
          style := options.style }
      let (c, s) := s.newCanvas options.manager canvas
      let s := match s.widgets[w]? with
        | some widget => s.setWidget w (widget.withSlot (.shared c))
        | none => s
      ((c, true), s)

/-- Puts a widget on a canvas, beside what that shows already. -/
def attach (s : Scene) (w : Nat) (c : CanvasRef) : Scene :=
  let s := (s.addVisual c (.widget w)).addHandle c
  match s.widgets[w]? with
  | some widget => s.setWidget w (widget.withSlot (.shared c))
  | none => s

end Scene

end Inlay
