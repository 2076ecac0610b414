import Inlay.Scene

namespace Inlay.Scene

def spinner? (s : Scene) (w : Nat) : Option Spinner :=
  match s.widgets[w]? with
  | some (.spinner sp) => some sp
  | _ => none

def modifySpinner (s : Scene) (w : Nat) (f : Spinner → Spinner) : Scene :=
  match s.spinner? w with
  | some sp => s.setWidget w (.spinner (f sp))
  | none => s

/-- One tick: the next frame, drawn as far as the canvas may be. -/
def tick (s : Scene) (w : Nat) (c : CanvasRef) : Scene :=
  ((s.modifySpinner w Spinner.advance).update c).2

def ticks (s : Scene) (w : Nat) (c : CanvasRef) : Nat → Scene
  | 0 => s
  | n + 1 => (s.tick w c).ticks w c n

/-- The canvas of a spinner, made or found on the first start. -/
def spinnerCanvas (s : Scene) (w : Nat) (sp : Spinner) : CanvasRef × Scene :=
  match sp.canvas with
  | some (c, _) => (c, s)
  | none =>
      let (resolved, s) := s.resolve w sp.slot
      (resolved.1, s.modifySpinner w fun sp => { sp with canvas := some resolved })

/-- Draws the first frame and starts the clockwork, unless there is one. A clockwork with a
last tick makes its ticks and ends. `thread` is what comes of making a thread for the clockwork. If
that fails, so does the start, and the first frame stays. -/
def startSpinner (s : Scene) (w : Nat) (lastTick : Option Nat)
    (thread : Except Fault Unit := .ok ()) : Except Failure Unit × Scene :=
  match s.spinner? w with
  | none => (.ok (), s)
  | some sp =>
      if sp.ticker ≠ .absent then (.ok (), s)
      else
        let (c, s) := s.spinnerCanvas w sp
        match s.run c with
        | (.error failure, s) => (.error failure, s)
        | (.ok (), s) =>
            match thread with
            | .error fault => (.error (.output fault), s)
            | .ok () =>
                let s := s.modifySpinner w fun sp => { sp with ticker := .start lastTick }
                (.ok (), s.ticks w c (Ticker.ticks lastTick))

def spinnerText (s : Scene) (w : Nat) (text : Text) : Scene :=
  s.modifySpinner w fun sp => { sp with text := text }

/-- Stops the clockwork, if there is one, and erases or redraws the line. -/
def stopSpinner (s : Scene) (w : Nat) : Except Failure Unit × Scene :=
  match s.spinner? w with
  | none => (.ok (), s)
  | some sp =>
      if sp.ticker = .absent then (.ok (), s)
      else
        let s := s.modifySpinner w fun sp => { sp with ticker := .absent }
        match sp.canvas with
        | none => (.ok (), s)
        | some (c, _) => if sp.clearOnStop then s.clear c else s.update c

/-- Spins while an action runs. A failure of the action counts before one of the stop. -/
def spinWhile {α : Type} (s : Scene) (w : Nat) (action : Scene → Except Failure α × Scene)
    (thread : Except Fault Unit := .ok ()) : Except Failure α × Scene :=
  match s.startSpinner w none thread with
  | (.error failure, s) => (.error failure, s)
  | (.ok (), s) =>
      let (outcome, s) := action s
      let (stopped, s) := s.stopSpinner w
      match outcome, stopped with
      | .error failure, _ => (.error failure, s)
      | .ok _, .error failure => (.error failure, s)
      | .ok value, .ok () => (.ok value, s)

/-- Stops a spinner that is done with, closes a canvas of its own and gives up its handle. -/
def dropSpinner (s : Scene) (w : Nat) : Scene :=
  match s.spinner? w with
  | none => s
  | some sp =>
      let s := (s.stopSpinner w).2
      match sp.canvas, sp.slot with
      | some (c, true), _ => (s.close c).dropHandle c
      | some (c, false), _ | none, .shared c => s.dropHandle c
      | none, .owned _ => s

end Inlay.Scene
