import Inlay.Scene

namespace Inlay.Scene

open Keyboard

def dialog? (s : Scene) (w : Nat) : Option Dialog :=
  match s.widgets[w]? with
  | some (.dialog d) => some d
  | _ => none

def modifyDialog (s : Scene) (w : Nat) (f : Dialog → Dialog) : Scene :=
  match s.dialog? w with
  | some d => s.setWidget w (.dialog (f d))
  | none => s

/-- Lets the prompt of a widget follow an event and repaints the canvas. A repaint that fails does
not end the asking. -/
def promptListener (w : Nat) (c : CanvasRef) : Listener Scene := fun event s =>
  match s.dialog? w with
  | none => ({ goOn := .ok false }, s)
  | some d =>
      let (goOn, prompt) := d.prompt.press event
      let s := s.modifyDialog w fun d => { d with prompt := prompt }
      ({ goOn := .ok goOn }, (s.update c).2)

structure Interaction where
  widget : Nat
  canvas : CanvasRef
  hidesCursor : Bool
  clearsOnCompletion : Bool
  config : InputConfig
  limit : Option Duration

namespace Interaction

/-- The asking of a dialog on a canvas. -/
def ofDialog (w : Nat) (c : CanvasRef) (d : Dialog) (env : Environment) : Interaction where
  widget := w
  canvas := c
  hidesCursor := d.prompt.hidesCursor
  clearsOnCompletion := d.prompt.clearsOnCompletion
  config := d.prompt.inputConfig
  limit := d.limit.or env.config.promptTimeout

def readKeys (i : Interaction) (amid : List Occurrence → List Occurrence) (token : Token)
    (state : Keyboard × Scene) : Except Failure Unit × Keyboard × Scene :=
  let (kb, s) := state
  let (result, kb, state) :=
    kb.listenAmid i.config amid token (promptListener i.widget i.canvas) s.watch s
  (result, kb, { state.own with watch := state.watch })

/-- Hides the cursor, draws the first frame, reads keys under the time limit and clears the canvas,
as far as nothing fails. -/
def attempt (i : Interaction) (amid : List Occurrence → List Occurrence) (token : Token)
    (kb : Keyboard) (s : Scene) : Except Failure Unit × Keyboard × Scene :=
  let (hidden, s) := if i.hidesCursor then s.hideCursor i.canvas else (.ok (), s)
  match hidden with
  | .error failure => (.error failure, kb, s)
  | .ok () =>
      match s.run i.canvas with
      | (.error failure, s) => (.error failure, kb, s)
      | (.ok (), s) =>
          match token.askWithin i.limit s.watch.now (i.readKeys amid) (kb, s) with
          | (.error failure, kb, s) => (.error failure, kb, s)
          | (.ok (), kb, s) =>
              if i.clearsOnCompletion then
                let (cleared, s) := s.clear i.canvas
                (cleared, kb, s)
              else (.ok (), kb, s)

end Interaction

/-- Opens the prompt of a widget: finds its canvas, and whether that is its own, and lets it wait
for keys. -/
def openDialog (s : Scene) (w : Nat) (d : Dialog) : (CanvasRef × Bool) × Scene :=
  let (canvas, s) := s.resolve w d.slot
  (canvas, s.modifyDialog w fun d => { d with prompt := d.prompt.withPhase .interacting })

/-- What follows an attempt, however it went: a cursor that was to be hidden is shown, the keyboard
is returned, the focus is given back and a canvas made for this asking is closed. -/
def cleanUp (s : Scene) (i : Interaction) (owned : Bool) (guard : FocusGuard) (kb : Keyboard) :
    Scene :=
  let s := if i.hidesCursor then (s.showCursor i.canvas).2 else s
  let s := s.modifyDialog i.widget fun d => d.returnKeyboard kb
  let s := s.release guard
  if owned then s.close i.canvas else s

def askDialog (s : Scene) (w : Nat) (d : Dialog) (token : Token)
    (amid : List Occurrence → List Occurrence) : Except Failure Unit × Scene :=
  let ((c, owned), s) := s.openDialog w d
  let (guard, s) := s.focus c
  let i := Interaction.ofDialog w c d s.env
  let (result, kb, s) := i.attempt amid token d.reader.load s
  (result, s.cleanUp i owned guard kb)

/-- Asks a prompt and reads its answer off. `amid` is what else occurs while keys are read. -/
def ask (s : Scene) (w : Nat) (token : Token)
    (amid : List Occurrence → List Occurrence := id) : Except Failure Prompt.Answer × Scene :=
  match s.dialog? w with
  | none => (.error (.render "no prompt to ask"), s)
  | some d =>
      match s.askDialog w d token amid with
      | (.error failure, s) => (.error failure, s)
      | (.ok (), s) =>
          match s.dialog? w with
          | some d => (d.prompt.answer, s)
          | none => (.error (.render "no prompt to ask"), s)

end Inlay.Scene
