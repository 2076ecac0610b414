import Inlay.Proofs.Scene.Standing
/-!
The face of a canvas is what drawing may change of it: its visuals with their renderings, its
printer with the size and the cursor, its log and its sink. An operation on one canvas leaves the
faces of all others alone, and no operation changes the face of a canvas that is closed.
-/

namespace Inlay

structure Face where
  visuals : List Visual
  printer : Printer
  logged : List Text
  sink : Sink

namespace Canvas

def face (c : Canvas) (env : Environment) : Face :=
  ⟨c.visuals, c.printerIn env, c.logged, c.sink⟩

@[simp] theorem printerIn_withPrinter (c : Canvas) (env : Environment) :
    (c.withPrinter env).printerIn env = c.printerIn env :=
  rfl

theorem printerIn_of_some {c : Canvas} {p : Printer} (hp : c.printer = some p)
    (env : Environment) : c.printerIn env = p := by
  rw [printerIn, hp]
  rfl

theorem printerIn_of_none {c : Canvas} (hp : c.printer = none) (env : Environment) :
    c.printerIn env = { width := c.width.columns env, style := c.style.getD env.style } := by
  rw [printerIn, hp]
  rfl

@[simp] theorem face_withPrinter (c : Canvas) (env : Environment) :
    (c.withPrinter env).face env = c.face env :=
  rfl

@[simp] theorem face_close (c : Canvas) (env : Environment) : c.close.face env = c.face env :=
  rfl

theorem eraseUnlessClosed_of_closed {c : Canvas} (h : c.closed = true) :
    c.eraseUnlessClosed = (.ok (), c) := by
  simp [eraseUnlessClosed, h]

theorem writeSequence_of_closed {c : Canvas} (h : c.closed = true) (env : Environment)
    (sequence : Text) : c.writeSequence env sequence = (.ok (), c) := by
  simp [writeSequence, h]

end Canvas

namespace Scene

def face? (s : Scene) (c : CanvasRef) : Option Face :=
  s.canvases[c]?.map fun e => e.canvas.face s.env

theorem face?_modifyEntry (s : Scene) (c c' : CanvasRef) (f : CanvasEntry → CanvasEntry)
    (h : c = c' → ∀ e, s.canvases[c]? = some e → (f e).canvas.face s.env = e.canvas.face s.env) :
    (s.modifyEntry c f).face? c' = s.face? c' := by
  unfold face?
  rw [getElem?_modifyEntry]
  split
  · rename_i heq
    subst heq
    cases he : s.canvases[c]? with
    | none => rfl
    | some e => exact congrArg some (h rfl e he)
  · rfl

theorem face?_setCanvas_of_ne (s : Scene) {c c' : CanvasRef} (canvas : Canvas) (h : c ≠ c') :
    (s.setCanvas c canvas).face? c' = s.face? c' :=
  face?_modifyEntry s c c' _ fun heq => absurd heq h

theorem face?_setCanvas_self {s : Scene} {c : CanvasRef} {e : CanvasEntry}
    (he : s.canvases[c]? = some e) (c' : CanvasRef) :
    (s.setCanvas c e.canvas).face? c' = s.face? c' := by
  apply face?_modifyEntry
  intro _ e' he'
  rw [he, Option.some.injEq] at he'
  rw [he']

theorem face?_preparePrinter (s : Scene) (c c' : CanvasRef) :
    (s.preparePrinter c).face? c' = s.face? c' :=
  face?_modifyEntry s c c' _ fun _ _ _ => rfl

theorem face?_addHandle (s : Scene) (c c' : CanvasRef) :
    (s.addHandle c).face? c' = s.face? c' :=
  face?_modifyEntry s c c' _ fun _ _ _ => rfl

theorem face?_dropHandle (s : Scene) (c c' : CanvasRef) :
    (s.dropHandle c).face? c' = s.face? c' :=
  face?_modifyEntry s c c' _ fun _ _ _ => rfl

theorem face?_addHandles (s : Scene) (cs : List CanvasRef) (c' : CanvasRef) :
    (cs.foldl addHandle s).face? c' = s.face? c' := by
  induction cs generalizing s with
  | nil => rfl
  | cons c rest ih => rw [List.foldl_cons, ih, face?_addHandle]

theorem face?_modifyCanvas_close (s : Scene) (c c' : CanvasRef) :
    (s.modifyCanvas c Canvas.close).face? c' = s.face? c' :=
  face?_modifyEntry s c c' _ fun _ _ _ => rfl

theorem isClosed_of_getElem? {s : Scene} {c : CanvasRef} {e : CanvasEntry}
    (he : s.canvases[c]? = some e) : s.isClosed c = e.canvas.closed := by
  simp [isClosed, he]

theorem face?_repaintUnlessClosed (s : Scene) {c c' : CanvasRef}
    (h : c ≠ c' ∨ s.isClosed c = true) :
    (s.repaintUnlessClosed c).2.face? c' = s.face? c' := by
  rw [repaintUnlessClosed]
  split
  · rfl
  · rename_i e he
    split
    · rfl
    · rename_i hopen
      rcases h with h | h
      · exact face?_setCanvas_of_ne s _ h
      · rw [isClosed_of_getElem? he] at h
        exact absurd h hopen

theorem face?_eraseUnlessClosed (s : Scene) {c c' : CanvasRef}
    (h : c ≠ c' ∨ s.isClosed c = true) :
    (s.eraseUnlessClosed c).2.face? c' = s.face? c' := by
  rw [eraseUnlessClosed]
  split
  · rfl
  · rename_i e he
    rcases h with h | h
    · exact face?_setCanvas_of_ne s _ h
    · rw [isClosed_of_getElem? he] at h
      rw [Canvas.eraseUnlessClosed_of_closed h]
      exact face?_setCanvas_self he c'

theorem face?_writeSequence (s : Scene) {c c' : CanvasRef} (sequence : Text)
    (h : c ≠ c' ∨ s.isClosed c = true) :
    (s.writeSequence c sequence).2.face? c' = s.face? c' := by
  rw [writeSequence]
  split
  · rfl
  · rename_i e he
    rcases h with h | h
    · exact face?_setCanvas_of_ne s _ h
    · rw [isClosed_of_getElem? he] at h
      rw [Canvas.writeSequence_of_closed h]
      exact face?_setCanvas_self he c'

end Scene

end Inlay
