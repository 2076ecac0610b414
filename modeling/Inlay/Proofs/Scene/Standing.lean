import Inlay.Scene
/-!
The standing of a canvas is its manager, its number there, how many handles it has and whether it
is closed. Drawing changes the standing of no canvas and leaves the registers of the managers
alone.
-/

namespace Inlay

namespace Canvas

@[simp] theorem closed_write (c : Canvas) (text : Text) : (c.write text).2.closed = c.closed :=
  rfl

@[simp] theorem closed_writeLog (c : Canvas) (frame : Text) :
    (c.writeLog frame).2.closed = c.closed := by
  rw [writeLog]
  dsimp only
  split <;> rfl

@[simp] theorem closed_flush (c : Canvas) (p : Printer) : (c.flush p).2.closed = c.closed := by
  rw [flush]
  split
  · rw [closed_writeLog]
  · split <;> rfl

@[simp] theorem closed_repaint (c : Canvas) (env : Environment) (gallery : Gallery) :
    (c.repaint env gallery).canvas.closed = c.closed := by
  simp [repaint]

@[simp] theorem closed_erase (c : Canvas) : c.erase.2.closed = c.closed := by
  rw [erase]
  split
  · rfl
  · rw [closed_flush]

@[simp] theorem closed_eraseUnlessClosed (c : Canvas) :
    c.eraseUnlessClosed.2.closed = c.closed := by
  rw [eraseUnlessClosed]
  split
  · rfl
  · rw [closed_erase]

@[simp] theorem closed_writeSequence (c : Canvas) (env : Environment) (sequence : Text) :
    (c.writeSequence env sequence).2.closed = c.closed := by
  rw [writeSequence]
  split
  · rfl
  · dsimp only
    split <;> rfl

end Canvas

structure Standing where
  manager : ManagerRef
  number : Nat
  handles : Nat
  closed : Bool
deriving DecidableEq, Repr

def CanvasEntry.standing (e : CanvasEntry) : Standing :=
  ⟨e.manager, e.number, e.handles, e.canvas.closed⟩

namespace Scene

def standing? (s : Scene) (c : CanvasRef) : Option Standing :=
  s.canvases[c]?.map CanvasEntry.standing

theorem isAlive_eq (s : Scene) (c : CanvasRef) :
    s.isAlive c = (s.standing? c).any (0 < ·.handles) := by
  cases h : s.canvases[c]? <;> simp [isAlive, standing?, h, CanvasEntry.standing]

theorem isClosed_eq (s : Scene) (c : CanvasRef) :
    s.isClosed c = (s.standing? c).any (·.closed) := by
  cases h : s.canvases[c]? <;> simp [isClosed, standing?, h, CanvasEntry.standing]

theorem numberOf_eq (s : Scene) (c : CanvasRef) :
    s.numberOf c = ((s.standing? c).map (·.number)).getD 0 := by
  cases h : s.canvases[c]? <;> simp [numberOf, standing?, h, CanvasEntry.standing]

theorem managerOf_eq (s : Scene) (c : CanvasRef) :
    s.managerOf c = ((s.standing? c).map (·.manager)).getD 0 := by
  cases h : s.canvases[c]? <;> simp [managerOf, standing?, h, CanvasEntry.standing]

/-- The registers of the managers and the standing of all canvases are the same. -/
structure SameStanding (s s' : Scene) : Prop where
  env : s'.env = s.env
  managers : s'.managers = s.managers
  standing : ∀ c, s'.standing? c = s.standing? c

namespace SameStanding

variable {s s' s'' : Scene}

@[refl] theorem refl (s : Scene) : SameStanding s s := ⟨rfl, rfl, fun _ => rfl⟩

theorem trans (h : SameStanding s s') (h' : SameStanding s' s'') : SameStanding s s'' :=
  ⟨h'.env.trans h.env, h'.managers.trans h.managers,
    fun c => (h'.standing c).trans (h.standing c)⟩

theorem isAlive (h : SameStanding s s') (c : CanvasRef) : s'.isAlive c = s.isAlive c := by
  rw [isAlive_eq, isAlive_eq, h.standing]

theorem isClosed (h : SameStanding s s') (c : CanvasRef) : s'.isClosed c = s.isClosed c := by
  rw [isClosed_eq, isClosed_eq, h.standing]

theorem numberOf (h : SameStanding s s') (c : CanvasRef) : s'.numberOf c = s.numberOf c := by
  rw [numberOf_eq, numberOf_eq, h.standing]

theorem managerOf (h : SameStanding s s') (c : CanvasRef) : s'.managerOf c = s.managerOf c := by
  rw [managerOf_eq, managerOf_eq, h.standing]

theorem focused (h : SameStanding s s') (m : ManagerRef) : s'.focused m = s.focused m := by
  unfold Scene.focused
  rw [h.managers]

theorem canUpdate (h : SameStanding s s') (c : CanvasRef) :
    s'.canUpdate (s'.managerOf c) c = s.canUpdate (s.managerOf c) c := by
  unfold Scene.canUpdate
  rw [h.managerOf, h.focused, h.numberOf]

end SameStanding

theorem getElem?_modifyEntry (s : Scene) (c c' : CanvasRef) (f : CanvasEntry → CanvasEntry) :
    (s.modifyEntry c f).canvases[c']? =
      if c = c' then s.canvases[c']?.map f else s.canvases[c']? := by
  rw [modifyEntry, Array.getElem?_modify]

theorem sameStanding_modifyCanvas (s : Scene) (c : CanvasRef) (f : Canvas → Canvas)
    (h : ∀ e, s.canvases[c]? = some e → (f e.canvas).closed = e.canvas.closed) :
    SameStanding s (s.modifyCanvas c f) := by
  refine ⟨rfl, rfl, ?_⟩
  intro c'
  unfold standing? modifyCanvas
  rw [getElem?_modifyEntry]
  split
  · rename_i heq
    subst heq
    cases he : s.canvases[c]? with
    | none => rfl
    | some e => simp [CanvasEntry.standing, h e he]
  · rfl

theorem sameStanding_setCanvas {s : Scene} {c : CanvasRef} {e : CanvasEntry} {canvas : Canvas}
    (he : s.canvases[c]? = some e) (h : canvas.closed = e.canvas.closed) :
    SameStanding s (s.setCanvas c canvas) := by
  apply sameStanding_modifyCanvas
  intro e' he'
  rw [he, Option.some.injEq] at he'
  rw [h, he']

theorem sameStanding_note (s : Scene) (notes : List Note) : SameStanding s (s.note notes) :=
  ⟨rfl, rfl, fun _ => rfl⟩

theorem sameStanding_setWidget (s : Scene) (w : Nat) (widget : Widget) :
    SameStanding s (s.setWidget w widget) :=
  ⟨rfl, rfl, fun _ => rfl⟩

theorem sameStanding_preparePrinter (s : Scene) (c : CanvasRef) :
    SameStanding s (s.preparePrinter c) :=
  sameStanding_modifyCanvas s c _ fun _ _ => rfl

theorem sameStanding_repaintUnlessClosed (s : Scene) (c : CanvasRef) :
    SameStanding s (s.repaintUnlessClosed c).2 := by
  rw [repaintUnlessClosed]
  split
  · rfl
  · rename_i e he
    split
    · rfl
    · exact (sameStanding_setCanvas he (by simp)).trans (sameStanding_note _ _)

theorem sameStanding_eraseUnlessClosed (s : Scene) (c : CanvasRef) :
    SameStanding s (s.eraseUnlessClosed c).2 := by
  rw [eraseUnlessClosed]
  split
  · rfl
  · rename_i e he
    exact sameStanding_setCanvas he (by simp)

theorem sameStanding_update (s : Scene) (c : CanvasRef) : SameStanding s (s.update c).2 := by
  rw [update]
  split
  · exact sameStanding_repaintUnlessClosed s c
  · rfl

theorem sameStanding_run (s : Scene) (c : CanvasRef) : SameStanding s (s.run c).2 :=
  (sameStanding_preparePrinter s c).trans (sameStanding_update _ c)

theorem sameStanding_clear (s : Scene) (c : CanvasRef) : SameStanding s (s.clear c).2 := by
  rw [clear]
  split
  · exact sameStanding_eraseUnlessClosed s c
  · rfl

theorem sameStanding_writeSequence (s : Scene) (c : CanvasRef) (sequence : Text) :
    SameStanding s (s.writeSequence c sequence).2 := by
  rw [writeSequence]
  split
  · rfl
  · rename_i e he
    exact sameStanding_setCanvas he (by simp)

theorem sameStanding_eraseAll (s : Scene) (cs : List CanvasRef) :
    SameStanding s (s.eraseAll cs) := by
  induction cs generalizing s with
  | nil => rfl
  | cons c rest ih => exact (sameStanding_eraseUnlessClosed s c).trans (ih _)

end Scene

end Inlay
