import Inlay.Proofs.Scene.Asking
import Inlay.Proofs.Scene.Calls
/-!
Scenes that differ in nothing but the sinks of their canvases. What is done to both leaves them
so, since a canvas counts a frame as drawn whatever becomes of it in the sink, and it has the same
result unless a sink refuses a part of it.
-/

namespace Inlay

open Text

namespace Canvas

/-- Canvases that differ in nothing but their sinks. -/
def Rewired (c c' : Canvas) : Prop := ∃ sink, c' = { c with sink := sink }

namespace Rewired

variable {c c' : Canvas}

theorem refl (c : Canvas) : c.Rewired c := ⟨c.sink, rfl⟩

variable (h : c.Rewired c')
include h

theorem closed : c'.closed = c.closed := by
  obtain ⟨_, rfl⟩ := h
  rfl

theorem printerIn (env : Environment) : c'.printerIn env = c.printerIn env := by
  obtain ⟨_, rfl⟩ := h
  rfl

theorem withPrinter (env : Environment) : (c.withPrinter env).Rewired (c'.withPrinter env) := by
  obtain ⟨_, rfl⟩ := h
  exact ⟨_, rfl⟩

theorem close : c.close.Rewired c'.close := by
  obtain ⟨_, rfl⟩ := h
  exact ⟨_, rfl⟩

theorem write (text : Text) : (c.write text).2.Rewired (c'.write text).2 := by
  obtain ⟨_, rfl⟩ := h
  exact ⟨_, rfl⟩

/-- The rows that are logged and the printer that is left do not depend on what the sink takes. -/
theorem flush (p : Printer) : (c.flush p).2.Rewired (c'.flush p).2 := by
  obtain ⟨_, rfl⟩ := h
  unfold Canvas.flush writeLog
  dsimp only
  split
  · split
    · exact ⟨_, rfl⟩
    · exact ⟨_, rfl⟩
  · split
    · exact ⟨_, rfl⟩
    · exact ⟨_, rfl⟩

theorem repaint (env : Environment) (gallery : Gallery) :
    (c.repaint env gallery).canvas.Rewired (c'.repaint env gallery).canvas ∧
      (c'.repaint env gallery).measurements = (c.repaint env gallery).measurements ∧
      (¬ Unwritten (c.repaint env gallery).result → ¬ Unwritten (c'.repaint env gallery).result →
        (c'.repaint env gallery).result = (c.repaint env gallery).result) := by
  obtain ⟨sink, rfl⟩ := h
  let visuals := (Frame.paint gallery (c.printerIn env).clear c.visuals).visuals
  have painted :
      Rewired { c with visuals := visuals } { c with visuals := visuals, sink := sink } :=
    ⟨sink, rfl⟩
  refine ⟨painted.flush _, rfl, fun written written' => ?_⟩
  have taken := (c.repaint_eq env gallery).2.mp written
  have taken' := ({ c with sink := sink }.repaint_eq env gallery).2.mp written'
  unfold Canvas.repaint
  dsimp only at taken taken' ⊢
  rw [taken, taken']
  rfl

theorem eraseUnlessClosed : c.eraseUnlessClosed.2.Rewired c'.eraseUnlessClosed.2 := by
  obtain ⟨sink, rfl⟩ := h
  unfold Canvas.eraseUnlessClosed Canvas.erase
  dsimp only
  split
  · exact ⟨sink, rfl⟩
  · split
    · exact ⟨sink, rfl⟩
    · exact flush ⟨sink, rfl⟩ _

theorem writeSequence (env : Environment) (sequence : Text) :
    (c.writeSequence env sequence).2.Rewired (c'.writeSequence env sequence).2 := by
  obtain ⟨sink, rfl⟩ := h
  have prepared : (c.withPrinter env).Rewired ({ c with sink := sink }.withPrinter env) :=
    withPrinter ⟨sink, rfl⟩ env
  unfold Canvas.writeSequence
  dsimp only
  rw [prepared.printerIn]
  split
  · exact ⟨sink, rfl⟩
  · split
    · exact prepared
    · exact prepared.write sequence

end Rewired

end Canvas

namespace Scene

/-- The scene with other canvases. -/
def withCanvases (s : Scene) (canvases : Array CanvasEntry) : Scene :=
  { s with canvases := canvases }

/-- Scenes that differ in nothing but the sinks of their canvases. -/
def Rewired (s s' : Scene) : Prop :=
  ∃ canvases, s' = s.withCanvases canvases ∧ ∀ c : CanvasRef, ∃ sink,
    canvases[c]? = s.canvases[c]?.map fun e => { e with canvas := { e.canvas with sink := sink } }

namespace Rewired

variable {s s' s'' t t' : Scene}

theorem refl (s : Scene) : s.Rewired s := by
  refine ⟨s.canvases, rfl, fun c => ?_⟩
  cases s.canvases[c]? with
  | none => exact ⟨{}, rfl⟩
  | some e => exact ⟨e.canvas.sink, rfl⟩

theorem trans (h : s.Rewired s') (h' : s'.Rewired s'') : s.Rewired s'' := by
  obtain ⟨canvases, rfl, hsinks⟩ := h
  obtain ⟨canvases', rfl, hsinks'⟩ := h'
  refine ⟨canvases', rfl, fun c => ?_⟩
  obtain ⟨_, hc⟩ := hsinks c
  obtain ⟨sink, hc'⟩ := hsinks' c
  refine ⟨sink, hc'.trans ?_⟩
  rw [show (s.withCanvases canvases).canvases[c]? = _ from hc, Option.map_map]
  rfl

variable (h : s.Rewired s')
include h

theorem sameStanding : SameStanding s s' := by
  obtain ⟨canvases, rfl, hsinks⟩ := h
  refine ⟨rfl, rfl, fun c => ?_⟩
  obtain ⟨_, hc⟩ := hsinks c
  rw [standing?, show (s.withCanvases canvases).canvases[c]? = _ from hc, Option.map_map, standing?]
  rfl

theorem watch : s'.watch = s.watch := by
  obtain ⟨_, rfl, -⟩ := h
  rfl

theorem widgets : s'.widgets = s.widgets := by
  obtain ⟨_, rfl, -⟩ := h
  rfl

theorem gallery : s'.gallery = s.gallery := by
  obtain ⟨_, rfl, -⟩ := h
  rfl

theorem dialog? (w : Nat) : s'.dialog? w = s.dialog? w := dialog?_of_widgets h.widgets w

theorem size : s'.canvases.size = s.canvases.size := by
  obtain ⟨canvases, rfl, hsinks⟩ := h
  refine Nat.le_antisymm ?_ ?_
  · obtain ⟨_, hc⟩ := hsinks s.canvases.size
    rw [Array.getElem?_eq_none (Nat.le_refl _)] at hc
    exact Array.getElem?_eq_none_iff.mp hc
  · obtain ⟨_, hc⟩ := hsinks canvases.size
    rw [Array.getElem?_eq_none (Nat.le_refl _)] at hc
    exact Array.getElem?_eq_none_iff.mp (Option.map_eq_none_iff.mp hc.symm)

theorem getElem?_none {c : CanvasRef} (he : s.canvases[c]? = none) : s'.canvases[c]? = none := by
  obtain ⟨canvases, rfl, hsinks⟩ := h
  obtain ⟨_, hc⟩ := hsinks c
  rw [he] at hc
  exact hc

theorem getElem?_some {c : CanvasRef} {e : CanvasEntry} (he : s.canvases[c]? = some e) :
    ∃ canvas, e.canvas.Rewired canvas ∧ s'.canvases[c]? = some { e with canvas := canvas } := by
  obtain ⟨canvases, rfl, hsinks⟩ := h
  obtain ⟨sink, hc⟩ := hsinks c
  rw [he] at hc
  exact ⟨_, ⟨sink, rfl⟩, hc⟩

/-- A change besides the canvases. -/
theorem aside (same : t.canvases = s.canvases) (same' : t' = t.withCanvases s'.canvases) :
    t.Rewired t' := by
  obtain ⟨canvases, rfl, hsinks⟩ := h
  exact ⟨canvases, same', fun c => same ▸ hsinks c⟩

/-- A change of one canvas that does not look at the sink. -/
theorem modifyCanvas (c : CanvasRef) {f f' : Canvas → Canvas}
    (changes : ∀ {canvas canvas' : Canvas}, canvas.Rewired canvas' →
      (f canvas).Rewired (f' canvas')) :
    (s.modifyCanvas c f).Rewired (s'.modifyCanvas c f') := by
  obtain ⟨canvases, rfl, hsinks⟩ := h
  refine ⟨_, rfl, fun c' => ?_⟩
  obtain ⟨sink, hc⟩ := hsinks c'
  have before' : ((s.withCanvases canvases).modifyCanvas c f').canvases[c']? =
      if c = c' then canvases[c']?.map fun e => { e with canvas := f' e.canvas }
      else canvases[c']? := getElem?_modifyEntry (s.withCanvases canvases) c c' _
  have before : (s.modifyCanvas c f).canvases[c']? = _ := getElem?_modifyEntry s c c' _
  change ∃ sink, ((s.withCanvases canvases).modifyCanvas c f').canvases[c']? = _
  rw [before', before, hc]
  split
  · cases s.canvases[c']? with
    | none => exact ⟨sink, rfl⟩
    | some e =>
        have rewired : e.canvas.Rewired { e.canvas with sink := sink } := ⟨sink, rfl⟩
        obtain ⟨sink', hf⟩ := changes rewired
        refine ⟨sink', ?_⟩
        rw [Option.map_some, Option.map_some, Option.map_some, Option.map_some, hf]
  · exact ⟨sink, rfl⟩

theorem setCanvas (c : CanvasRef) {canvas canvas' : Canvas} (rewired : canvas.Rewired canvas') :
    (s.setCanvas c canvas).Rewired (s'.setCanvas c canvas') :=
  h.modifyCanvas c fun _ => rewired

theorem note (notes : List Note) : (s.note notes).Rewired (s'.note notes) :=
  h.aside rfl (by obtain ⟨_, rfl, -⟩ := h; rfl)

theorem wait (watch : Watch) :
    ({ s with watch := watch } : Scene).Rewired { s' with watch := watch } :=
  h.aside rfl (by obtain ⟨_, rfl, -⟩ := h; rfl)

theorem modifyManager (m : ManagerRef) (f : Manager → Manager) :
    (s.modifyManager m f).Rewired (s'.modifyManager m f) :=
  h.aside rfl (by obtain ⟨_, rfl, -⟩ := h; rfl)

theorem release (guard : FocusGuard) : (s.release guard).Rewired (s'.release guard) :=
  h.modifyManager guard.manager _

theorem setWidget (w : Nat) (widget : Widget) :
    (s.setWidget w widget).Rewired (s'.setWidget w widget) :=
  h.aside rfl (by obtain ⟨_, rfl, -⟩ := h; rfl)

theorem modifyDialog (w : Nat) (f : Dialog → Dialog) :
    (s.modifyDialog w f).Rewired (s'.modifyDialog w f) := by
  rw [Scene.modifyDialog, Scene.modifyDialog, h.dialog? w]
  split
  · exact h.setWidget w _
  · exact h

theorem deregister (m : ManagerRef) (c : CanvasRef) :
    (s.deregister m c).Rewired (s'.deregister m c) := by
  have same := h.sameStanding
  unfold Scene.deregister
  rw [funext same.numberOf, funext same.isAlive]
  exact h.modifyManager m _

theorem register (m : ManagerRef) (c : CanvasRef) :
    (s.register m c).Rewired (s'.register m c) := by
  have same := h.sameStanding
  unfold Scene.register
  rw [funext same.numberOf, funext same.isAlive]
  exact h.modifyManager m _

theorem close (c : CanvasRef) : (s.close c).Rewired (s'.close c) := by
  rw [Scene.close, Scene.close, h.sameStanding.managerOf c]
  exact (h.deregister _ c).modifyCanvas c Canvas.Rewired.close

theorem newCanvas (m : ManagerRef) {canvas canvas' : Canvas} (rewired : canvas.Rewired canvas') :
    (s'.newCanvas m canvas').1 = (s.newCanvas m canvas).1 ∧
      (s.newCanvas m canvas).2.Rewired (s'.newCanvas m canvas').2 := by
  have hsize := h.size
  obtain ⟨sink', rfl⟩ := rewired
  obtain ⟨canvases, rfl, hsinks⟩ := h
  change canvases.size = s.canvases.size at hsize
  refine ⟨hsize, ?_⟩
  unfold Scene.newCanvas
  dsimp only
  rw [show (s.withCanvases canvases).canvases.size = s.canvases.size from hsize]
  refine register (modifyManager ⟨_, rfl, fun c => ?_⟩ m _) m _
  obtain ⟨sink, hc⟩ := hsinks c
  dsimp only [withCanvases]
  rw [Array.getElem?_push, Array.getElem?_push, hsize]
  split
  · exact ⟨sink', rfl⟩
  · exact ⟨sink, hc⟩

theorem repaintUnlessClosed (c : CanvasRef) :
    (s.repaintUnlessClosed c).2.Rewired (s'.repaintUnlessClosed c).2 ∧
      (¬ Unwritten (s.repaintUnlessClosed c).1 → ¬ Unwritten (s'.repaintUnlessClosed c).1 →
        (s'.repaintUnlessClosed c).1 = (s.repaintUnlessClosed c).1) := by
  rw [Scene.repaintUnlessClosed, Scene.repaintUnlessClosed]
  cases he : s.canvases[c]? with
  | none =>
      rw [h.getElem?_none he]
      exact ⟨h, fun _ _ => rfl⟩
  | some e =>
      obtain ⟨canvas, rewired, he'⟩ := h.getElem?_some he
      rw [he']
      dsimp only
      rw [rewired.closed]
      split
      · exact ⟨h, fun _ _ => rfl⟩
      · obtain ⟨painted, measured, same⟩ := rewired.repaint s.env s.gallery
        rw [h.sameStanding.env, h.gallery, measured]
        exact ⟨(h.setCanvas c painted).note _, same⟩

theorem update (c : CanvasRef) : (s.update c).2.Rewired (s'.update c).2 ∧
    (¬ Unwritten (s.update c).1 → ¬ Unwritten (s'.update c).1 →
      (s'.update c).1 = (s.update c).1) := by
  rw [Scene.update, Scene.update, h.sameStanding.canUpdate c]
  split
  · exact h.repaintUnlessClosed c
  · exact ⟨h, fun _ _ => rfl⟩

theorem run (c : CanvasRef) : (s.run c).2.Rewired (s'.run c).2 ∧
    (¬ Unwritten (s.run c).1 → ¬ Unwritten (s'.run c).1 → (s'.run c).1 = (s.run c).1) := by
  have prepared : (s.preparePrinter c).Rewired (s'.preparePrinter c) := by
    unfold preparePrinter
    rw [h.sameStanding.env]
    exact h.modifyCanvas c fun rewired => rewired.withPrinter s.env
  exact prepared.update c

theorem eraseUnlessClosed (c : CanvasRef) :
    (s.eraseUnlessClosed c).2.Rewired (s'.eraseUnlessClosed c).2 := by
  rw [Scene.eraseUnlessClosed, Scene.eraseUnlessClosed]
  cases he : s.canvases[c]? with
  | none =>
      rw [h.getElem?_none he]
      exact h
  | some e =>
      obtain ⟨canvas, rewired, he'⟩ := h.getElem?_some he
      rw [he']
      exact h.setCanvas c rewired.eraseUnlessClosed

theorem writeSequence (c : CanvasRef) (sequence : Text) :
    (s.writeSequence c sequence).2.Rewired (s'.writeSequence c sequence).2 := by
  rw [Scene.writeSequence, Scene.writeSequence]
  cases he : s.canvases[c]? with
  | none =>
      rw [h.getElem?_none he]
      exact h
  | some e =>
      obtain ⟨canvas, rewired, he'⟩ := h.getElem?_some he
      rw [he', h.sameStanding.env]
      exact h.setCanvas c (rewired.writeSequence s.env sequence)

theorem eraseAll (cs : List CanvasRef) : (s.eraseAll cs).Rewired (s'.eraseAll cs) := by
  induction cs generalizing s s' with
  | nil => exact h
  | cons c rest ih => exact ih (h.eraseUnlessClosed c)

theorem others (m : ManagerRef) (c : CanvasRef) : s'.others m c = s.others m c := by
  have same := h.sameStanding
  unfold Scene.others
  rw [same.managers, funext same.numberOf, funext same.isAlive]

theorem focus (c : CanvasRef) :
    (s'.focus c).1 = (s.focus c).1 ∧ (s.focus c).2.Rewired (s'.focus c).2 := by
  have same := h.sameStanding
  unfold Scene.focus
  rw [same.managerOf, same.numberOf]
  have granted := h.modifyManager (s.managerOf c) fun manager =>
    { manager with focused := some (s.numberOf c) }
  refine ⟨rfl, ?_⟩
  dsimp only
  rw [granted.others]
  exact granted.eraseAll _

end Rewired

end Scene

end Inlay
