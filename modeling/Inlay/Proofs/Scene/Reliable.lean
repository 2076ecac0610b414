import Inlay.Proofs.Scene.Drawing
import Inlay.Proofs.Screen.Frames
import Inlay.Scene.RunTasks

namespace Inlay

theorem Widget.failure?_painting (widget : Widget) (now : Instant) (style : Style) :
    (widget.painting now style).failure? = none := by
  obtain ⟨places, hpictured⟩ := widget.pictured_any now style
  exact hpictured.failure?_eq

/-- No rendering of a visual fails. Widgets never fail. -/
def Visual.Succeeds : Visual → Prop
  | .drawn painting _ => ∀ renderings, (painting renderings).failure? = none
  | .widget _ => True

def Gallery.Succeeds (gallery : Gallery) : Prop := ∀ w style, (gallery w style).failure? = none

theorem Scene.succeeds_gallery (s : Scene) : Gallery.Succeeds s.gallery := by
  intro w style
  unfold gallery
  split
  · exact Widget.failure?_painting _ _ _
  · rfl

theorem Visual.succeeds_rendered {v : Visual} (h : v.Succeeds) : v.rendered.Succeeds := by
  cases v with
  | drawn painting renderings => exact h
  | widget w => exact h

theorem Visual.failure?_painting {gallery : Gallery} (hg : Gallery.Succeeds gallery) {v : Visual}
    (h : v.Succeeds) (style : Style) : (v.painting gallery style).failure? = none := by
  cases v with
  | drawn painting renderings => exact h renderings
  | widget w => exact hg w style

theorem Frame.succeeds_paint {gallery : Gallery} (hg : Gallery.Succeeds gallery) (p : Printer)
    {visuals : List Visual} (h : ∀ v ∈ visuals, v.Succeeds) :
    (Frame.paint gallery p visuals).failure = none ∧
      ∀ v ∈ (Frame.paint gallery p visuals).visuals, v.Succeeds := by
  induction visuals generalizing p with
  | nil => exact ⟨rfl, h⟩
  | cons v rest ih =>
      rw [List.forall_mem_cons] at h
      obtain ⟨hv, hrest⟩ := h
      have painted : (p.paint (v.painting gallery p.style)).failure = none := by
        rw [Printer.paint, Easel.failure_paint rfl, Visual.failure?_painting hg hv]
      obtain ⟨hfailure, hvisuals⟩ := ih (p.paint (v.painting gallery p.style)).printer hrest
      unfold Frame.paint
      dsimp only
      rw [painted]
      refine ⟨hfailure, ?_⟩
      rw [List.forall_mem_cons]
      exact ⟨Visual.succeeds_rendered hv, hvisuals⟩

namespace Canvas

structure Reliable (c : Canvas) : Prop where
  willing : c.sink.behavior.Willing
  visuals : ∀ v ∈ c.visuals, v.Succeeds

variable {c : Canvas}

theorem reliable_write (h : c.Reliable) (text : Text) :
    (c.write text).1 = .ok () ∧ (c.write text).2.Reliable := by
  refine ⟨(Sink.write_of_willing h.willing text).1, ?_, h.visuals⟩
  change (c.sink.write text).2.behavior.Willing
  rw [Sink.behavior_write]
  exact h.willing

theorem reliable_flush (h : c.Reliable) (p : Printer) :
    (c.flush p).1 = .ok () ∧ (c.flush p).2.Reliable := by
  have handed : ∀ logged, Reliable { c with printer := some p.emptied, logged := logged } :=
    fun _ => ⟨h.willing, h.visuals⟩
  unfold flush
  dsimp only
  split
  · unfold writeLog
    dsimp only
    split
    · exact ⟨rfl, handed _⟩
    · exact reliable_write (handed _) _
  split
  · exact ⟨rfl, handed c.logged⟩
  · exact reliable_write (handed c.logged) _

theorem reliable_repaint (h : c.Reliable) (env : Environment) {gallery : Gallery}
    (hg : gallery.Succeeds) :
    (c.repaint env gallery).result = .ok () ∧ (c.repaint env gallery).canvas.Reliable := by
  obtain ⟨hfailure, hvisuals⟩ := Frame.succeeds_paint hg (c.printerIn env).clear h.visuals
  obtain ⟨hflushed, hreliable⟩ := reliable_flush
    (c := { c with visuals := (Frame.paint gallery (c.printerIn env).clear c.visuals).visuals })
    ⟨h.willing, hvisuals⟩ (Frame.paint gallery (c.printerIn env).clear c.visuals).printer
  unfold repaint
  dsimp only
  rw [hfailure, hflushed]
  exact ⟨rfl, hreliable⟩

theorem reliable_eraseUnlessClosed (h : c.Reliable) :
    c.eraseUnlessClosed.1 = .ok () ∧ c.eraseUnlessClosed.2.Reliable := by
  unfold eraseUnlessClosed
  split
  · exact ⟨rfl, h⟩
  unfold erase
  split
  · exact ⟨rfl, h⟩
  · exact reliable_flush h _

theorem reliable_writeSequence (h : c.Reliable) (env : Environment) (sequence : Text) :
    (c.writeSequence env sequence).1 = .ok () ∧ (c.writeSequence env sequence).2.Reliable := by
  have prepared : (c.withPrinter env).Reliable := ⟨h.willing, h.visuals⟩
  unfold writeSequence
  split
  · exact ⟨rfl, h⟩
  dsimp only
  split
  · exact ⟨rfl, prepared⟩
  · exact reliable_write prepared sequence

end Canvas

namespace Scene

/-- A canvas is drawn without failure, if it is there. -/
def Reliable (s : Scene) (c : CanvasRef) : Prop :=
  ∀ e, s.canvases[c]? = some e → e.canvas.Reliable

variable {s s' : Scene} {c : CanvasRef}

theorem Reliable.of_canvases (h : s.Reliable c) (heq : s'.canvases[c]? = s.canvases[c]?) :
    s'.Reliable c := by
  intro e he
  rw [heq] at he
  exact h e he

theorem reliable_setCanvas {e : CanvasEntry} {canvas : Canvas} (he : s.canvases[c]? = some e)
    (h : canvas.Reliable) : (s.setCanvas c canvas).Reliable c := by
  intro e' he'
  rw [setCanvas, canvases_modifyCanvas_self he, Option.some.injEq] at he'
  rw [← he']
  exact h

theorem reliable_repaintUnlessClosed (h : s.Reliable c) :
    (s.repaintUnlessClosed c).1 = .ok () ∧ (s.repaintUnlessClosed c).2.Reliable c := by
  unfold repaintUnlessClosed
  split
  · exact ⟨rfl, h⟩
  rename_i e he
  split
  · exact ⟨rfl, h⟩
  obtain ⟨hresult, hreliable⟩ := Canvas.reliable_repaint (h e he) s.env s.succeeds_gallery
  exact ⟨hresult, reliable_setCanvas he hreliable⟩

theorem reliable_update_self (h : s.Reliable c) :
    (s.update c).1 = .ok () ∧ (s.update c).2.Reliable c := by
  unfold update
  split
  · exact reliable_repaintUnlessClosed h
  · exact ⟨rfl, h⟩

theorem reliable_update (h : s.Reliable c) (c' : CanvasRef) : (s.update c').2.Reliable c := by
  rcases eq_or_ne c c' with rfl | hne
  · exact (reliable_update_self h).2
  · exact h.of_canvases ((drawsOn_update (w := 0)).others c hne)

theorem reliable_run (h : s.Reliable c) : (s.run c).1 = .ok () ∧ (s.run c).2.Reliable c := by
  refine reliable_update_self fun e he => ?_
  unfold preparePrinter modifyCanvas at he
  rw [getElem?_modifyEntry, if_pos rfl] at he
  obtain ⟨e', he', rfl⟩ := Option.map_eq_some_iff.mp he
  exact ⟨(h e' he').willing, (h e' he').visuals⟩

theorem reliable_eraseUnlessClosed (h : s.Reliable c) :
    (s.eraseUnlessClosed c).1 = .ok () ∧ (s.eraseUnlessClosed c).2.Reliable c := by
  unfold eraseUnlessClosed
  split
  · exact ⟨rfl, h⟩
  · rename_i e he
    obtain ⟨hresult, hreliable⟩ := Canvas.reliable_eraseUnlessClosed (h e he)
    exact ⟨hresult, reliable_setCanvas he hreliable⟩

theorem reliable_clear (h : s.Reliable c) :
    (s.clear c).1 = .ok () ∧ (s.clear c).2.Reliable c := by
  unfold clear
  split
  · obtain ⟨hresult, hreliable⟩ := reliable_eraseUnlessClosed h
    exact ⟨congrArg asOutput hresult, hreliable⟩
  · exact ⟨rfl, h⟩

theorem reliable_hideCursor (h : s.Reliable c) :
    (s.hideCursor c).1 = .ok () ∧ (s.hideCursor c).2.Reliable c := by
  unfold hideCursor writeSequence
  split
  · exact ⟨rfl, h⟩
  · rename_i e he
    obtain ⟨hresult, hreliable⟩ :=
      Canvas.reliable_writeSequence (h e he) s.env Cursor.hideSequence
    exact ⟨congrArg asOutput hresult, reliable_setCanvas he hreliable⟩

theorem reliable_close (h : s.Reliable c) : (s.close c).Reliable c := by
  intro e he
  unfold close modifyCanvas at he
  rw [getElem?_modifyEntry, if_pos rfl] at he
  obtain ⟨e', he', rfl⟩ := Option.map_eq_some_iff.mp he
  exact ⟨(h e' he').willing, (h e' he').visuals⟩

end Scene

end Inlay
