import Inlay.Proofs.Screen.Fidelity
import Inlay.Proofs.Screen.Texts

namespace Inlay

open Text

/-- The sink refused a part of what was drawn, or its flush. -/
def Unwritten (result : Except Failure Unit) : Prop := ∃ fault, result = .error (.output fault)

namespace Canvas

variable {c : Canvas} {env : Environment} {gallery : Gallery}

/-- How a drawing call ends that the manager allows on an open canvas. -/
def drawnResult (c : Canvas) (env : Environment) (gallery : Gallery) :
    DrawCall → Except Failure Unit
  | .run | .update => (c.repaint env gallery).result
  | .clear => Scene.asOutput c.erase.1

theorem written_asOutput_iff {result : Except Fault Unit} :
    ¬ Unwritten (Scene.asOutput result) ↔ result = .ok () := by
  cases result with
  | ok value => exact ⟨fun _ => rfl, fun _ ⟨_, hresult⟩ => by cases hresult⟩
  | error fault => exact ⟨fun written => absurd ⟨fault, rfl⟩ written, fun hok => by cases hok⟩

/-- The flush of a repaint with the printer that it hands over. -/
theorem repaint_eq (c : Canvas) (env : Environment) (gallery : Gallery) :
    let painted := Frame.paint gallery (c.printerIn env).clear c.visuals
    let flushed := { c with visuals := painted.visuals }.flush painted.printer
    (c.repaint env gallery).canvas = flushed.2 ∧
      (¬ Unwritten (c.repaint env gallery).result ↔ flushed.1 = .ok ()) := by
  intro painted flushed
  refine ⟨rfl, ?_, ?_⟩
  · intro written
    cases hflushed : flushed.1 with
    | ok value => rfl
    | error fault =>
        refine absurd ⟨fault, ?_⟩ written
        unfold repaint
        dsimp only
        rw [hflushed]
  · rintro hok ⟨fault, hresult⟩
    unfold repaint at hresult
    dsimp only at hresult
    rw [hok] at hresult
    split at hresult
    · rename_i heq
      cases heq
    · cases hresult
    · cases hresult

/-- On a terminal of known width the frame of a printer is written as it is. -/
theorem takes_flush (c : Canvas) {p : Printer} (hw : p.width ≠ 0) :
    c.sink.Takes (Utf8.encode p.frame) ((c.flush p).1, (c.flush p).2.sink) := by
  rw [flush, if_neg hw]
  split
  · rename_i hempty
    rw [List.isEmpty_iff.mp hempty]
    exact c.sink.takes_nothing
  · exact Sink.takes_write c.sink p.frame

/-- Where the width is unknown, the rows that are new to the log are written. -/
theorem takes_flush_of_unknown (c : Canvas) {p : Printer} (hw : p.width = 0) :
    c.sink.Takes (Utf8.encode (newRows c.logged 0 (allLines p.frame)).1)
      ((c.flush p).1, (c.flush p).2.sink) := by
  rw [flush, if_pos hw, writeLog]
  dsimp only
  split
  · rename_i hempty
    rw [List.isEmpty_iff.mp hempty]
    exact c.sink.takes_nothing
  · exact Sink.takes_write c.sink _

theorem logged_flush (c : Canvas) (p : Printer) :
    (c.flush p).2.logged =
      if p.width = 0 then (newRows c.logged 0 (allLines p.frame)).2 else c.logged := by
  unfold flush writeLog
  dsimp only
  split
  · split
    · rfl
    · rfl
  · split
    · rfl
    · rfl

theorem ok_flush_of_willing (willing : c.sink.behavior.Willing) (p : Printer) :
    (c.flush p).1 = .ok () := by
  unfold flush writeLog
  dsimp only
  split
  · split
    · rfl
    · exact (Sink.write_of_willing willing _).1
  · split
    · rfl
    · exact (Sink.write_of_willing willing _).1

theorem written_repaint_of_willing (willing : c.sink.behavior.Willing) (env : Environment)
    (gallery : Gallery) : ¬ Unwritten (c.repaint env gallery).result := by
  obtain ⟨-, hwritten⟩ := c.repaint_eq env gallery
  apply hwritten.mpr
  exact ok_flush_of_willing (c := { c with visuals := (Frame.paint ..).visuals }) willing _

end Canvas

namespace Scene

variable {s : Scene} {c : CanvasRef} {e : CanvasEntry}

/-- All bytes that the sink of a canvas has got. -/
def received (s : Scene) (c : CanvasRef) : List UInt8 :=
  ((s.sink? c).map Sink.received).getD []

theorem received_of_getElem? (he : s.canvases[c]? = some e) :
    s.received c = e.canvas.sink.received := by
  rw [received, sink?, he]
  rfl

/-- Whether a canvas is drawn when it is asked to be. -/
def draws (s : Scene) (c : CanvasRef) : Bool := s.canUpdate (s.managerOf c) c && !s.isClosed c

theorem draws_iff (he : s.canvases[c]? = some e) :
    s.draws c = true ↔ s.canUpdate (s.managerOf c) c = true ∧ e.canvas.closed = false := by
  rw [draws, isClosed_of_getElem? he, Bool.and_eq_true, Bool.not_eq_true']

theorem result_repaintUnlessClosed (he : s.canvases[c]? = some e)
    (hopen : e.canvas.closed = false) :
    (s.repaintUnlessClosed c).1 = (e.canvas.repaint s.env s.gallery).result := by
  rw [repaintUnlessClosed, he]
  dsimp only
  rw [hopen, if_neg Bool.false_ne_true]

theorem result_draw (he : s.canvases[c]? = some e) (h : s.draws c = true) (call : DrawCall) :
    (s.draw c call).1 = e.canvas.drawnResult s.env s.gallery call := by
  obtain ⟨allowed, hopen⟩ := (draws_iff he).mp h
  cases call with
  | update =>
      rw [Scene.draw, update, if_pos allowed]
      exact result_repaintUnlessClosed he hopen
  | run =>
      have hallowed := ((sameStanding_preparePrinter s c).canUpdate c).trans allowed
      have he' := canvases_modifyCanvas_self he (·.withPrinter s.env)
      rw [Scene.draw, run, update, if_pos hallowed]
      exact result_repaintUnlessClosed (e := { e with canvas := e.canvas.withPrinter s.env }) he'
        hopen
  | clear =>
      rw [Scene.draw, clear, if_pos allowed, eraseUnlessClosed, he]
      dsimp only
      rw [Canvas.eraseUnlessClosed, hopen]
      rfl

theorem canvases_draw_of_draws (he : s.canvases[c]? = some e) (h : s.draws c = true)
    (call : DrawCall) :
    (s.draw c call).2.canvases[c]? =
      some { e with canvas := e.canvas.drawn s.env s.gallery call } := by
  obtain ⟨allowed, hopen⟩ := (draws_iff he).mp h
  exact canvases_draw he hopen allowed call

theorem closed_of_not_draws (he : s.canvases[c]? = some e) (h : s.draws c = false)
    (allowed : s.canUpdate (s.managerOf c) c = true) : e.canvas.closed = true := by
  rwa [draws, allowed, Bool.true_and, Bool.not_eq_false', isClosed_of_getElem? he] at h

theorem canvases_update_of_not_draws (he : s.canvases[c]? = some e) (h : s.draws c = false) :
    (s.update c).1 = .ok () ∧ (s.update c).2.canvases[c]? = some e := by
  unfold update
  split
  · rename_i allowed
    rw [repaintUnlessClosed, he]
    dsimp only
    rw [if_pos (closed_of_not_draws he h allowed)]
    exact ⟨rfl, he⟩
  · exact ⟨rfl, he⟩

/-- A call that is not allowed, or comes when the canvas is closed, at most makes the printer. -/
theorem draw_of_not_draws (he : s.canvases[c]? = some e) (h : s.draws c = false)
    (call : DrawCall) :
    (s.draw c call).1 = .ok () ∧
      ((s.draw c call).2.canvases[c]? = some e ∨
        (s.draw c call).2.canvases[c]? = some { e with canvas := e.canvas.withPrinter s.env }) := by
  cases call with
  | update =>
      obtain ⟨hresult, hcanvas⟩ := canvases_update_of_not_draws he h
      exact ⟨hresult, Or.inl hcanvas⟩
  | run =>
      have he' := canvases_modifyCanvas_self he (·.withPrinter s.env)
      change (s.preparePrinter c).canvases[c]? = _ at he'
      have hsame := sameStanding_preparePrinter s c
      have h' : (s.preparePrinter c).draws c = false := by
        rw [draws, hsame.canUpdate, hsame.isClosed]
        exact h
      obtain ⟨hresult, hcanvas⟩ := canvases_update_of_not_draws he' h'
      exact ⟨hresult, Or.inr hcanvas⟩
  | clear =>
      rw [Scene.draw, clear]
      split
      · rename_i allowed
        rw [eraseUnlessClosed, he]
        dsimp only
        rw [Canvas.eraseUnlessClosed, if_pos (closed_of_not_draws he h allowed)]
        exact ⟨rfl, Or.inl (canvases_modifyCanvas_self he _)⟩
      · exact ⟨rfl, Or.inl he⟩

end Scene

end Inlay
