import Inlay.Scene

namespace Inlay.Scene

/-- The scene with other widgets. -/
def withWidgets (s : Scene) (widgets : Array Widget) : Scene := { s with widgets := widgets }

variable (s : Scene) (widgets : Array Widget) (c : CanvasRef)

theorem canvases_withWidgets : (s.withWidgets widgets).canvases = s.canvases := rfl

theorem eraseUnlessClosed_withWidgets :
    (s.withWidgets widgets).eraseUnlessClosed c =
      ((s.eraseUnlessClosed c).1, (s.eraseUnlessClosed c).2.withWidgets widgets) := by
  rw [eraseUnlessClosed, eraseUnlessClosed, canvases_withWidgets]
  cases s.canvases[c]? with
  | none => rfl
  | some e => rfl

theorem writeSequence_withWidgets (sequence : Text) :
    (s.withWidgets widgets).writeSequence c sequence =
      ((s.writeSequence c sequence).1, (s.writeSequence c sequence).2.withWidgets widgets) := by
  rw [writeSequence, writeSequence, canvases_withWidgets]
  cases s.canvases[c]? with
  | none => rfl
  | some e => rfl

theorem eraseAll_withWidgets (cs : List CanvasRef) :
    (s.withWidgets widgets).eraseAll cs = (s.eraseAll cs).withWidgets widgets := by
  induction cs generalizing s with
  | nil => rfl
  | cons c rest ih =>
      rw [eraseAll, eraseAll, eraseUnlessClosed_withWidgets]
      exact ih _

theorem focus_withWidgets :
    (s.withWidgets widgets).focus c = ((s.focus c).1, (s.focus c).2.withWidgets widgets) := by
  let granted := s.modifyManager (s.managerOf c) fun manager =>
    { manager with focused := some (s.numberOf c) }
  exact congrArg (Prod.mk _)
    (granted.eraseAll_withWidgets widgets (granted.others (s.managerOf c) c))

theorem clear_withWidgets :
    (s.withWidgets widgets).clear c = ((s.clear c).1, (s.clear c).2.withWidgets widgets) := by
  rw [clear, clear, eraseUnlessClosed_withWidgets]
  change (if s.canUpdate (s.managerOf c) c then _ else _) = _
  split
  · rfl
  · rfl

variable {s widgets} (looks : (s.withWidgets widgets).gallery = s.gallery)
include looks

theorem repaintUnlessClosed_withWidgets :
    (s.withWidgets widgets).repaintUnlessClosed c =
      ((s.repaintUnlessClosed c).1, (s.repaintUnlessClosed c).2.withWidgets widgets) := by
  rw [repaintUnlessClosed, repaintUnlessClosed, looks, canvases_withWidgets]
  cases s.canvases[c]? with
  | none => rfl
  | some e =>
      dsimp only
      split
      · rfl
      · rfl

theorem update_withWidgets :
    (s.withWidgets widgets).update c = ((s.update c).1, (s.update c).2.withWidgets widgets) := by
  rw [update, update, repaintUnlessClosed_withWidgets c looks]
  change (if s.canUpdate (s.managerOf c) c then _ else _) = _
  split
  · rfl
  · rfl

theorem run_withWidgets :
    (s.withWidgets widgets).run c = ((s.run c).1, (s.run c).2.withWidgets widgets) :=
  update_withWidgets (s := s.preparePrinter c) c looks

end Inlay.Scene
