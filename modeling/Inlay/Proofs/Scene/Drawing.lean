import Inlay.Proofs.Scene.Face
import Inlay.Proofs.Sink
import Inlay.Proofs.Width
import Inlay.Scene.Ask

namespace Inlay

namespace Canvas

variable {env : Environment} {c c' c'' : Canvas}

def Steady (c : Canvas) : Prop := ∀ v ∈ c.visuals, v.KeepsWidth

/-- A canvas after drawing and writing. -/
structure Redrawn (env : Environment) (c c' : Canvas) : Prop where
  closed : c'.closed = c.closed
  sink : ∃ texts, c'.sink = c.sink.attempts texts
  steady : c.Steady → c'.Steady ∧ (c'.printerIn env).width = (c.printerIn env).width

@[refl] theorem Redrawn.refl (env : Environment) (c : Canvas) : Redrawn env c c :=
  ⟨rfl, ⟨[], rfl⟩, fun steady => ⟨steady, rfl⟩⟩

theorem Redrawn.trans (h : Redrawn env c c') (h' : Redrawn env c' c'') : Redrawn env c c'' := by
  obtain ⟨texts, htexts⟩ := h.sink
  obtain ⟨texts', htexts'⟩ := h'.sink
  refine ⟨h'.closed.trans h.closed, ⟨texts ++ texts', ?_⟩, ?_⟩
  · rw [htexts', htexts, Sink.attempts_append]
  · intro steady
    obtain ⟨steady', hwidth⟩ := h.steady steady
    obtain ⟨steady'', hwidth'⟩ := h'.steady steady'
    exact ⟨steady'', hwidth'.trans hwidth⟩

theorem redrawn_withPrinter (c : Canvas) (env : Environment) :
    Redrawn env c (c.withPrinter env) :=
  ⟨rfl, ⟨[], rfl⟩, fun steady => ⟨steady, rfl⟩⟩

theorem redrawn_write (c : Canvas) (text : Text) : Redrawn env c (c.write text).2 :=
  ⟨rfl, ⟨[text], rfl⟩, fun steady => ⟨steady, rfl⟩⟩

theorem redrawn_writeLog (c : Canvas) (frame : Text) : Redrawn env c (c.writeLog frame).2 := by
  have logged : ∀ logged, Redrawn env c { c with logged := logged } := fun _ =>
    ⟨rfl, ⟨[], rfl⟩, fun steady => ⟨steady, rfl⟩⟩
  rw [writeLog]
  dsimp only
  split
  · exact logged _
  · exact (logged _).trans (redrawn_write _ _)

@[simp] theorem visuals_flush (c : Canvas) (p : Printer) : (c.flush p).2.visuals = c.visuals := by
  unfold flush writeLog
  dsimp only
  split
  · split
    · rfl
    · rfl
  · split
    · rfl
    · rfl

@[simp] theorem printer_flush (c : Canvas) (p : Printer) :
    (c.flush p).2.printer = some p.emptied := by
  unfold flush writeLog
  dsimp only
  split
  · split
    · rfl
    · rfl
  · split
    · rfl
    · rfl

/-- Where the width is known, a frame that is not empty is written as it is. -/
theorem flush_of_filled (c : Canvas) {p : Printer} (known : p.width ≠ 0) (filled : p.frame ≠ []) :
    c.flush p = { c with printer := some p.emptied }.write p.frame := by
  rw [flush, if_neg known, if_neg (by rwa [List.isEmpty_iff])]

theorem printer_repaint (c : Canvas) (env : Environment) (gallery : Gallery) :
    (c.repaint env gallery).canvas.printer =
      some (Frame.paint gallery (c.printerIn env).clear c.visuals).printer.emptied :=
  printer_flush _ _

/-- A flush writes at most once and otherwise only hands the printer over. -/
theorem redrawn_flush {p : Printer} (h : Redrawn env c { c' with printer := some p.emptied }) :
    Redrawn env c (c'.flush p).2 := by
  unfold flush
  dsimp only
  split
  · exact h.trans (redrawn_writeLog _ _)
  · split
    · exact h
    · exact h.trans (redrawn_write _ _)

theorem redrawn_repaint (c : Canvas) (env : Environment) {gallery : Gallery}
    (hg : gallery.KeepsWidth) : Redrawn env c (c.repaint env gallery).canvas := by
  apply redrawn_flush
  refine ⟨rfl, ⟨[], rfl⟩, ?_⟩
  intro steady
  obtain ⟨hwidth, hvisuals⟩ := Frame.width_paint hg (c.printerIn env).clear steady
  rw [Printer.width_clear] at hwidth
  exact ⟨hvisuals, hwidth⟩

theorem redrawn_erase (c : Canvas) (env : Environment) : Redrawn env c c.erase.2 := by
  rw [erase]
  split
  · rfl
  · rename_i p hp
    apply redrawn_flush
    refine ⟨rfl, ⟨[], rfl⟩, ?_⟩
    intro steady
    refine ⟨steady, ?_⟩
    rw [printerIn, printerIn, hp]
    exact p.width_clear

theorem redrawn_eraseUnlessClosed (c : Canvas) (env : Environment) :
    Redrawn env c c.eraseUnlessClosed.2 := by
  rw [eraseUnlessClosed]
  split
  · rfl
  · exact redrawn_erase c env

theorem redrawn_writeSequence (c : Canvas) (env : Environment) (sequence : Text) :
    Redrawn env c (c.writeSequence env sequence).2 := by
  rw [writeSequence]
  split
  · rfl
  · dsimp only
    split
    · exact redrawn_withPrinter c env
    · exact (redrawn_withPrinter c env).trans (redrawn_write _ _)

end Canvas

namespace Scene

def sink? (s : Scene) (c : CanvasRef) : Option Sink := s.canvases[c]?.map (·.canvas.sink)

def width? (s : Scene) (c : CanvasRef) : Option Nat := (s.printer c).map Printer.width

/-- No visual of the canvas sets the width. -/
def Steady (s : Scene) (c : CanvasRef) : Prop :=
  ∀ e, s.canvases[c]? = some e → e.canvas.Steady

/-- What the asking of a prompt does between its first write and its last: one canvas is redrawn,
and the prompt of one widget follows the keys. -/
structure DrawsOn (w : Nat) (c : CanvasRef) (s s' : Scene) : Prop where
  standing : SameStanding s s'
  others : ∀ c', c' ≠ c → s'.canvases[c']? = s.canvases[c']?
  canvas : ∀ e, s.canvases[c]? = some e →
    ∃ e', s'.canvases[c]? = some e' ∧ Canvas.Redrawn s.env e.canvas e'.canvas
  dialog : ∀ d, s.dialog? w = some d → ∃ prompt, s'.dialog? w = some { d with prompt := prompt }

variable {w : Nat} {c : CanvasRef} {s s' s'' : Scene}

namespace DrawsOn

@[refl] theorem refl (w : Nat) (c : CanvasRef) (s : Scene) : DrawsOn w c s s := by
  constructor
  · rfl
  · intro c' _
    rfl
  · intro e he
    exact ⟨e, he, .refl s.env e.canvas⟩
  · intro d hd
    exact ⟨d.prompt, hd⟩

theorem trans (h : DrawsOn w c s s') (h' : DrawsOn w c s' s'') : DrawsOn w c s s'' := by
  constructor
  · exact h.standing.trans h'.standing
  · intro c' hne
    exact (h'.others c' hne).trans (h.others c' hne)
  · intro e he
    obtain ⟨e', he', redrawn⟩ := h.canvas e he
    obtain ⟨e'', he'', redrawn'⟩ := h'.canvas e' he'
    rw [h.standing.env] at redrawn'
    exact ⟨e'', he'', redrawn.trans redrawn'⟩
  · intro d hd
    obtain ⟨prompt, hd'⟩ := h.dialog d hd
    obtain ⟨prompt', hd''⟩ := h'.dialog _ hd'
    exact ⟨prompt', hd''⟩

theorem sink? (h : DrawsOn w c s s') :
    ∃ texts, s'.sink? c = (s.sink? c).map (·.attempts texts) := by
  unfold Scene.sink?
  cases he : s.canvases[c]? with
  | none =>
      have hstanding := h.standing.standing c
      rw [standing?, standing?, he, Option.map_none, Option.map_eq_none_iff] at hstanding
      exact ⟨[], by rw [hstanding]; rfl⟩
  | some e =>
      obtain ⟨e', he', redrawn⟩ := h.canvas e he
      obtain ⟨texts, htexts⟩ := redrawn.sink
      exact ⟨texts, by rw [he']; exact congrArg some htexts⟩

theorem width? (h : DrawsOn w c s s') (steady : s.Steady c) : s'.width? c = s.width? c := by
  unfold Scene.width? printer
  cases he : s.canvases[c]? with
  | none =>
      have hstanding := h.standing.standing c
      rw [standing?, standing?, he, Option.map_none, Option.map_eq_none_iff] at hstanding
      rw [hstanding]
      rfl
  | some e =>
      obtain ⟨e', he', redrawn⟩ := h.canvas e he
      rw [he', h.standing.env]
      exact congrArg some (redrawn.steady (steady e he)).2

end DrawsOn

theorem canvases_modifyCanvas_self {e : CanvasEntry} (he : s.canvases[c]? = some e)
    (f : Canvas → Canvas) :
    (s.modifyCanvas c f).canvases[c]? = some { e with canvas := f e.canvas } := by
  rw [modifyCanvas, getElem?_modifyEntry, if_pos rfl, he]
  rfl

theorem canvases_modifyCanvas_of_ne {c' : CanvasRef} (hne : c' ≠ c) (f : Canvas → Canvas) :
    (s.modifyCanvas c f).canvases[c']? = s.canvases[c']? := by
  rw [modifyCanvas, getElem?_modifyEntry, if_neg hne.symm]

theorem drawsOn_modifyCanvas {f : Canvas → Canvas}
    (h : ∀ e, s.canvases[c]? = some e → Canvas.Redrawn s.env e.canvas (f e.canvas)) :
    DrawsOn w c s (s.modifyCanvas c f) := by
  constructor
  · exact sameStanding_modifyCanvas s c f fun e he => (h e he).closed
  · intro c' hne
    exact canvases_modifyCanvas_of_ne hne f
  · intro e he
    exact ⟨_, canvases_modifyCanvas_self he f, h e he⟩
  · intro d hd
    exact ⟨d.prompt, hd⟩

theorem drawsOn_setCanvas {e : CanvasEntry} {canvas : Canvas} (he : s.canvases[c]? = some e)
    (h : Canvas.Redrawn s.env e.canvas canvas) : DrawsOn w c s (s.setCanvas c canvas) := by
  apply drawsOn_modifyCanvas
  intro e' he'
  rw [he, Option.some.injEq] at he'
  rw [← he']
  exact h

theorem drawsOn_note (notes : List Note) : DrawsOn w c s (s.note notes) := by
  constructor
  · exact sameStanding_note s notes
  · intro c' _
    rfl
  · intro e he
    exact ⟨e, he, .refl s.env e.canvas⟩
  · intro d hd
    exact ⟨d.prompt, hd⟩

theorem drawsOn_repaintUnlessClosed : DrawsOn w c s (s.repaintUnlessClosed c).2 := by
  rw [repaintUnlessClosed]
  split
  · rfl
  · rename_i e he
    split
    · rfl
    · have painted := Canvas.redrawn_repaint e.canvas s.env s.keepsWidth_gallery
      exact (drawsOn_setCanvas he painted).trans (drawsOn_note _)

theorem drawsOn_update : DrawsOn w c s (s.update c).2 := by
  rw [update]
  split
  · exact drawsOn_repaintUnlessClosed
  · rfl

theorem drawsOn_run : DrawsOn w c s (s.run c).2 := by
  have prepared : DrawsOn w c s (s.preparePrinter c) :=
    drawsOn_modifyCanvas fun e _ => e.canvas.redrawn_withPrinter s.env
  exact prepared.trans drawsOn_update

theorem drawsOn_eraseUnlessClosed : DrawsOn w c s (s.eraseUnlessClosed c).2 := by
  rw [eraseUnlessClosed]
  split
  · rfl
  · rename_i e he
    exact drawsOn_setCanvas he (e.canvas.redrawn_eraseUnlessClosed s.env)

theorem drawsOn_clear : DrawsOn w c s (s.clear c).2 := by
  rw [clear]
  split
  · exact drawsOn_eraseUnlessClosed
  · rfl

theorem drawsOn_writeSequence (sequence : Text) :
    DrawsOn w c s (s.writeSequence c sequence).2 := by
  rw [writeSequence]
  split
  · rfl
  · rename_i e he
    exact drawsOn_setCanvas he (e.canvas.redrawn_writeSequence s.env sequence)

@[simp] theorem widgets_repaintUnlessClosed (s : Scene) (c : CanvasRef) :
    (s.repaintUnlessClosed c).2.widgets = s.widgets := by
  unfold repaintUnlessClosed
  split
  · rfl
  split
  · rfl
  · rfl

@[simp] theorem widgets_update (s : Scene) (c : CanvasRef) :
    (s.update c).2.widgets = s.widgets := by
  unfold update
  split
  · exact widgets_repaintUnlessClosed s c
  · rfl

@[simp] theorem widgets_run (s : Scene) (c : CanvasRef) : (s.run c).2.widgets = s.widgets :=
  widgets_update _ c

@[simp] theorem widgets_eraseUnlessClosed (s : Scene) (c : CanvasRef) :
    (s.eraseUnlessClosed c).2.widgets = s.widgets := by
  unfold eraseUnlessClosed
  split
  · rfl
  · rfl

@[simp] theorem widgets_clear (s : Scene) (c : CanvasRef) : (s.clear c).2.widgets = s.widgets := by
  unfold clear
  split
  · exact widgets_eraseUnlessClosed s c
  · rfl

@[simp] theorem widgets_writeSequence (s : Scene) (c : CanvasRef) (sequence : Text) :
    (s.writeSequence c sequence).2.widgets = s.widgets := by
  unfold writeSequence
  split
  · rfl
  · rfl

theorem widget_of_dialog? {d : Dialog} (hd : s.dialog? w = some d) :
    s.widgets[w]? = some (.dialog d) := by
  unfold dialog? at hd
  split at hd
  · rename_i hwidget
    rw [hwidget, Option.some.inj hd]
  · cases hd

theorem dialog?_setWidget {d : Dialog} (hd : s.dialog? w = some d) (d' : Dialog) :
    (s.setWidget w (.dialog d')).dialog? w = some d' := by
  have bound : w < s.widgets.size := by
    apply Nat.lt_of_not_le
    intro hsize
    rw [dialog?, Array.getElem?_eq_none hsize] at hd
    cases hd
  simp [dialog?, setWidget, bound]

theorem dialog?_modifyDialog {d : Dialog} (hd : s.dialog? w = some d) (f : Dialog → Dialog) :
    (s.modifyDialog w f).dialog? w = some (f d) := by
  rw [modifyDialog, hd]
  exact dialog?_setWidget hd (f d)

@[simp] theorem canvases_modifyDialog (s : Scene) (w : Nat) (f : Dialog → Dialog) :
    (s.modifyDialog w f).canvases = s.canvases := by
  rw [modifyDialog]
  split
  · rfl
  · rfl

theorem sameStanding_modifyDialog (s : Scene) (w : Nat) (f : Dialog → Dialog) :
    SameStanding s (s.modifyDialog w f) := by
  rw [modifyDialog]
  split
  · exact sameStanding_setWidget s w _
  · rfl

theorem drawsOn_modifyPrompt (prompt : Prompt) :
    DrawsOn w c s (s.modifyDialog w fun d => { d with prompt := prompt }) := by
  constructor
  · exact sameStanding_modifyDialog s w _
  · intro c' _
    rw [canvases_modifyDialog]
  · intro e he
    exact ⟨e, by rw [canvases_modifyDialog, he], .refl s.env e.canvas⟩
  · intro d hd
    exact ⟨prompt, dialog?_modifyDialog hd _⟩

theorem drawsOn_promptListener (event : Keyboard.KeyEvent) :
    DrawsOn w c s (promptListener w c event s).2 := by
  rw [promptListener]
  split
  · rfl
  · rename_i d hd
    exact (drawsOn_modifyPrompt (d.prompt.press event).2).trans drawsOn_update

end Scene

end Inlay
