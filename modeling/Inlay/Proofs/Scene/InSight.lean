import Inlay.Proofs.Prompts.LastFrame
import Inlay.Proofs.Scene.Idle
import Inlay.Proofs.Tasks.Runs

namespace Inlay

open Text

/-- No widget is without any text. -/
theorem Widget.text_ne_nil (widget : Widget) (now : Instant) (style : Style) :
    (widget.painting now style).text style ≠ [] := by
  cases widget with
  | dialog d => exact d.prompt.text_ne_nil style
  | spinner s =>
      intro hempty
      have hblank : ' ' ∈ Painting.text style (s.painting style) := by
        simp [Spinner.painting, Painting.text, Stroke.failure?, Stroke.text]
      rw [show Painting.text style (s.painting style) = [] from hempty] at hblank
      cases hblank
  | tasks l =>
      have hfirst : Painting.text style (l.painting now style) =
          Stroke.text style (.printLine []) ++ Painting.text style
            ((l.ordered.map fun r => .printLine (r.row l.labels style now)) ++ [.printLine []]) :=
        Painting.text_cons rfl style _
      intro hempty
      rw [show Painting.text style (l.painting now style) = [] from hempty] at hfirst
      cases hfirst

theorem Frame.visuals_paint_widget (gallery : Gallery) (p : Printer) (w : Nat) :
    (Frame.paint gallery p [.widget w]).visuals = [.widget w] := by
  unfold paint
  dsimp only
  split
  · rfl
  · rfl

/-- The frames before stay when more is written. -/
theorem Sink.prefix_frames_attempts {sink : Sink} (h : sink.behavior.Willing) (texts : List Text) :
    sink.frames <+: (sink.attempts texts).frames := by
  induction texts generalizing sink with
  | nil => exact List.prefix_refl _
  | cons text rest ih =>
      obtain ⟨-, hframes, -⟩ := write_of_willing h text
      have h' : (sink.write text).2.behavior.Willing := by
        rw [behavior_write]
        exact h
      have hfirst : sink.frames <+: (sink.write text).2.frames := by
        rw [hframes]
        exact List.prefix_append _ _
      exact hfirst.trans (ih h')

namespace Canvas

variable {w : Nat} {env : Environment} {style : Style} {c : Canvas}

/-- An open canvas of known width that shows one widget, in a style, and has a willing sink. -/
structure Solo (w : Nat) (env : Environment) (style : Style) (c : Canvas) : Prop where
  closed : c.closed = false
  willing : c.sink.behavior.Willing
  visuals : c.visuals = [.widget w]
  style : (c.printerIn env).style = style
  known : (c.printerIn env).width ≠ 0

namespace Solo

theorem exhibits (h : c.Solo w env style) : c.Exhibits w :=
  ⟨h.closed, h.willing, [], [], h.visuals, List.forall_mem_nil _⟩

theorem steady (h : c.Solo w env style) : c.Steady := by
  intro v hv
  rw [h.visuals, List.mem_singleton] at hv
  rw [hv]
  trivial

theorem reliable (h : c.Solo w env style) : c.Reliable := by
  refine ⟨h.willing, fun v hv => ?_⟩
  rw [h.visuals, List.mem_singleton] at hv
  rw [hv]
  trivial

theorem repaint (h : c.Solo w env style) {gallery : Gallery} (hk : gallery.KeepsWidth)
    (hg : gallery.Pictures) (nonempty : (gallery w style).text style ≠ []) :
    (c.repaint env gallery).canvas.Solo w env style ∧ ∃ q, q.width ≠ 0 ∧
      (c.repaint env gallery).canvas.Left w style ((gallery w style).text style) q := by
  obtain ⟨q, left⟩ := h.exhibits.repaint env hg h.style nonempty
  obtain ⟨-, hwidth⟩ := (redrawn_repaint c env hk).steady h.steady
  have hprinter := printerIn_of_some left.printer env
  have known : q.width ≠ 0 := by
    have hknown := h.known
    rw [← hwidth, hprinter] at hknown
    exact hknown
  refine ⟨⟨left.toExhibits.closed, left.toExhibits.willing, ?_, ?_, hwidth ▸ h.known⟩, q, known,
    left⟩
  · have hvisuals : (c.repaint env gallery).canvas.visuals =
        (Frame.paint gallery (c.printerIn env).clear c.visuals).visuals := visuals_flush _ _
    rw [hvisuals, h.visuals, Frame.visuals_paint_widget]
  · rw [hprinter]
    exact left.style

theorem writeSequence (h : c.Solo w env style) (sequence : Text) :
    (c.writeSequence env sequence).2.Solo w env style := by
  obtain ⟨-, exhibits, hprinter⟩ := h.exhibits.writeSequence env sequence
  refine ⟨exhibits.closed, exhibits.willing, ?_, hprinter ▸ h.style, hprinter ▸ h.known⟩
  rw [Canvas.writeSequence]
  split
  · exact h.visuals
  · dsimp only
    split
    · exact h.visuals
    · exact h.visuals

end Solo

end Canvas

theorem CanvasOptions.solo_canvasOf {options : CanvasOptions} {env : Environment} (w : Nat)
    (known : options.width.columns env ≠ 0) (willing : options.behavior.Willing) :
    (options.canvasOf w).Solo w env (options.style.getD env.style) :=
  ⟨rfl, willing, rfl, rfl, known⟩

namespace Scene

variable {w : Nat} {c c' : CanvasRef} {style : Style} {s s' s'' : Scene}

/-- What a canvas has got, frame by frame. -/
def frames (s : Scene) (c : CanvasRef) : List (List UInt8) := ((s.sink? c).map Sink.frames).getD []

theorem frames_of_getElem? {e : CanvasEntry} (he : s.canvases[c]? = some e) :
    s.frames c = e.canvas.sink.frames := by
  rw [frames, sink?, he]
  rfl

/-- The last frame of a canvas holds the text of a widget as that is, and then the canvas got the
closing texts. -/
def Shows (w : Nat) (c : CanvasRef) (style : Style) (closing : Printer → List Text) (s : Scene) :
    Prop :=
  ∃ q earlier last, s.frames c = earlier ++ last :: (closing q).map Utf8.encode ∧
    Utf8.encode q.frame <:+ last ∧ (s.gallery w style).text style <:+: q.frame

structure InSight (w : Nat) (c : CanvasRef) (style : Style) (s : Scene) : Prop where
  there : (s.place? w).isSome
  allowed : s.canUpdate (s.managerOf c) c = true
  canvas : ∃ e, s.canvases[c]? = some e ∧ e.canvas.Solo w s.env style

theorem gallery_draw (s : Scene) (c : CanvasRef) {call : DrawCall} (painted : call ≠ .clear) :
    (s.draw c call).2.gallery = s.gallery := by
  cases call with
  | run => exact gallery_update (s.preparePrinter c) c
  | update => exact gallery_update s c
  | clear => exact absurd rfl painted

namespace InSight

theorem text_ne_nil (h : InSight w c style s) : (s.gallery w style).text style ≠ [] := by
  obtain ⟨place, hplace⟩ := Option.isSome_iff_exists.mp h.there
  obtain ⟨widget, hwidget, -⟩ := Option.map_eq_some_iff.mp hplace
  rw [gallery, hwidget]
  exact widget.text_ne_nil s.watch.now style

theorem reliable (h : InSight w c style s) : s.Reliable c := by
  obtain ⟨e, he, solo⟩ := h.canvas
  intro e' he'
  obtain rfl := Option.some.inj (he.symm.trans he')
  exact solo.reliable

/-- A change beside the canvas. -/
theorem aside (h : InSight w c style s) (place : s'.place? w = s.place? w)
    (same : SameStanding s s') (canvas : s'.canvases[c]? = s.canvases[c]?) :
    InSight w c style s' := by
  obtain ⟨e, he, solo⟩ := h.canvas
  refine ⟨place ▸ h.there, (same.canUpdate c).trans h.allowed, e, canvas.trans he, ?_⟩
  rw [same.env]
  exact solo

/-- A drawing shows the widget. -/
theorem draw (h : InSight w c style s) (call : DrawCall) (painted : call ≠ .clear) :
    InSight w c style (s.draw c call).2 ∧ Shows w c style (fun _ => []) (s.draw c call).2 := by
  obtain ⟨e, he, solo⟩ := h.canvas
  obtain ⟨solo', q, known, left⟩ :=
    solo.repaint s.keepsWidth_gallery s.pictures_gallery h.text_ne_nil
  have hdrawn : e.canvas.drawn s.env s.gallery call =
      (e.canvas.repaint s.env s.gallery).canvas := by
    cases call with
    | run | update => rfl
    | clear => exact absurd rfl painted
  have he' := canvases_draw he solo.closed h.allowed call
  rw [hdrawn] at he'
  have same := sameStanding_draw s c call
  constructor
  · refine ⟨?_, (same.canUpdate c).trans h.allowed, _, he', ?_⟩
    · rw [place?_of_widgets (widgets_draw s c call)]
      exact h.there
    · rw [same.env]
      exact solo'
  · obtain ⟨-, earlier, last, hframes, hlast⟩ := left.written known
    refine ⟨q, earlier, last, (frames_of_getElem? he').trans hframes, hlast, ?_⟩
    rw [gallery_draw s c painted]
    exact left.shown

theorem hideCursor (h : InSight w c style s) :
    (s.hideCursor c).1 = .ok () ∧ InSight w c style (s.hideCursor c).2 := by
  obtain ⟨e, he, solo⟩ := h.canvas
  have hidden : s.hideCursor c = (asOutput (e.canvas.writeSequence s.env Cursor.hideSequence).1,
      s.setCanvas c (e.canvas.writeSequence s.env Cursor.hideSequence).2) := by
    rw [Scene.hideCursor, Scene.writeSequence, he]
  obtain ⟨hresult, -, -⟩ := solo.exhibits.writeSequence s.env Cursor.hideSequence
  have same := sameStanding_writeSequence s c Cursor.hideSequence
  rw [hidden]
  refine ⟨by rw [hresult]; rfl, h.there, ?_, _, canvases_modifyCanvas_self he _, ?_⟩
  · have allowed := (same.canUpdate c).trans h.allowed
    rw [← Scene.hideCursor, hidden] at allowed
    exact allowed
  · exact solo.writeSequence Cursor.hideSequence

theorem cursorHidden {i : Interaction} (h : InSight w i.canvas style s) :
    InSight w i.canvas style (s.cursorHidden i) := by
  unfold Scene.cursorHidden
  split
  · exact h.hideCursor.2
  · exact h

theorem steady (h : InSight w c style s) : s.Steady c := by
  obtain ⟨e, he, solo⟩ := h.canvas
  intro e' he'
  obtain rfl := Option.some.inj (he.symm.trans he')
  exact solo.steady

theorem known (h : InSight w c style s) : s.width? c ≠ some 0 := by
  obtain ⟨e, he, solo⟩ := h.canvas
  intro hzero
  rw [width?, Scene.printer, he] at hzero
  exact solo.known (Option.some.inj hzero)

theorem prefix_frames (h : InSight w c style s) (drawn : DrawsOn w c s s') :
    s.frames c <+: s'.frames c := by
  obtain ⟨e, he, solo⟩ := h.canvas
  obtain ⟨texts, htexts⟩ := drawn.sink?
  have hsink : s.sink? c = some e.canvas.sink := by
    rw [sink?, he]
    rfl
  rw [frames_of_getElem? he, frames, htexts, hsink]
  exact Sink.prefix_frames_attempts solo.willing texts

end InSight

variable {d : Dialog} {options : CanvasOptions}

/-- The scene from which the keys of an asking are read: the focus is granted, the cursor hidden and
the first frame drawn. -/
def firstDrawn (s : Scene) (w : Nat) (d : Dialog) : Scene :=
  (((s.granted w d).cursorHidden (s.interaction w d)).run (s.interaction w d).canvas).2

/-- An asking comes to its first frame, and reads keys from there on. -/
def ReadsFromFirst (s : Scene) (w : Nat) (d : Dialog) : Prop :=
  ∀ (amid : List Keyboard.Occurrence → List Keyboard.Occurrence) (token : Token) (kb : Keyboard),
    (s.interaction w d).attempt amid token kb (s.granted w d) =
      (s.interaction w d).finish (token.askWithin (s.interaction w d).limit
        (s.firstDrawn w d).watch.now ((s.interaction w d).readKeys amid)
        (kb, s.firstDrawn w d))

theorem readsFromFirst_of_drawn
    (hidden : ((s.granted w d).hideCursor (s.interaction w d).canvas).1 = .ok ())
    (drawn : (((s.granted w d).cursorHidden (s.interaction w d)).run
      (s.interaction w d).canvas).1 = .ok ()) : s.ReadsFromFirst w d := by
  intro amid token kb
  exact Interaction.attempt_of_drawn (fun _ => hidden) drawn

theorem canvas_interaction (slot : d.slot = .owned options) :
    (s.interaction w d).canvas = s.canvases.size := by
  obtain ⟨hcanvas, -⟩ := openDialog_of_owned (s := s) (w := w) slot
  exact congrArg Prod.fst hcanvas

theorem inSight_granted (h : s.dialog? w = some d) (slot : d.slot = .owned options)
    (known : options.width.columns s.env ≠ 0) (willing : options.behavior.Willing) :
    InSight w s.canvases.size (options.style.getD s.env.style) (s.granted w d) := by
  obtain ⟨slot', hgranted⟩ := dialog?_granted h
  obtain ⟨hcanvas, number, he⟩ := openDialog_of_owned (s := s) (w := w) slot
  have henv : (s.granted w d).env = s.env := (evolves_focus _ _).env.trans (env_openDialog s w d)
  have he' := (canvases_focus_self (s.openDialog w d).2 s.canvases.size).trans he
  have hgrant : s.granted w d = ((s.openDialog w d).2.focus s.canvases.size).2 := by
    rw [granted, hcanvas]
  rw [← hgrant] at he'
  refine ⟨?_, ?_, _, he', ?_⟩
  · rw [place?_of_dialog? hgranted]
    rfl
  · rw [hgrant]
    exact canUpdate_focus _ _
  · rw [henv]
    exact options.solo_canvasOf w known willing

theorem drawsOn_wait (s : Scene) (watch : Watch) : DrawsOn w c s { s with watch := watch } :=
  ⟨⟨rfl, rfl, fun _ => rfl⟩, fun _ _ => rfl, fun e he => ⟨e, he, .refl s.env e.canvas⟩,
    fun d hd => ⟨d.prompt, hd⟩⟩

section

variable (h : s.dialog? w = some d) (slot : d.slot = .owned options)
  (known : options.width.columns s.env ≠ 0) (willing : options.behavior.Willing)

include h slot known willing

/-- The first frame shows the prompt. -/
theorem shows_firstDrawn :
    InSight w s.canvases.size (options.style.getD s.env.style) (s.firstDrawn w d) ∧
      Shows w s.canvases.size (options.style.getD s.env.style) (fun _ => [])
        (s.firstDrawn w d) := by
  have granted := inSight_granted h slot known willing
  have hcanvas : (s.interaction w d).canvas = s.canvases.size := canvas_interaction slot
  rw [← hcanvas] at granted ⊢
  exact granted.cursorHidden.draw .run nofun

theorem readsFromFirst_of_owned : s.ReadsFromFirst w d := by
  have granted := inSight_granted h slot known willing
  have hcanvas : (s.interaction w d).canvas = s.canvases.size := canvas_interaction slot
  rw [← hcanvas] at granted
  exact readsFromFirst_of_drawn granted.hideCursor.1 (reliable_run granted.cursorHidden.reliable).1

/-- What follows the first frame is drawn on the same canvas, and cleaned up in the end. -/
theorem exists_drawsOn_ask (token : Token)
    (amid : List Keyboard.Occurrence → List Keyboard.Occurrence) :
    ∃ guard kb s', DrawsOn w (s.interaction w d).canvas (s.firstDrawn w d) s' ∧
      (s.ask w token amid).2 =
        s'.cleanUp (s.interaction w d) (s.openDialog w d).1.2 guard kb := by
  let i := s.interaction w d
  let tried := i.finish (token.askWithin i.limit (s.firstDrawn w d).watch.now (i.readKeys amid)
    (d.reader.load, s.firstDrawn w d))
  have drawn : DrawsOn w i.canvas (s.firstDrawn w d) tried.2.2 :=
    i.related_finish (R := DrawsOn w i.canvas) (.refl w i.canvas) DrawsOn.trans
      (fun event _ => drawsOn_promptListener event) drawsOn_wait (fun _ => drawsOn_clear) amid token
      d.reader.load _
  refine ⟨((s.openDialog w d).2.focus (s.openDialog w d).1.1).1, tried.2.1, tried.2.2, drawn, ?_⟩
  rw [ask_snd h, askDialog_eq, readsFromFirst_of_owned h slot known willing amid token]

/-- Nothing that was written up to the first frame is lost, and the width stays known. -/
theorem prefix_frames_ask (token : Token)
    (amid : List Keyboard.Occurrence → List Keyboard.Occurrence) :
    (s.firstDrawn w d).frames s.canvases.size <+: (s.ask w token amid).2.frames s.canvases.size ∧
      (s.ask w token amid).2.width? s.canvases.size ≠ some 0 := by
  have hcanvas : (s.interaction w d).canvas = s.canvases.size := canvas_interaction slot
  obtain ⟨first, -⟩ := shows_firstDrawn h slot known willing
  obtain ⟨guard, kb, s', drawn, hasked⟩ := exists_drawsOn_ask h slot known willing token amid
  rw [hasked, ← hcanvas]
  rw [← hcanvas] at first
  constructor
  · have hframes := sink?_cleanUp s' (s.interaction w d) (s.openDialog w d).1.2 guard kb
    rw [frames, frames, hframes]
    have shown : DrawsOn w (s.interaction w d).canvas s' (s'.cursorShown (s.interaction w d)) :=
      drawsOn_cursorShown s' (s.interaction w d)
    exact first.prefix_frames (drawn.trans shown)
  · rw [width?_cleanUp, drawn.width? first.steady]
    exact first.known

/-- What is written after the first frame, and the last frame, which shows the prompt as the asking
leaves it. -/
theorem shows_ask (token : Token)
    (amid : List Keyboard.Occurrence → List Keyboard.Occurrence) :
    (s.firstDrawn w d).frames s.canvases.size <+: (s.ask w token amid).2.frames s.canvases.size ∧
      Shows w s.canvases.size (options.style.getD s.env.style)
        (closingTexts (d.prompt.clearsOnCompletion && (s.ask w token amid).1.isOk)
          d.prompt.hidesCursor) (s.ask w token amid).2 := by
  obtain ⟨kept, wide⟩ := prefix_frames_ask h slot known willing token amid
  refine ⟨kept, ?_⟩
  obtain ⟨d', after, -⟩ := phaseAgrees_ask h token amid
  obtain ⟨hopened, number, he⟩ := openDialog_of_owned (s := s) (w := w) slot
  have hopened' : (s.openDialog w d).1.1 = s.canvases.size := congrArg Prod.fst hopened
  have solo := options.solo_canvasOf w known willing
  rw [← hopened'] at he wide
  obtain ⟨sink, hsink, q, earlier, last, hframes, hlast, shown⟩ :=
    showsLast_ask h token amid after he solo.exhibits wide
  refine ⟨q, earlier, last, ?_, hlast, ?_⟩
  · rw [frames, ← hopened', hsink]
    exact hframes
  · have hstyle : ((options.canvasOf w).printerIn s.env).style = options.style.getD s.env.style :=
      solo.style
    have hangs : (s.ask w token amid).2.gallery w _ = d'.prompt.painting _ :=
      congrFun (gallery_of_dialog after) (options.style.getD s.env.style)
    rw [hangs, ← hstyle]
    exact shown

end

variable {l : TaskList} {history : List Deed} {result : Except Failure Unit}

theorem sameStanding_modifyTasks (s : Scene) (w : Nat) (f : TaskList → TaskList) :
    SameStanding s (s.modifyTasks w f) := by
  rw [modifyTasks]
  split
  · exact sameStanding_setWidget s w _
  · rfl

theorem gallery_modifyTasks {f : TaskList → TaskList}
    (same : ∀ l now style, (f l).painting now style = l.painting now style) (s : Scene) (w : Nat) :
    (s.modifyTasks w f).gallery w = s.gallery w := by
  rw [modifyTasks]
  split
  · rename_i l hl
    have hwidget := widgets_of_tasks? hl
    funext style
    rw [gallery, getElem?_setWidget hwidget, gallery, hwidget]
    exact same l s.watch.now style
  · rfl

theorem canvas_resolve (s : Scene) (w : Nat) (options : CanvasOptions) :
    ∃ number, (s.resolve w (.owned options)).2.canvases[s.canvases.size]? =
      some ⟨options.canvasOf w, options.manager, number, 1⟩ := by
  refine ⟨(s.managers[options.manager]?.map Manager.nextNumber).getD 0, ?_⟩
  unfold resolve
  dsimp only
  split
  · exact Array.getElem?_push_size
  · exact Array.getElem?_push_size

theorem canvas_openTasks (slot : l.slot = .owned options) :
    (s.openTasks w l).canvas = s.canvases.size ∧ (s.openTasks w l).owned = true := by
  rw [openTasks, slot]
  exact ⟨rfl, rfl⟩

theorem env_resolve (s : Scene) (w : Nat) (options : CanvasOptions) :
    (s.resolve w (.owned options)).2.env = s.env := by
  unfold resolve
  dsimp only
  split
  · rfl
  · rfl

theorem focused_modifyManager_of_same {f : Manager → Manager}
    (h : ∀ manager, (f manager).focused = manager.focused) (s : Scene) (m m' : ManagerRef) :
    (s.modifyManager m f).focused m' = s.focused m' := by
  rw [focused_modifyManager, focused]
  split
  · exact congrArg (Option.bind _) (funext h)
  · rfl

theorem focused_register (s : Scene) (m m' : ManagerRef) (c : CanvasRef) :
    (s.register m c).focused m' = s.focused m' := by
  unfold register
  apply focused_modifyManager_of_same
  exact fun _ => rfl

/-- A new canvas does not change the focus. -/
theorem focused_newCanvas (s : Scene) (m m' : ManagerRef) (canvas : Canvas) :
    (s.newCanvas m canvas).2.focused m' = s.focused m' := by
  unfold newCanvas
  dsimp only
  rw [focused_register, focused_modifyManager_of_same]
  · rfl
  · exact fun _ => rfl

theorem focused_resolve (s : Scene) (w : Nat) (options : CanvasOptions) (m : ManagerRef) :
    (s.resolve w (.owned options)).2.focused m = s.focused m := by
  have hnew := s.focused_newCanvas options.manager m (options.canvasOf w)
  unfold resolve
  dsimp only
  split
  · exact hnew
  · exact hnew

theorem inSight_resolve (hl : s.tasks? w = some l) (slot : l.slot = .owned options)
    (known : options.width.columns s.env ≠ 0) (willing : options.behavior.Willing)
    (unfocused : s.focused options.manager = none) :
    InSight w s.canvases.size (options.style.getD s.env.style) (s.resolve w l.slot).2 := by
  have reliable : s.ReliableSlot l.slot := by
    rw [slot]
    exact willing
  obtain ⟨-, htasks⟩ := resolve_of_reliable hl reliable
  obtain ⟨number, he⟩ := canvas_resolve s w options
  rw [← slot] at he
  refine ⟨?_, ?_, _, he, ?_⟩
  · rw [place?_of_tasks? htasks]
    rfl
  · have hmanager : (s.resolve w l.slot).2.managerOf s.canvases.size = options.manager := by
      rw [managerOf, he]
      rfl
    rw [canUpdate, hmanager, slot, focused_resolve, unfocused]
    rfl
  · rw [slot, env_resolve]
    exact options.solo_canvasOf w known willing

/-- A widget in sight stays in sight, and what its canvas gets comes after what it had got. -/
def Continues (w : Nat) (c : CanvasRef) (style : Style) (s s' : Scene) : Prop :=
  InSight w c style s → InSight w c style s' ∧ s.frames c <+: s'.frames c

theorem Continues.refl (w : Nat) (c : CanvasRef) (style : Style) (s : Scene) :
    Continues w c style s s :=
  fun h => ⟨h, List.prefix_refl _⟩

theorem Continues.trans (h : Continues w c style s s') (h' : Continues w c style s' s'') :
    Continues w c style s s'' := by
  intro sight
  obtain ⟨sight', hframes⟩ := h sight
  obtain ⟨sight'', hframes'⟩ := h' sight'
  exact ⟨sight'', hframes.trans hframes'⟩

theorem continues_aside (place : s'.place? w = s.place? w) (same : SameStanding s s')
    (canvas : s'.canvases[c]? = s.canvases[c]?) : Continues w c style s s' := by
  intro sight
  refine ⟨sight.aside place same canvas, ?_⟩
  rw [frames, sink?, frames, sink?, canvas]

theorem continues_update (s : Scene) (c' : CanvasRef) : Continues w c style s (s.update c').2 := by
  rcases eq_or_ne c c' with rfl | hne
  · intro sight
    obtain ⟨sight', -⟩ := sight.draw .update nofun
    exact ⟨sight', sight.prefix_frames drawsOn_update⟩
  · have drawn : DrawsOn w c' s (s.update c').2 := drawsOn_update
    exact continues_aside (place?_of_widgets (widgets_update s c') w) drawn.standing
      (drawn.others c hne)

theorem continues_after (σ : Crew) (moves : List Crew.Move) :
    Continues w c style σ.scene (σ.after w c' moves).scene := by
  have modified (s : Scene) (index : Nat) (f : TaskRecord → TaskRecord) :
      Continues w c style s (s.modifyTasks w (·.modifyRecord index f)) := by
    have idle : Idle w c s (s.modifyTasks w (·.modifyRecord index f)) := by
      apply idle_modifyTasks
      exact fun _ => rfl
    exact continues_aside idle.place (sameStanding_modifyTasks s w _)
      (by rw [canvases_modifyTasks])
  exact Crew.related_after (R := Continues w c style) (.refl w c style) modified Continues.trans
    continues_update (fun s notes => continues_aside rfl (sameStanding_note s notes) rfl)
    (fun _ _ => continues_aside rfl ⟨rfl, rfl, fun _ => rfl⟩ rfl) σ moves

section

variable (hl : s.tasks? w = some l) (slot : l.slot = .owned options)
  (known : options.width.columns s.env ≠ 0) (willing : options.behavior.Willing)
  (unfocused : s.focused options.manager = none)

include hl slot known willing unfocused

/-- The first frame shows the list, before a task is begun. -/
theorem shows_openTasks :
    (s.openTasks w l).drawn = .ok () ∧
      InSight w s.canvases.size (options.style.getD s.env.style) (s.openTasks w l).scene ∧
      Shows w s.canvases.size (options.style.getD s.env.style) (fun _ => [])
        (s.openTasks w l).scene := by
  have resolved := inSight_resolve hl slot known willing unfocused
  have hdrawn := (reliable_run resolved.reliable).1
  obtain ⟨ran, q, earlier, last, hframes, hlast, shown⟩ := resolved.draw .run nofun
  obtain ⟨hcanvas, -⟩ := canvas_openTasks (s := s) (w := w) slot
  have hopened : (s.openTasks w l).scene = ((s.resolve w l.slot).2.draw s.canvases.size
      .run).2.modifyTasks w fun l => { l with queue := [] } := by
    rw [← hcanvas]
    rfl
  rw [← hcanvas] at hdrawn
  refine ⟨hdrawn, ?_⟩
  rw [hopened]
  generalize ((s.resolve w l.slot).2.draw s.canvases.size .run).2 = s₁ at ran hframes shown ⊢
  have taken : Idle w s.canvases.size s₁ (s₁.modifyTasks w fun l => { l with queue := [] }) := by
    apply idle_modifyTasks
    exact fun _ => rfl
  have looks : (s₁.modifyTasks w fun l => { l with queue := [] }).gallery w = s₁.gallery w := by
    apply gallery_modifyTasks
    exact fun _ _ _ => rfl
  refine ⟨ran.aside taken.place (sameStanding_modifyTasks s₁ w _) ?_, q, earlier, last, ?_, hlast,
    ?_⟩
  · rw [canvases_modifyTasks]
  · rw [frames, sink?, canvases_modifyTasks]
    exact hframes
  · rw [looks]
    exact shown

/-- The list stays in sight until its last frame is drawn. -/
theorem inSight_crewAfter (moves : List Crew.Move) :
    InSight w s.canvases.size (options.style.getD s.env.style) (s.crewAfter w l moves).scene ∧
      (s.openTasks w l).scene.frames s.canvases.size <+:
        (s.crewAfter w l moves).scene.frames s.canvases.size := by
  obtain ⟨-, opened, -⟩ := shows_openTasks hl slot known willing unfocused
  exact continues_after (Crew.start (s.openTasks w l).scene l) moves opened

/-- What is written after the first frame, and the last frame, which shows the list as the run
leaves it. Then the canvas is closed. -/
theorem shows_run (ran : Ran w s history result s') :
    (s.openTasks w l).scene.frames s.canvases.size <+: s'.frames s.canvases.size ∧
      Shows w s.canvases.size (options.style.getD s.env.style) (fun _ => []) s' ∧
      s'.isClosed s.canvases.size = true := by
  obtain ⟨l₁, moves, hl₁, -, -, -, hconclude⟩ := ran
  obtain rfl := Option.some.inj (hl₁.symm.trans hl)
  obtain ⟨sight, before⟩ := inSight_crewAfter hl slot known willing unfocused moves
  obtain ⟨sight', q, earlier, last, hframes, hlast, shown⟩ := sight.draw .update nofun
  let drawn := ((s.crewAfter w l₁ moves).scene.update s.canvases.size).2
  obtain ⟨hcanvas, howned⟩ : (s.openTasks w l₁).canvas = s.canvases.size ∧
      (s.openTasks w l₁).owned = true := canvas_openTasks slot
  have hs' : s' = drawn.close s.canvases.size := by
    have hended : s' = (s.conclude w l₁ (s.crewAfter w l₁ moves)).2 :=
      (congrArg Prod.snd hconclude).symm
    rw [hended, conclude, hcanvas, howned, closeTasks_snd, if_pos rfl]
  have hsame : s'.frames s.canvases.size = drawn.frames s.canvases.size := by
    rw [hs', frames, sink?_close, frames]
  obtain ⟨e, he, -⟩ := sight'.canvas
  refine ⟨?_, ⟨q, earlier, last, hsame.trans hframes, hlast, ?_⟩, ?_⟩
  · rw [hsame]
    exact before.trans (sight.prefix_frames drawsOn_update)
  · rw [hs']
    exact shown
  · rw [hs']
    exact isClosed_close he

end

end Scene

end Inlay
