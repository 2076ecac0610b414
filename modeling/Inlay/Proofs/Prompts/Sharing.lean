import Inlay.Proofs.Prompts.Following
import Inlay.Proofs.Prompts.Stack
import Inlay.Proofs.Scene.Asking
import Inlay.Proofs.Screen.Fidelity
/-!
A canvas that prompts share. While every prompt but the last leaves the cursor where its text ends,
each has rows of its own on the screen, one below the other, however often the canvas is drawn. A
prompt that places the cursor is printed over by the one below it.
-/

namespace Inlay

open Text

/-- Widgets have no renderings to count. -/
theorem Frame.visuals_paint_widgets (gallery : Gallery) (p : Printer) (ws : List Nat) :
    (Frame.paint gallery p (ws.map .widget)).visuals = ws.map .widget := by
  induction ws generalizing p with
  | nil => rfl
  | cons w rest ih =>
      rw [List.map_cons]
      unfold Frame.paint
      dsimp only
      split
      · rfl
      · exact congrArg (Visual.widget w :: ·) (ih _)

namespace Canvas

theorem visuals_repaint_widgets {c : Canvas} {ws : List Nat} (h : c.visuals = ws.map .widget)
    (env : Environment) (gallery : Gallery) :
    (c.repaint env gallery).canvas.visuals = ws.map .widget := by
  refine (visuals_flush _ _).trans ?_
  change (Frame.paint gallery _ c.visuals).visuals = _
  rw [h, Frame.visuals_paint_widgets]

/-- The texts of prompts one after the other. -/
def promptText (style : Style) (prompts : List Prompt) : Text :=
  prompts.flatMap fun p => (p.painting style).text style

/-- A canvas with the widgets `ws` that showed `shown` in its last frame. -/
structure Shows (env : Environment) (t : Terminal) (style : Style) (ws : List Nat)
    (shown : List Prompt) (c : Canvas) : Prop where
  tracks : c.Tracks env t (promptText style shown)
  visuals : c.visuals = ws.map .widget
  style : (c.printerIn env).style = style
  undrawn : c.printer = none → shown = []
  plain : ∀ p ∈ shown, p.MadeOf Plain

variable {env : Environment} {gallery : Gallery} {t : Terminal} {style : Style} {ws : List Nat}
  {shown prompts : List Prompt} {c : Canvas}

theorem shows_unused (positive : 1 ≤ t.width) (ground : t.mode = .ground)
    (blank : ∀ row col, t.row ≤ row → t.cells row col = ' ') (unused : c.Unused env t.width)
    (visuals : c.visuals = ws.map .widget) :
    c.Shows env t (c.printerIn env).style ws [] :=
  ⟨tracks_unused positive ground blank unused, visuals, rfl, fun _ => rfl, List.forall_mem_nil _⟩

theorem Shows.repaint (h : c.Shows env t style ws shown)
    (hangs : List.Forall₂ (Frame.Hangs gallery) ws prompts)
    (plain : ∀ p ∈ prompts, p.MadeOf Plain)
    (rests : ∀ p ∈ prompts.dropLast, p.placesCursor = false) :
    (c.repaint env gallery).canvas.Shows env t style ws prompts := by
  have hcleared : (c.printerIn env).clear.style = style := (Printer.style_clear _).trans h.style
  have tidy : Frame.Tidy gallery (c.printerIn env).clear c.visuals := by
    rw [h.visuals]
    exact Frame.tidy_prompts hangs plain rests rfl (Nat.le_refl 1)
  have settled := settled_repaint h.tracks tidy
  have htext : c.frameText env gallery = promptText style prompts := by
    rw [frameText, h.style, h.visuals]
    exact Frame.text_prompts hangs style
  rw [htext] at settled
  refine ⟨settled.toTracks, visuals_repaint_widgets h.visuals env gallery, ?_, ?_, plain⟩
  · rw [printerIn, printer_repaint]
    exact (Frame.prints_paint tidy).style.trans hcleared
  · rw [printer_repaint]
    intro hnone
    cases hnone

theorem Shows.erase (h : c.Shows env t style ws shown) : c.erase.2.Shows env t style ws [] := by
  cases hp : c.printer with
  | none =>
      rw [h.undrawn hp] at h
      rw [erase_of_no_printer hp]
      exact h
  | some p =>
      have settled := settled_erase_of_printer h.tracks (by rw [hp]; exact nofun)
      have herase : c.erase.2 = (c.flush p.clear).2 := by rw [Canvas.erase, hp]
      have hstyle : p.clear.style = style := by
        rw [← h.style, printerIn_of_some hp]
        exact p.style_clear
      refine ⟨settled.toTracks, ?_, ?_, fun _ => rfl, List.forall_mem_nil _⟩
      · rw [herase, visuals_flush, h.visuals]
      · rw [herase, printerIn, printer_flush]
        exact hstyle

/-- A sequence that the terminal reads without effect. -/
theorem Shows.writeSequence (h : c.Shows env t style ws shown) {sequence : Text}
    (idle : ∀ t : Terminal, t.mode = .ground → t.run sequence = t) :
    (c.writeSequence env sequence).2.Shows env t style ws shown := by
  have hpositive : (c.printerIn env).width ≠ 0 := Nat.ne_of_gt h.tracks.covers.positive
  obtain ⟨sent, hsent⟩ := h.tracks.encoded
  have hwritten : (c.writeSequence env sequence).2 =
      { c with printer := some (c.printerIn env), sink := (c.sink.write sequence).2 } := by
    unfold Canvas.writeSequence
    rw [if_neg (ne_true_of_eq_false h.tracks.closed)]
    dsimp only
    rw [printerIn_withPrinter, if_neg hpositive]
    rfl
  have hreceived : (c.sink.write sequence).2.received =
      c.sink.received ++ Utf8.encode sequence :=
    Sink.received_write_of_willing h.tracks.willing sequence
  have hread : t.receive (c.sink.write sequence).2.received = t.receive c.sink.received := by
    have hground := h.tracks.ground
    rw [hreceived, hsent, Terminal.receive_append]
    rw [hsent] at hground
    exact idle _ hground
  rw [hwritten]
  refine ⟨⟨h.tracks.closed, ?_, ⟨sent ++ sequence, ?_⟩, h.tracks.width, h.tracks.emptied, ?_⟩,
    h.visuals, h.style, nofun, h.plain⟩
  · rw [Sink.behavior_write]
    exact h.tracks.willing
  · rw [hreceived, hsent, Utf8.encode_append]
  · rw [hread]
    exact h.tracks.covers

end Canvas

namespace Terminal

variable {t : Terminal}

theorem run_hideSequence (ground : t.mode = .ground) : t.run Cursor.hideSequence = t := by
  have hparameters : MadeOf IsParameter "?25" := madeOf_of_all (by decide)
  have hfinal : 0x40 ≤ 'l'.toNat ∧ 'l'.toNat ≤ 0x7e := by decide
  have hrun := run_control ground hparameters hfinal
  exact hrun.trans (congrArg (fun mode => { t with mode := mode }) ground.symm)

theorem run_showSequence (ground : t.mode = .ground) : t.run Cursor.showSequence = t := by
  have hparameters : MadeOf IsParameter "?25" := madeOf_of_all (by decide)
  have hfinal : 0x40 ≤ 'h'.toNat ∧ 'h'.toNat ≤ 0x7e := by decide
  have hrun := run_control ground hparameters hfinal
  exact hrun.trans (congrArg (fun mode => { t with mode := mode }) ground.symm)

end Terminal

namespace Scene

variable {s s' s'' : Scene} {c : CanvasRef} {ws : List Nat} {t : Terminal} {style : Style}
  {shown : List Prompt}

def promptsOn (s : Scene) (ws : List Nat) : List Prompt :=
  ws.filterMap fun w => (s.dialog? w).map Dialog.prompt

/-- Widgets that are prompts and were given plain texts. -/
def ArePrompts (s : Scene) (ws : List Nat) : Prop :=
  ∀ w ∈ ws, ∃ d, s.dialog? w = some d ∧ d.prompt.MadeOf Plain

theorem arePrompts_of_widgets (h : s'.widgets = s.widgets) (prompts : s.ArePrompts ws) :
    s'.ArePrompts ws := by
  intro w hw
  rw [dialog?_of_widgets h]
  exact prompts w hw

theorem gallery_of_dialog {w : Nat} {d : Dialog} (h : s.dialog? w = some d) :
    Frame.Hangs s.gallery w d.prompt := by
  unfold dialog? at h
  split at h
  · rename_i d' hd
    rw [Option.some.injEq] at h
    funext style
    rw [gallery, hd, ← h]
    rfl
  · cases h

theorem promptsOn_cons {w : Nat} {d : Dialog} (h : s.dialog? w = some d) (ws : List Nat) :
    s.promptsOn (w :: ws) = d.prompt :: s.promptsOn ws := by
  rw [promptsOn, List.filterMap_cons, h]
  rfl

theorem hangs_promptsOn (h : s.ArePrompts ws) :
    List.Forall₂ (Frame.Hangs s.gallery) ws (s.promptsOn ws) := by
  induction ws with
  | nil => exact .nil
  | cons w rest ih =>
      obtain ⟨⟨d, hd, -⟩, hrest⟩ := List.forall_mem_cons.mp h
      rw [promptsOn_cons hd]
      exact .cons (gallery_of_dialog hd) (ih hrest)

theorem plain_promptsOn (h : s.ArePrompts ws) : ∀ p ∈ s.promptsOn ws, p.MadeOf Plain := by
  intro p hp
  obtain ⟨w, hw, hprompt⟩ := List.mem_filterMap.mp hp
  obtain ⟨d, hd, hplain⟩ := h w hw
  rw [hd, Option.map_some, Option.some.injEq] at hprompt
  rw [← hprompt]
  exact hplain

/-- No prompt but the last places the cursor in the frame that is drawn. -/
def DrawsResting (s : Scene) (ws : List Nat) : DrawCall → Prop
  | .run | .update => ∀ p ∈ (s.promptsOn ws).dropLast, p.placesCursor = false
  | .clear => True

/-- The prompts that a drawing call leaves on screen. -/
def promptsAfter (s : Scene) (ws : List Nat) : DrawCall → List Prompt
  | .run | .update => s.promptsOn ws
  | .clear => []

/-- What may happen beside the drawing: the prompts change, with plain texts, time passes, and the
focus comes and goes. -/
structure Beside (c : CanvasRef) (ws : List Nat) (s s' : Scene) : Prop where
  env : s'.env = s.env
  allowed : s'.canUpdate (s'.managerOf c) c = true
  canvas : s'.canvases[c]? = s.canvases[c]?
  prompts : s'.ArePrompts ws

/-- Scenes that come of drawing a canvas that prompts share, with the prompts of its last frame as
they were then. -/
inductive Sharing (c : CanvasRef) (ws : List Nat) (s : Scene) : Scene → List Prompt → Prop
  | begun : Sharing c ws s s []
  | draw {s' : Scene} {shown : List Prompt} (sharing : Sharing c ws s s' shown) (call : DrawCall)
      (rests : s'.DrawsResting ws call) :
      Sharing c ws s (s'.draw c call).2 (s'.promptsAfter ws call)
  | hideCursor {s' : Scene} {shown : List Prompt} (sharing : Sharing c ws s s' shown) :
      Sharing c ws s (s'.hideCursor c).2 shown
  | showCursor {s' : Scene} {shown : List Prompt} (sharing : Sharing c ws s s' shown) :
      Sharing c ws s (s'.showCursor c).2 shown
  | meanwhile {s' s'' : Scene} {shown : List Prompt} (sharing : Sharing c ws s s' shown)
      (beside : Beside c ws s' s'') : Sharing c ws s s'' shown

/-- The invariant of such scenes. -/
structure Shared (s : Scene) (c : CanvasRef) (ws : List Nat) (t : Terminal) (style : Style)
    (shown : List Prompt) : Prop where
  allowed : s.canUpdate (s.managerOf c) c = true
  prompts : s.ArePrompts ws
  canvas : ∃ e, s.canvases[c]? = some e ∧ e.canvas.Shows s.env t style ws shown

theorem widgets_draw (s : Scene) (c : CanvasRef) (call : DrawCall) :
    (s.draw c call).2.widgets = s.widgets := by
  cases call with
  | run => exact widgets_run s c
  | update => exact widgets_update s c
  | clear => exact widgets_clear s c

theorem Shared.draw (h : s.Shared c ws t style shown) {call : DrawCall}
    (rests : s.DrawsResting ws call) :
    (s.draw c call).2.Shared c ws t style (s.promptsAfter ws call) := by
  have hsame := sameStanding_draw s c call
  obtain ⟨e, he, hcanvas⟩ := h.canvas
  refine ⟨(hsame.canUpdate c).trans h.allowed,
    arePrompts_of_widgets (widgets_draw s c call) h.prompts, _,
    canvases_draw he hcanvas.tracks.closed h.allowed call, ?_⟩
  rw [hsame.env]
  cases call with
  | run | update =>
      exact hcanvas.repaint (hangs_promptsOn h.prompts) (plain_promptsOn h.prompts) rests
  | clear => exact hcanvas.erase

theorem Shared.writeSequence (h : s.Shared c ws t style shown) {sequence : Text}
    (idle : ∀ t : Terminal, t.mode = .ground → t.run sequence = t) :
    (s.writeSequence c sequence).2.Shared c ws t style shown := by
  have hsame := sameStanding_writeSequence s c sequence
  obtain ⟨e, he, hcanvas⟩ := h.canvas
  refine ⟨(hsame.canUpdate c).trans h.allowed,
    arePrompts_of_widgets (widgets_writeSequence s c sequence) h.prompts,
    { e with canvas := (e.canvas.writeSequence s.env sequence).2 }, ?_, ?_⟩
  · unfold Scene.writeSequence
    rw [he]
    exact canvases_modifyCanvas_self he _
  · rw [hsame.env]
    exact hcanvas.writeSequence idle

theorem Shared.beside (h : s.Shared c ws t style shown) (beside : Beside c ws s s') :
    s'.Shared c ws t style shown := by
  refine ⟨beside.allowed, beside.prompts, ?_⟩
  rw [beside.canvas, beside.env]
  exact h.canvas

theorem Sharing.shared (h : Sharing c ws s s' shown) (start : s.Shared c ws t style []) :
    s'.Shared c ws t style shown := by
  induction h with
  | begun => exact start
  | draw _ call rests ih => exact ih.draw rests
  | hideCursor _ ih => exact ih.writeSequence fun _ => Terminal.run_hideSequence
  | showCursor _ ih => exact ih.writeSequence fun _ => Terminal.run_showSequence
  | meanwhile _ beside ih => exact ih.beside beside

end Scene

/-- Prompts on the terminal `t'`, from the row on that `t` was in: each in rows of its own with its
whole text, the next right below, nothing under the last and nothing changed above the first. -/
structure Stacked (t t' : Terminal) (style : Style) (prompts : List Prompt) : Prop where
  above : ∀ row col, row < t.row → t'.cells row col = t.cells row col
  rows : ∀ row col, t'.cells (t.row + row) col =
    (((prompts.flatMap fun p => layout t.width (p.picture style))[row]?).bind (·[col]?)).getD ' '
  own : ∀ p ∈ prompts, layout t.width (p.picture style) ≠ []
  whole : ∀ p ∈ prompts, Escape.strip ((p.painting style).text style) = p.picture style ++ "\n"

/-- An empty row at the end is no different from none. -/
theorem getD_append_empty (rows : List Text) (row col : Nat) :
    (((rows ++ [[]])[row]?).bind (·[col]?)).getD ' ' = ((rows[row]?).bind (·[col]?)).getD ' ' := by
  rcases Nat.lt_trichotomy row rows.length with hlt | heq | hgt
  · rw [List.getElem?_append_left hlt]
  · rw [heq, List.getElem?_concat_length, List.getElem?_eq_none (Nat.le_refl _)]
    rfl
  · rw [List.getElem?_eq_none (Nat.le_of_lt hgt), List.getElem?_eq_none]
    rw [List.length_append]
    exact hgt

theorem Canvas.Shows.stacked {env : Environment} {t : Terminal} {style : Style} {ws : List Nat}
    {shown : List Prompt} {c : Canvas} (h : c.Shows env t style ws shown) :
    Stacked t (t.receive c.sink.received) style shown := by
  have hstrip := Escape.strip_of_displays (Prompt.displays_paintings h.plain style)
  refine ⟨fun row col => h.tracks.above col, fun row col => ?_, fun p _ => layout_ne_nil _ _,
    fun p hp => Escape.strip_of_displays (Prompt.displays_painting (h.plain p hp) style)⟩
  rw [h.tracks.frame, promptText, hstrip, Prompt.layout_pictures, getD_append_empty]

namespace Scene

/-- However often a canvas that prompts share is drawn and whatever the prompts are and become
meanwhile, they stand one below the other on the screen, as long as none but the last places the
cursor in a frame. -/
theorem stacked_sharing {s s' : Scene} {c : CanvasRef} {ws : List Nat} {shown : List Prompt}
    {t : Terminal} {e : CanvasEntry} (he : s.canvases[c]? = some e) (positive : 1 ≤ t.width)
    (ground : t.mode = .ground) (blank : ∀ row col, t.row ≤ row → t.cells row col = ' ')
    (unused : e.canvas.Unused s.env t.width) (visuals : e.canvas.visuals = ws.map .widget)
    (prompts : s.ArePrompts ws) (allowed : s.canUpdate (s.managerOf c) c = true)
    (sharing : Sharing c ws s s' shown) :
    ∃ e', s'.canvases[c]? = some e' ∧
      Stacked t (t.receive e'.canvas.sink.received) (e.canvas.printerIn s.env).style shown := by
  have start : s.Shared c ws t (e.canvas.printerIn s.env).style [] :=
    ⟨allowed, prompts, e, he, Canvas.shows_unused positive ground blank unused visuals⟩
  obtain ⟨e', he', hcanvas⟩ := (sharing.shared start).canvas
  exact ⟨e', he', hcanvas.stacked⟩

/-- Two questions put on one canvas, the first of them in a phase of its own. -/
def twoQuestions (phase : Prompt.Phase) : Scene :=
  let name : Dialog := { prompt := .line { message := "Name", phase := phase }, slot := .owned {} }
  let consent : Dialog := { prompt := .confirm { message := "Go?" }, slot := .owned {} }
  let s : Scene := (newCanvas {} 0 { visuals := [], width := .fixed 40 }).2
  (((s.newWidget (.dialog name)).2.newWidget (.dialog consent)).2.attach 0 0).attach 1 0

def usedScreen : Terminal where
  width := 40
  cells := fun row _ => if row < 3 then 'x' else ' '
  row := 3
  col := 0

theorem arePrompts_twoQuestions (phase : Prompt.Phase) :
    (twoQuestions phase).ArePrompts [0, 1] := by
  have hempty : MadeOf Plain [] := madeOf_of_all rfl
  have hhint : MadeOf Plain Prompt.defaultHint := madeOf_of_all (by decide)
  have hname : MadeOf Plain "Name" := madeOf_of_all (by decide)
  have hgo : MadeOf Plain "Go?" := madeOf_of_all (by decide)
  intro w hw
  rw [List.mem_pair] at hw
  rcases hw with rfl | rfl
  · exact ⟨_, rfl, ⟨hname, hempty, hempty, hhint, hempty, nofun, nofun⟩⟩
  · exact ⟨_, rfl, ⟨hgo, hempty, hhint, hempty⟩⟩

def typedYes : Keyboard.KeyEvent := { value := "y", key := some (.char 'y') }

/-- The second question is asked below the first, which was answered. -/
theorem stacked_sharing_twoQuestions :
    let asked := ((twoQuestions .complete).draw 0 .run).2.modifyDialog 1 fun d =>
      { d with prompt := (d.prompt.press typedYes).2 }
    ∃ e, (asked.draw 0 .update).2.canvases[0]? = some e ∧
      Stacked usedScreen (usedScreen.receive e.canvas.sink.received) ⟨false⟩
        (asked.promptsOn [0, 1]) := by
  intro asked
  have start := arePrompts_twoQuestions .complete
  have followed : asked.ArePrompts [0, 1] := by
    intro w hw
    rw [List.mem_pair] at hw
    rcases hw with rfl | rfl
    · exact start 0 List.mem_cons_self
    · obtain ⟨d, hd, hplain⟩ := start 1 (List.mem_cons_of_mem _ List.mem_cons_self)
      have htyped : typedYes.value.MadeOf Plain := madeOf_of_all (by decide)
      obtain rfl := Option.some.inj hd
      exact ⟨_, rfl, Prompt.madeOf_press (fun _ h => h) hplain htyped⟩
  have beside : Beside 0 [0, 1] ((twoQuestions .complete).draw 0 .run).2 asked :=
    ⟨rfl, rfl, rfl, followed⟩
  have first : (twoQuestions .complete).DrawsResting [0, 1] .run := by
    intro p hp
    obtain rfl := List.mem_singleton.mp hp
    rfl
  have second : asked.DrawsResting [0, 1] .update := by
    intro p hp
    obtain rfl := List.mem_singleton.mp hp
    rfl
  exact stacked_sharing (s := twoQuestions .complete) (t := usedScreen) rfl (by decide) rfl
    (fun _ _ below => if_neg (Nat.not_lt.mpr below))
    ⟨rfl, rfl, rfl, Sink.Behavior.willing_faultless, rfl⟩ rfl start rfl
    (.draw (.meanwhile (.draw .begun .run first) beside) .update second)

end Scene

/-- The printer after a frame of widgets. -/
def Frame.printed (gallery : Gallery) (p : Printer) (ws : List Nat) : Printer :=
  (Frame.paint gallery p.clear (ws.map .widget)).printer

/-- An open canvas that shows widgets, with a willing sink that got a text so far. -/
structure Canvas.Sent (env : Environment) (ws : List Nat) (p : Printer) (sent : Text) (c : Canvas) :
    Prop where
  closed : c.closed = false
  willing : c.sink.behavior.Willing
  received : c.sink.received = Utf8.encode sent
  visuals : c.visuals = ws.map .widget
  printer : c.printerIn env = p

/-- A willing sink gets every frame, tidy or not. -/
theorem Canvas.Sent.repaint {env : Environment} {gallery : Gallery} {ws : List Nat} {p : Printer}
    {sent : Text} {c : Canvas} (h : c.Sent env ws p sent)
    (width : (Frame.printed gallery p ws).width ≠ 0) :
    (c.repaint env gallery).canvas.Sent env ws (Frame.printed gallery p ws).emptied
      (sent ++ (Frame.printed gallery p ws).frame) := by
  have hprinted : (Frame.paint gallery (c.printerIn env).clear c.visuals).printer =
      Frame.printed gallery p ws := by
    rw [Frame.printed, h.printer, h.visuals]
  rw [← hprinted] at width ⊢
  obtain ⟨sink, hflush, hbehavior, hreceived⟩ := flush_of_willing
    (c := { c with visuals := (Frame.paint gallery (c.printerIn env).clear c.visuals).visuals })
    h.willing width
  have hsink : (c.repaint env gallery).canvas.sink = sink := congrArg Canvas.sink hflush
  refine ⟨(c.closed_repaint env gallery).trans h.closed, ?_, ?_,
    visuals_repaint_widgets h.visuals env gallery, ?_⟩
  · rw [hsink, hbehavior]
    exact h.willing
  · rw [hsink, hreceived, h.received, Utf8.encode_append]
  · rw [printerIn, printer_repaint]
    rfl

namespace Scene

theorem gallery_repaintUnlessClosed (s : Scene) (c : CanvasRef) :
    (s.repaintUnlessClosed c).2.gallery = s.gallery := by
  unfold repaintUnlessClosed
  split
  · rfl
  split
  · rfl
  · rfl

theorem gallery_update (s : Scene) (c : CanvasRef) : (s.update c).2.gallery = s.gallery := by
  unfold update
  split
  · exact gallery_repaintUnlessClosed s c
  · rfl

theorem sent_draw {s : Scene} {c : CanvasRef} {e : CanvasEntry} {ws : List Nat} {p : Printer}
    {sent : Text} (he : s.canvases[c]? = some e) (h : e.canvas.Sent s.env ws p sent)
    (allowed : s.canUpdate (s.managerOf c) c = true)
    (width : (Frame.printed s.gallery p ws).width ≠ 0) :
    ∃ e', (s.draw c .update).2.canvases[c]? = some e' ∧
      e'.canvas.Sent s.env ws (Frame.printed s.gallery p ws).emptied
        (sent ++ (Frame.printed s.gallery p ws).frame) :=
  ⟨_, canvases_draw he h.closed allowed .update, h.repaint width⟩

/-- While the first question is asked, the second is printed behind it in the same row, and the next
frame begins a row too high. -/
theorem overprinted_twoQuestions :
    let s := twoQuestions .interacting
    ∃ e e', (s.draw 0 .update).2.canvases[0]? = some e ∧
      ((s.draw 0 .update).2.draw 0 .update).2.canvases[0]? = some e' ∧
      ¬ Stacked usedScreen (usedScreen.receive e.canvas.sink.received) ⟨false⟩
        (s.promptsOn [0, 1]) ∧
      (usedScreen.receive e'.canvas.sink.received).cells 2 0 ≠ usedScreen.cells 2 0 := by
  intro s
  have hallowed : s.canUpdate (s.managerOf 0) 0 = true := rfl
  have hgallery : (s.draw 0 .update).2.gallery = s.gallery := gallery_update s 0
  have hsame := sameStanding_draw s 0 .update
  have start : Canvas.Sent s.env [0, 1] { width := 40, style := ⟨false⟩ } []
      { visuals := [.widget 0, .widget 1], width := .fixed 40 } :=
    ⟨rfl, Sink.Behavior.willing_faultless, rfl, rfl, by decide⟩
  obtain ⟨e, he, hsent⟩ := sent_draw (e := ⟨_, 0, 0, 3⟩) rfl start hallowed (by decide +kernel)
  obtain ⟨e', he', hsent'⟩ := sent_draw he (hsame.env ▸ hsent) ((hsame.canUpdate 0).trans hallowed)
    (by rw [hgallery]; decide +kernel)
  rw [hgallery] at hsent'
  refine ⟨e, e', he, he', fun stacked => ?_, ?_⟩
  · have hcell := stacked.rows 0 8
    rw [hsent.received, Terminal.receive_encode] at hcell
    revert hcell
    decide +kernel
  · rw [hsent'.received, Terminal.receive_encode]
    decide +kernel

end Scene

end Inlay
