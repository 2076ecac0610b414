import Inlay.Proofs.Prompts.Asked
import Inlay.Proofs.Scene.Reliable
import Inlay.Proofs.Screen.Texts

namespace Inlay

open Text Keyboard

/-- What any strokes keep of a printer: its style, the frame so far and that there is a row. -/
structure Printer.Grows (p p' : Printer) : Prop where
  style : p'.style = p.style
  frame : p.frame <+: p'.frame
  rows : 1 ≤ p.size.rows → 1 ≤ p'.size.rows

namespace Printer

variable {p p' p'' : Printer}

@[refl] theorem Grows.refl (p : Printer) : Grows p p := ⟨rfl, List.prefix_refl _, id⟩

theorem Grows.trans (h : Grows p p') (h' : Grows p' p'') : Grows p p'' :=
  ⟨h'.style.trans h.style, h.frame.trans h'.frame, h'.rows ∘ h.rows⟩

theorem grows_print (p : Printer) (text : Text) : Grows p (p.print text) := by
  refine ⟨congrArg Prod.snd (p.device_print text), ?_, fun h => ?_⟩
  · rw [frame_print]
    exact List.prefix_append _ _
  · exact Nat.le_trans h (p.rows_le_print text)

theorem grows_emit (p : Printer) (commands : List Cursor.Command) : Grows p (p.emit commands) := by
  unfold emit
  split
  · rfl
  · exact ⟨rfl, List.prefix_append _ _, id⟩

theorem grows_moveTo (p : Printer) (target : Position) : Grows p (p.moveTo target) := by
  unfold moveTo
  dsimp only
  split
  · rfl
  · exact (p.grows_emit _).trans ⟨rfl, List.prefix_refl _, id⟩

theorem grows_clear (p : Printer) : Grows p p.clear := by
  unfold clear
  dsimp only
  have moved := p.grows_moveTo p.bottomRight
  split
  · exact moved.trans ⟨rfl, List.prefix_refl _, fun _ => Nat.le_refl 1⟩
  · exact (moved.trans (grows_emit _ _)).trans ⟨rfl, List.prefix_refl _, fun _ => Nat.le_refl 1⟩

end Printer

open Printer

theorem Easel.grows_stroke (e : Easel) (s : Stroke) : Grows e.printer (e.stroke s).printer := by
  cases s with
  | print text | printMarked text => exact e.printer.grows_print _
  | printLine text =>
      exact (e.printer.grows_print text).trans ((e.printer.print text).grows_print "\n")
  | moveTo target => exact e.printer.grows_moveTo target
  | emit command => exact e.printer.grows_emit _
  | clear => exact e.printer.grows_clear
  | setWidth width => exact ⟨rfl, List.prefix_refl _, id⟩
  | measure | fail message | savePosition => exact .refl e.printer
  | restorePosition =>
      unfold stroke onPrinter
      cases e.saved with
      | none => exact .refl e.printer
      | some target => exact e.printer.grows_moveTo target

theorem Easel.grows_paint (e : Easel) (painting : Painting) :
    Grows e.printer (e.paint painting).printer := by
  induction painting generalizing e with
  | nil => rfl
  | cons s rest ih =>
      unfold paint
      dsimp only
      split
      · exact e.grows_stroke s
      · exact (e.grows_stroke s).trans (ih _)

theorem Frame.grows_paint (gallery : Gallery) (p : Printer) (visuals : List Visual) :
    Grows p (Frame.paint gallery p visuals).printer := by
  induction visuals generalizing p with
  | nil => rfl
  | cons v rest ih =>
      have painted : Grows p (p.paint (v.painting gallery p.style)).printer :=
        Easel.grows_paint { printer := p } _
      unfold paint
      dsimp only
      split
      · exact painted
      · exact painted.trans (ih _)

/-- The text of a picture follows what the frame held before. -/
theorem Prompt.Pictured.text_prefix {P : Text → Prop} {places : Bool} {painting : Painting}
    (h : Pictured P places painting) (p : Printer) :
    p.frame ++ painting.text p.style <+: (p.paint painting).printer.frame := by
  obtain ⟨body, hbody, hpainting⟩ := h
  have succeeds := Painting.failure?_of_says hbody
  have adds : body.all (Stroke.addsText p.width) = true := by
    rw [List.all_eq_true]
    intro s hs
    have hsays := hbody s hs
    cases s with
    | print text | printLine text | savePosition => rfl
    | printMarked text | moveTo target | emit command | setWidth width | clear | measure
    | fail message | restorePosition => exact hsays.elim
  have hframe : (p.paint body).printer.frame = p.frame ++ body.text p.style :=
    Easel.frame_paint (e := { printer := p }) rfl adds
  rcases hpainting with rfl | rfl
  · exact hframe ▸ List.prefix_refl _
  · have htext : Painting.text p.style (body ++ [.restorePosition]) = body.text p.style := by
      rw [Painting.text_append succeeds]
      exact List.append_nil _
    have happend := Easel.paint_append (e := { printer := p }) rfl succeeds [.restorePosition]
    rw [htext, ← hframe]
    change _ <+: (Easel.paint { printer := p } (body ++ [.restorePosition])).printer.frame
    rw [happend]
    exact (Easel.grows_paint _ _).frame

/-- Whatever a gallery shows is a picture. -/
def Gallery.Pictures (gallery : Gallery) : Prop :=
  ∀ w style, ∃ places, Prompt.Pictured (fun _ => True) places (gallery w style)

theorem Gallery.Pictures.succeeds {gallery : Gallery} (hg : gallery.Pictures) :
    gallery.Succeeds := by
  intro w style
  obtain ⟨places, pictured⟩ := hg w style
  exact pictured.failure?_eq

theorem Scene.pictures_gallery (s : Scene) : s.gallery.Pictures := by
  intro w style
  unfold gallery
  split
  · rename_i widget hwidget
    exact widget.pictured_any s.watch.now style
  · exact ⟨false, .whole (List.forall_mem_nil _)⟩

/-- A widget shows its text in a frame if no visual before it ends the frame. -/
theorem Frame.text_infix {gallery : Gallery} (hg : gallery.Pictures) (w : Nat) (p : Printer)
    {before : List Visual} (after : List Visual) (succeed : ∀ v ∈ before, v.Succeeds) :
    (gallery w p.style).text p.style <:+:
      (Frame.paint gallery p (before ++ .widget w :: after)).printer.frame := by
  induction before generalizing p with
  | nil =>
      obtain ⟨places, pictured⟩ := hg w p.style
      have painted : (p.paint (gallery w p.style)).failure = none := by
        rw [Printer.paint, Easel.failure_paint rfl, pictured.failure?_eq]
      have later := Frame.grows_paint gallery (p.paint (gallery w p.style)).printer after
      have shown := (pictured.text_prefix p).trans later.frame
      rw [List.nil_append, paint]
      dsimp only [Visual.painting]
      rw [painted]
      exact (List.suffix_append _ _).isInfix.trans shown.isInfix
  | cons v before ih =>
      obtain ⟨hv, hbefore⟩ := List.forall_mem_cons.mp succeed
      have painted : (p.paint (v.painting gallery p.style)).failure = none := by
        rw [Printer.paint, Easel.failure_paint rfl, Visual.failure?_painting hg.succeeds hv]
      have grows : Grows p (p.paint (v.painting gallery p.style)).printer :=
        Easel.grows_paint { printer := p } _
      have later := ih (p.paint (v.painting gallery p.style)).printer hbefore
      rw [grows.style] at later
      rw [List.cons_append, paint]
      dsimp only
      rw [painted]
      exact later

theorem Frame.visuals_paint_split (gallery : Gallery) (hg : gallery.Succeeds) (w : Nat)
    (p : Printer) {before : List Visual} (after : List Visual)
    (succeed : ∀ v ∈ before, v.Succeeds) :
    ∃ before' after', (Frame.paint gallery p (before ++ .widget w :: after)).visuals =
      before' ++ .widget w :: after' ∧ ∀ v ∈ before', v.Succeeds := by
  induction before generalizing p with
  | nil =>
      rw [List.nil_append, paint]
      dsimp only
      split
      · exact ⟨[], after, rfl, List.forall_mem_nil _⟩
      · exact ⟨[], _, rfl, List.forall_mem_nil _⟩
  | cons v before ih =>
      obtain ⟨hv, hbefore⟩ := List.forall_mem_cons.mp succeed
      have painted : (p.paint (v.painting gallery p.style)).failure = none := by
        rw [Printer.paint, Easel.failure_paint rfl, Visual.failure?_painting hg hv]
      obtain ⟨before', after', hvisuals, hsucceed⟩ :=
        ih (p.paint (v.painting gallery p.style)).printer hbefore
      refine ⟨v.rendered :: before', after', ?_, List.forall_mem_cons.mpr
        ⟨Visual.succeeds_rendered hv, hsucceed⟩⟩
      rw [List.cons_append, paint]
      dsimp only
      rw [painted]
      exact congrArg (v.rendered :: ·) hvisuals

namespace Canvas

variable {env : Environment} {c : Canvas} {w : Nat} {style : Style} {text : Text} {q : Printer}

/-- An open canvas on which a widget is seen: the sink is willing, and no visual before the widget
ends a frame. -/
structure Exhibits (w : Nat) (c : Canvas) : Prop where
  closed : c.closed = false
  willing : c.sink.behavior.Willing
  visuals : ∃ before after, c.visuals = before ++ .widget w :: after ∧ ∀ v ∈ before, v.Succeeds

/-- An open canvas after the frame that the printer `q` left. Where the width is known, that frame
and then the closing texts were written last. -/
structure Closing (q : Printer) (closing : List Text) (c : Canvas) : Prop where
  closed : c.closed = false
  willing : c.sink.behavior.Willing
  width : ∃ p, c.printer = some p ∧ p.width = q.width
  written : q.width ≠ 0 → c.sink.unflushed = [] ∧ ∃ earlier last,
    c.sink.frames = earlier ++ last :: closing.map Utf8.encode ∧ Utf8.encode q.frame <:+ last

/-- A canvas that exhibits a widget, after a frame that holds a text. -/
structure Left (w : Nat) (style : Style) (text : Text) (q : Printer) (c : Canvas) : Prop
    extends Exhibits w c, Closing q [] c where
  style : q.style = style
  printer : c.printer = some q.emptied
  shown : text <:+: q.frame
  rows : 1 ≤ q.size.rows

/-- A frame that is not empty is written as a whole where the width is known. -/
theorem frames_flush (willing : c.sink.behavior.Willing) {p : Printer} (known : p.width ≠ 0)
    (nonempty : p.frame ≠ []) :
    (c.flush p).2.sink.frames = c.sink.frames ++ [c.sink.unflushed ++ Utf8.encode p.frame] ∧
      (c.flush p).2.sink.unflushed = [] := by
  rw [flush_of_filled c known nonempty]
  exact (Sink.write_of_willing willing p.frame).2

theorem behavior_canvas_flush (c : Canvas) (p : Printer) :
    (c.flush p).2.sink.behavior = c.sink.behavior := by
  have redrawn : Redrawn {} { c with printer := some p.emptied } (c.flush p).2 :=
    redrawn_flush (.refl _ _)
  obtain ⟨texts, htexts⟩ := redrawn.sink
  rw [htexts, Sink.behavior_attempts]

/-- Repainting leaves such a frame, with the text of the widget as it is now. -/
theorem Exhibits.repaint (h : c.Exhibits w) (env : Environment) {gallery : Gallery}
    (hg : gallery.Pictures) (printed : (c.printerIn env).style = style)
    (nonempty : (gallery w style).text style ≠ []) :
    ∃ q, (c.repaint env gallery).canvas.Left w style ((gallery w style).text style) q := by
  obtain ⟨before, after, hvisuals, succeed⟩ := h.visuals
  let p := (c.printerIn env).clear
  have hstyle : p.style = style := (Printer.style_clear (p := c.printerIn env)).trans printed
  have shown := Frame.text_infix hg w p after succeed
  have grows := Frame.grows_paint gallery p (before ++ .widget w :: after)
  rw [hstyle] at shown
  rw [← hvisuals] at shown grows
  have printer := c.printer_repaint env gallery
  refine ⟨(Frame.paint gallery p c.visuals).printer, ⟨?_, ?_, ?_⟩, ⟨_, printer, rfl⟩, ?_, ?_,
    printer, shown, ?_⟩
  · exact (c.closed_repaint env gallery).trans h.closed
  · have hbehavior : (c.repaint env gallery).canvas.sink.behavior = c.sink.behavior :=
      behavior_canvas_flush _ _
    rw [hbehavior]
    exact h.willing
  · have hrendered : (c.repaint env gallery).canvas.visuals =
        (Frame.paint gallery p c.visuals).visuals := visuals_flush _ _
    rw [hrendered, hvisuals]
    exact Frame.visuals_paint_split gallery hg.succeeds w p after succeed
  · intro known
    have hframe : (Frame.paint gallery p c.visuals).printer.frame ≠ [] := by
      intro hempty
      rw [hempty] at shown
      exact nonempty (List.infix_nil.mp shown)
    obtain ⟨hframes, hunflushed⟩ := frames_flush
      (c := { c with visuals := (Frame.paint gallery p c.visuals).visuals }) h.willing known hframe
    exact ⟨hunflushed, _, _, hframes, List.suffix_append _ _⟩
  · exact grows.style.trans hstyle
  · exact grows.rows (Nat.le_refl 1)

/-- A text written past the printer, or in its stead, is one frame more. -/
theorem Closing.write {closing : List Text} (h : c.Closing q closing) (text : Text) :
    (c.write text).2.Closing q (closing ++ [text]) := by
  obtain ⟨-, hframes, hunflushed⟩ := Sink.write_of_willing h.willing text
  refine ⟨h.closed, ?_, h.width, ?_⟩
  · change (c.sink.write text).2.behavior.Willing
    rw [Sink.behavior_write]
    exact h.willing
  · intro known
    obtain ⟨hrest, earlier, last, hwritten, hlast⟩ := h.written known
    refine ⟨hunflushed, earlier, last, ?_, hlast⟩
    refine hframes.trans ?_
    rw [hrest, hwritten, List.map_append, List.append_assoc]
    rfl

theorem Closing.writeSequence {closing : List Text} (h : c.Closing q closing) (env : Environment)
    (sequence : Text) : (c.writeSequence env sequence).2.Closing q (closing ++ [sequence]) := by
  obtain ⟨p, hp, hwidth⟩ := h.width
  have hprinter := printerIn_of_some hp env
  have ready : (c.withPrinter env).Closing q closing :=
    ⟨h.closed, h.willing, ⟨p, congrArg some hprinter, hwidth⟩, h.written⟩
  rw [Canvas.writeSequence, h.closed, if_neg Bool.false_ne_true]
  dsimp only
  rw [printerIn_withPrinter, hprinter]
  split
  · rename_i unknown
    exact ⟨ready.closed, ready.willing, ready.width,
      fun known => absurd (hwidth.symm.trans unknown) known⟩
  · exact ready.write sequence

theorem flush_fst (willing : c.sink.behavior.Willing) (p : Printer) : (c.flush p).1 = .ok () := by
  unfold flush writeLog
  dsimp only
  split
  · split
    · rfl
    · exact (Sink.write_of_willing willing _).1
  · split
    · rfl
    · exact (Sink.write_of_willing willing p.frame).1

/-- Erasing the last frame succeeds, and it is the last that is written. -/
theorem Left.erase (h : c.Left w style text q) :
    c.erase.1 = .ok () ∧ c.erase.2.Closing q [q.emptied.clear.frame] := by
  have hwidth : q.emptied.clear.width = q.width := q.emptied.width_clear
  rw [Canvas.erase, h.printer]
  refine ⟨flush_fst h.willing _, (closed_flush _ _).trans h.closed, ?_, ?_, fun known => ?_⟩
  · rw [behavior_canvas_flush]
    exact h.willing
  · exact ⟨_, printer_flush _ _, hwidth⟩
  · have hsome : q.emptied.clear.frame ≠ [] :=
      Printer.frame_clear_ne_nil (p := q.emptied) known h.rows
    have ready : Closing q [] { c with printer := some q.emptied.clear.emptied } :=
      ⟨h.closed, h.willing, ⟨_, rfl, hwidth⟩, h.written⟩
    dsimp only
    rw [flush_of_filled c (hwidth ▸ known) hsome]
    exact (ready.write _).written known

theorem Exhibits.writeSequence (h : c.Exhibits w) (env : Environment) (sequence : Text) :
    (c.writeSequence env sequence).1 = .ok () ∧ (c.writeSequence env sequence).2.Exhibits w ∧
      (c.writeSequence env sequence).2.printerIn env = c.printerIn env := by
  rw [Canvas.writeSequence, h.closed, if_neg Bool.false_ne_true]
  dsimp only
  split
  · exact ⟨rfl, ⟨h.closed, h.willing, h.visuals⟩, rfl⟩
  · refine ⟨(Sink.write_of_willing h.willing sequence).1, ⟨h.closed, ?_, h.visuals⟩, rfl⟩
    change (c.sink.write sequence).2.behavior.Willing
    rw [Sink.behavior_write]
    exact h.willing

end Canvas

end Inlay
