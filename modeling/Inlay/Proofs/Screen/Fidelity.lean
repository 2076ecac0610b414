import Inlay.Proofs.Scene.Drawing
import Inlay.Proofs.Screen.Frames
import Inlay.Proofs.Threads

namespace Inlay

open Text

namespace Canvas

def frameText (c : Canvas) (env : Environment) (gallery : Gallery) : Text :=
  Frame.text gallery (c.printerIn env).style c.visuals

/-- A canvas that was not drawn yet, with a willing sink that nothing was written to. -/
structure Fresh (w : Nat) (c : Canvas) : Prop where
  closed : c.closed = false
  printer : c.printer = none
  width : c.width = .fixed w
  willing : c.sink.behavior.Willing
  unwritten : c.sink.received = []

/-- A canvas of a known width that was not drawn yet, with a willing sink that nothing was written
to. -/
structure Unused (env : Environment) (w : Nat) (c : Canvas) : Prop where
  closed : c.closed = false
  printer : c.printer = none
  width : c.width.columns env = w
  willing : c.sink.behavior.Willing
  unwritten : c.sink.received = []

/-- The terminal `t'` shows a text from the row on that `t` was in. The printer of the canvas has
the rows of the text and, once it has drawn, the place of the cursor. -/
structure OnScreen (env : Environment) (t t' : Terminal) (c : Canvas) (text : Text) : Prop where
  ground : t'.mode = .ground
  above : ∀ row col, row < t.row → t'.cells row col = t.cells row col
  frame : ∀ row col, t'.cells (t.row + row) col =
    (((layout t.width (Escape.strip text))[row]?).bind (·[col]?)).getD ' '
  rows : (c.printerIn env).size.rows = (layout t.width (Escape.strip text)).length
  cursorRow : t'.row = t.row + (c.printerIn env).position.row
  moved : ∀ target, (c.printerIn env).cursor = some target →
    t'.col = min target.col (t.width - 1)
  resting : c.printer ≠ none → (c.printerIn env).cursor = none →
    (layout t.width (Escape.strip text)).getLast?.map List.length = some t'.col
  wrapped : c.printer ≠ none → (c.printerIn env).cursor = none →
    ∃ wraps, (c.printerIn env).position.col = t'.col + wraps * t.width

/-- A canvas that has written all of its frames, with a printer that knows what is on screen. -/
structure Tracks (env : Environment) (t : Terminal) (c : Canvas) (text : Text) : Prop where
  closed : c.closed = false
  willing : c.sink.behavior.Willing
  encoded : ∃ sent, c.sink.received = Utf8.encode sent
  width : (c.printerIn env).width = t.width
  emptied : (c.printerIn env).frame = []
  covers : (c.printerIn env).Covers (t.receive c.sink.received) t.cells t.row
    (Sheet.write t.width {} (Escape.strip text))

/-- The invariant between drawing calls. Only the first frame puts the cursor into its column. -/
structure Settled (env : Environment) (t : Terminal) (c : Canvas) (text : Text) : Prop extends
    Tracks env t c text where
  undrawn : c.printer = none → text = []
  mirrors : c.printer ≠ none → (c.printerIn env).Mirrors (t.receive c.sink.received) t.cells t.row
    (Sheet.write t.width {} (Escape.strip text))

variable {env : Environment} {gallery : Gallery} {t : Terminal} {c : Canvas} {text : Text}

theorem Fresh.unused {w : Nat} (h : c.Fresh w) (env : Environment) : c.Unused env w := by
  refine ⟨h.closed, h.printer, ?_, h.willing, h.unwritten⟩
  rw [h.width]
  rfl

theorem tracks_unused (positive : 1 ≤ t.width) (ground : t.mode = .ground)
    (blank : ∀ row col, t.row ≤ row → t.cells row col = ' ') (unused : c.Unused env t.width) :
    c.Tracks env t [] := by
  have hprinter : c.printerIn env = { width := t.width, style := c.style.getD env.style } := by
    rw [printerIn_of_none unused.printer, unused.width]
  have hreceive : t.receive c.sink.received = t := by
    rw [unused.unwritten]
    exact t.receive_encode []
  refine ⟨unused.closed, unused.willing, ⟨[], unused.unwritten⟩, ?_, ?_, ?_⟩
  · rw [hprinter]
  · rw [hprinter]
  · rw [hprinter, hreceive]
    exact Printer.covers_new positive ground blank _

-- the column is free still, since the first frame begins with an erasure of its row
theorem settled_fresh (positive : 1 ≤ t.width) (ground : t.mode = .ground)
    (blank : ∀ row col, t.row ≤ row → t.cells row col = ' ') (fresh : c.Fresh t.width) :
    c.Settled env t [] :=
  ⟨tracks_unused positive ground blank (fresh.unused env), fun _ => rfl,
    fun h => absurd fresh.printer h⟩

theorem Tracks.ground (h : c.Tracks env t text) : (t.receive c.sink.received).mode = .ground := by
  have hground := h.covers.shows.ground
  rw [h.emptied] at hground
  exact hground

theorem Tracks.above (h : c.Tracks env t text) {row : Nat} (col : Nat) (habove : row < t.row) :
    (t.receive c.sink.received).cells row col = t.cells row col := by
  have hcell := h.covers.shows.cells row col
  rw [h.emptied, Terminal.run_nil, if_pos habove] at hcell
  exact hcell

theorem Tracks.rows (h : c.Tracks env t text) :
    (Sheet.write t.width {} (Escape.strip text)).rows = layout t.width (Escape.strip text) := by
  have hwidth := h.covers.positive
  rw [h.width] at hwidth
  exact Sheet.rows_write_empty hwidth (Escape.strip text)

theorem Tracks.frame (h : c.Tracks env t text) (row col : Nat) :
    (t.receive c.sink.received).cells (t.row + row) col =
      (((layout t.width (Escape.strip text))[row]?).bind (·[col]?)).getD ' ' := by
  have hcell := h.covers.shows.cells (t.row + row) col
  rw [h.emptied, Terminal.run_nil, if_neg (by omega), Nat.add_sub_cancel_left] at hcell
  rw [hcell, ← h.rows]
  rfl

theorem Settled.onScreen (h : c.Settled env t text) :
    c.OnScreen env t (t.receive c.sink.received) text := by
  have hrows := h.rows
  have hcovers := h.covers
  have hmirrors := h.mirrors
  generalize Sheet.write t.width {} (Escape.strip text) = sheet at *
  constructor
  case ground => exact h.ground
  case above => exact fun row col habove => h.above col habove
  case frame => exact h.frame
  case rows =>
    rw [← hrows, hcovers.counts.rows, Sheet.rows, List.length_append]
    rfl
  case cursorRow =>
    have hrow := hcovers.row
    rw [h.emptied] at hrow
    exact hrow
  case moved =>
    intro target htarget
    have hne : c.printer ≠ none := by
      intro hnone
      rw [printerIn, hnone] at htarget
      cases htarget
    have hcol := (hmirrors hne).col target htarget
    rw [h.emptied, h.width] at hcol
    exact hcol
  case resting =>
    intro hne hcursor
    have hcol := ((hmirrors hne).atEnd hcursor).col
    rw [h.emptied] at hcol
    rw [← hrows, Sheet.rows, List.getLast?_concat, Option.map_some, ← hcol]
    rfl
  case wrapped =>
    intro hne hcursor
    have hcol := ((hmirrors hne).atEnd hcursor).col
    rw [h.emptied, Terminal.run_nil] at hcol
    refine ⟨(c.printerIn env).lineWraps, ?_⟩
    rw [Printer.position, hcursor, hcol, ← h.width, ← hcovers.counts.last]
    exact hcovers.cols

/-- A willing sink gets the whole frame of the printer. -/
theorem flush_of_willing (willing : c.sink.behavior.Willing) {p : Printer} (hw : p.width ≠ 0) :
    ∃ sink, (c.flush p).2 = { c with printer := some p.emptied, sink := sink } ∧
      sink.behavior = c.sink.behavior ∧
      sink.received = c.sink.received ++ Utf8.encode p.frame := by
  rw [flush, if_neg hw]
  split
  · rename_i hempty
    rw [List.isEmpty_iff.mp hempty]
    exact ⟨c.sink, rfl, rfl, (List.append_nil _).symm⟩
  · exact ⟨_, rfl, Sink.behavior_write c.sink p.frame,
      Sink.received_write_of_willing willing p.frame⟩

theorem settled_flush (closed : c.closed = false) (willing : c.sink.behavior.Willing)
    (encoded : ∃ sent, c.sink.received = Utf8.encode sent) {p : Printer} (hw : p.width = t.width)
    (hp : p.Mirrors (t.receive c.sink.received) t.cells t.row
      (Sheet.write t.width {} (Escape.strip text))) :
    (c.flush p).2.Settled env t text := by
  obtain ⟨sent, hsent⟩ := encoded
  obtain ⟨sink, hflush, hbehavior, hreceived⟩ :=
    flush_of_willing willing (Nat.ne_of_gt hp.positive)
  have hread : t.receive sink.received = (t.receive c.sink.received).run p.frame := by
    rw [hreceived, hsent, Terminal.receive_append]
  have hmirrors := Printer.mirrors_emptied hp
  rw [← hread] at hmirrors
  rw [hflush]
  constructor
  case undrawn => exact nofun
  case mirrors => exact fun _ => hmirrors
  case toTracks =>
    constructor
    case closed => exact closed
    case willing => rw [hbehavior]; exact willing
    case encoded => exact ⟨sent ++ p.frame, by rw [hreceived, hsent, Utf8.encode_append]⟩
    case width => exact hw
    case emptied => rfl
    case covers => exact hmirrors.toCovers

theorem settled_repaint (h : c.Tracks env t text)
    (tidy : Frame.Tidy gallery (c.printerIn env).clear c.visuals) :
    (c.repaint env gallery).canvas.Settled env t (c.frameText env gallery) := by
  have hcleared := Printer.mirrors_clear h.covers
  have hprints := Frame.prints_paint tidy
  have hpainted := hprints.mirrors hcleared
  rw [Printer.width_clear, h.width, Printer.style_clear] at hpainted
  have hw := hprints.width
  rw [Printer.width_clear, h.width] at hw
  exact settled_flush (c := { c with visuals := (Frame.paint gallery _ c.visuals).visuals })
    h.closed h.willing h.encoded hw hpainted

theorem settled_erase_of_printer (h : c.Tracks env t text) (hp : c.printer ≠ none) :
    c.erase.2.Settled env t [] := by
  obtain ⟨p, hp⟩ := Option.ne_none_iff_exists'.mp hp
  have hprinter := printerIn_of_some hp env
  have hcleared := Printer.mirrors_clear h.covers
  have hw := h.width
  rw [hprinter] at hcleared hw
  rw [erase, hp]
  exact settled_flush h.closed h.willing h.encoded (p.width_clear.trans hw) hcleared

theorem erase_of_no_printer (hp : c.printer = none) : c.erase.2 = c := by
  rw [erase, hp]

theorem settled_erase (h : c.Settled env t text) : c.erase.2.Settled env t [] := by
  by_cases hp : c.printer = none
  · rw [erase_of_no_printer hp, ← h.undrawn hp]
    exact h
  · exact settled_erase_of_printer h.toTracks hp

/-- An open canvas after a drawing call that the manager allows. -/
def drawn (c : Canvas) (env : Environment) (gallery : Gallery) : DrawCall → Canvas
  | .run | .update => (c.repaint env gallery).canvas
  | .clear => c.erase.2

end Canvas

namespace Scene

variable {s s' : Scene} {c : CanvasRef} {t : Terminal} {text : Text}

def DrawsTidily (s : Scene) (c : CanvasRef) : DrawCall → Prop
  | .run | .update => ∀ e, s.canvases[c]? = some e →
      Frame.Tidy s.gallery (e.canvas.printerIn s.env).clear e.canvas.visuals
  | .clear => True

/-- The text that a drawing call leaves. -/
def textAfter (s : Scene) (c : CanvasRef) : DrawCall → Text
  | .run | .update => (s.canvases[c]?.map fun e => e.canvas.frameText s.env s.gallery).getD []
  | .clear => []

/-- What may happen beside: the canvas gets other visuals, or what they show changes. -/
structure Apart (c : CanvasRef) (s s' : Scene) : Prop where
  env : s'.env = s.env
  allowed : s'.canUpdate (s'.managerOf c) c = true
  canvas : ∀ e, s.canvases[c]? = some e → ∃ e' visuals,
    s'.canvases[c]? = some e' ∧ e'.canvas = { e.canvas with visuals := visuals }

/-- Scenes that come of drawing on a canvas, with the text of its last frame. -/
inductive Session (c : CanvasRef) (s : Scene) : Scene → Text → Prop
  | begun : Session c s s []
  | draw {s' : Scene} {text : Text} (session : Session c s s' text) (call : DrawCall)
      (tidy : s'.DrawsTidily c call) : Session c s (s'.draw c call).2 (s'.textAfter c call)
  | meanwhile {s' s'' : Scene} {text : Text} (session : Session c s s' text)
      (apart : Apart c s' s'') : Session c s s'' text

structure Settled (s : Scene) (c : CanvasRef) (t : Terminal) (text : Text) : Prop where
  allowed : s.canUpdate (s.managerOf c) c = true
  canvas : ∃ e, s.canvases[c]? = some e ∧ e.canvas.Settled s.env t text

theorem canvases_repaintUnlessClosed {e : CanvasEntry} (he : s.canvases[c]? = some e)
    (hopen : e.canvas.closed = false) :
    (s.repaintUnlessClosed c).2.canvases[c]? =
      some { e with canvas := (e.canvas.repaint s.env s.gallery).canvas } := by
  rw [repaintUnlessClosed, he]
  dsimp only
  rw [hopen, if_neg Bool.false_ne_true]
  exact canvases_modifyCanvas_self he fun _ => (e.canvas.repaint s.env s.gallery).canvas

theorem canvases_draw {e : CanvasEntry} (he : s.canvases[c]? = some e)
    (hopen : e.canvas.closed = false) (allowed : s.canUpdate (s.managerOf c) c = true)
    (call : DrawCall) :
    (s.draw c call).2.canvases[c]? =
      some { e with canvas := e.canvas.drawn s.env s.gallery call } := by
  cases call with
  | update =>
      rw [Scene.draw, update, if_pos allowed]
      exact canvases_repaintUnlessClosed he hopen
  | run =>
      have hallowed := ((sameStanding_preparePrinter s c).canUpdate c).trans allowed
      have he' := canvases_modifyCanvas_self he (·.withPrinter s.env)
      rw [Scene.draw, run, update, if_pos hallowed]
      exact canvases_repaintUnlessClosed (e := { e with canvas := e.canvas.withPrinter s.env }) he'
        hopen
  | clear =>
      rw [Scene.draw, clear, if_pos allowed, eraseUnlessClosed, he]
      dsimp only
      rw [Canvas.eraseUnlessClosed, hopen]
      exact canvases_modifyCanvas_self he _

theorem Settled.draw (h : s.Settled c t text) {call : DrawCall} (tidy : s.DrawsTidily c call) :
    (s.draw c call).2.Settled c t (s.textAfter c call) := by
  have hsame := sameStanding_draw s c call
  obtain ⟨e, he, hcanvas⟩ := h.canvas
  refine ⟨(hsame.canUpdate c).trans h.allowed, _,
    canvases_draw he hcanvas.closed h.allowed call, ?_⟩
  rw [hsame.env]
  cases call with
  | run | update =>
      rw [textAfter, he]
      exact Canvas.settled_repaint hcanvas.toTracks (tidy e he)
  | clear => exact Canvas.settled_erase hcanvas

theorem Settled.apart (h : s.Settled c t text) (apart : Apart c s s') : s'.Settled c t text := by
  obtain ⟨e, he, hcanvas⟩ := h.canvas
  obtain ⟨e', visuals, he', heq⟩ := apart.canvas e he
  refine ⟨apart.allowed, e', he', ?_⟩
  rw [heq, apart.env]
  exact ⟨⟨hcanvas.closed, hcanvas.willing, hcanvas.encoded, hcanvas.width, hcanvas.emptied,
    hcanvas.covers⟩, hcanvas.undrawn, hcanvas.mirrors⟩

/-- A canvas is begun on a blank row with blank rows below it. After every call of a session the
text of the last frame is on screen, as far as that came, nothing is left of the frames before and
no row above is touched. -/
theorem onScreen_session {e : CanvasEntry} (he : s.canvases[c]? = some e)
    (positive : 1 ≤ t.width) (ground : t.mode = .ground)
    (blank : ∀ row col, t.row ≤ row → t.cells row col = ' ') (fresh : e.canvas.Fresh t.width)
    (allowed : s.canUpdate (s.managerOf c) c = true) (session : Session c s s' text) :
    ∃ e', s'.canvases[c]? = some e' ∧
      e'.canvas.OnScreen s'.env t (t.receive e'.canvas.sink.received) text := by
  have settled : s'.Settled c t text := by
    induction session with
    | begun => exact ⟨allowed, e, he, Canvas.settled_fresh positive ground blank fresh⟩
    | draw _ call tidy ih => exact ih.draw tidy
    | meanwhile _ apart ih => exact ih.apart apart
  obtain ⟨e', he', hcanvas⟩ := settled.canvas
  exact ⟨e', he', hcanvas.onScreen⟩

/-- A first frame that wraps and ends early, and a second that moves the cursor. -/
def twoFrames : Scene :=
  (newCanvas {} 0
    { visuals := [.drawn (fun frame =>
        if frame = 0 then [.print "abcd", .fail "no"]
        else [.printLine "e", .print "f", .moveTo ⟨0, 1⟩]) 0]
      width := .fixed 3 }).2

def blankTerminal : Terminal where
  width := 3
  cells := fun _ _ => ' '
  row := 2
  col := 1

theorem onScreen_session_twoFrames :
    ∃ e, ((twoFrames.draw 0 .run).2.draw 0 .update).2.canvases[0]? = some e ∧
      e.canvas.OnScreen {} blankTerminal (blankTerminal.receive e.canvas.sink.received) "e\nf" := by
  have first : twoFrames.DrawsTidily 0 .run := by
    intro e he
    obtain rfl := Option.some.inj he
    have hd : Displayable "abcd" := ⟨_, Displays.of_plain (by decide)⟩
    exact ⟨⟨⟨hd, fun _ => rfl⟩, fun _ => ⟨trivial, nofun⟩⟩, nofun⟩
  have second : (twoFrames.draw 0 .run).2.DrawsTidily 0 .update := by
    intro e he
    obtain rfl := Option.some.inj he
    have hline : Displayable "e" := ⟨_, Displays.of_plain (by decide)⟩
    have hlast : Displayable "f" := ⟨_, Displays.of_plain (by decide)⟩
    exact ⟨⟨⟨hline, rfl⟩, fun _ => ⟨⟨hlast, fun _ => rfl⟩, fun _ => ⟨Nat.two_pos, fun _ =>
      trivial⟩⟩⟩, fun _ => trivial⟩
  exact onScreen_session (s := twoFrames) (t := blankTerminal) rfl (by decide) rfl
    (fun _ _ _ => rfl) ⟨rfl, rfl, rfl, Sink.Behavior.willing_faultless, rfl⟩ rfl
    (.draw (.draw .begun .run first) .update second)

end Scene

end Inlay
