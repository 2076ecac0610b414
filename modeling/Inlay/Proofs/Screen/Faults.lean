import Inlay.Proofs.Scene.Calls
import Inlay.Proofs.Screen.Interrupted
/-!
A canvas of known width whose sink may fault. The printer counts the rows of a frame also where the
sink took only a part of it, and the next call erases as many rows from the cursor up. So nothing is
touched above the canvas as long as the rows counted have reached the terminal after each fault.
-/

namespace Inlay

open Text

/-- A stroke that prints a text that is displayed, or leaves the printer alone. -/
def Stroke.OnlyPrints (style : Style) : Stroke → Prop
  | .print text | .printLine text => Displayable text
  | .printMarked text => Displayable (style.render text)
  | .measure | .fail _ | .savePosition => True
  | .moveTo _ | .emit _ | .setWidth _ | .clear | .restorePosition => False

def Visual.OnlyPrints (gallery : Gallery) (style : Style) (v : Visual) : Prop :=
  ∀ s ∈ v.painting gallery style, s.OnlyPrints style

theorem Stroke.addsText_of_onlyPrints {s : Stroke} {style : Style} (h : s.OnlyPrints style)
    (w : Nat) : s.addsText w = true := by
  cases s with
  | print text | printLine text | printMarked text | measure | fail message | savePosition => rfl
  | moveTo target | emit command | setWidth width | clear | restorePosition => exact h.elim

theorem Visual.addsText_of_onlyPrints {gallery : Gallery} {p : Printer} {v : Visual}
    (h : v.OnlyPrints gallery p.style) : v.AddsText gallery p := by
  apply List.all_eq_true.mpr
  intro s hs
  exact Stroke.addsText_of_onlyPrints (h s hs) p.width

namespace Easel

variable {e : Easel}

theorem allows_of_onlyPrints {s : Stroke} (h : s.OnlyPrints e.printer.style)
    (rests : e.printer.cursor = none) :
    e.Allows s ∧ (e.stroke s).printer.cursor = none := by
  cases s with
  | print text => exact ⟨⟨h, fun _ => rests⟩, Printer.cursor_print rests text⟩
  | printLine text =>
      exact ⟨⟨h, rests⟩, Printer.cursor_print (Printer.cursor_print rests text) _⟩
  | printMarked text => exact ⟨⟨h, fun _ => rests⟩, Printer.cursor_print rests _⟩
  | measure | fail message | savePosition => exact ⟨trivial, rests⟩
  | moveTo target | emit command | setWidth width | clear | restorePosition => exact h.elim

theorem allowsAll_of_onlyPrints {painting : Painting}
    (h : ∀ s ∈ painting, s.OnlyPrints e.printer.style) (rests : e.printer.cursor = none) :
    e.AllowsAll painting ∧ (e.paint painting).printer.cursor = none := by
  induction painting generalizing e with
  | nil => exact ⟨trivial, rests⟩
  | cons s rest ih =>
      rw [List.forall_mem_cons] at h
      obtain ⟨hs, hrest⟩ := h
      obtain ⟨hallows, hcursor⟩ := allows_of_onlyPrints hs rests
      have hdevice := e.device_stroke
        (Stroke.keepsWidth_of_addsText (Stroke.addsText_of_onlyPrints hs e.printer.width))
      have hstyle : (e.stroke s).printer.style = e.printer.style := congrArg Prod.snd hdevice
      rw [← hstyle] at hrest
      obtain ⟨hall, hpainted⟩ := ih hrest hcursor
      refine ⟨⟨hallows, fun _ => hall⟩, ?_⟩
      rw [paint]
      split
      · exact hcursor
      · exact hpainted

end Easel

/-- A frame whose visuals only print is tidy and leaves the cursor where its text ends. -/
theorem Frame.tidy_of_onlyPrints {gallery : Gallery} {p : Printer} {visuals : List Visual}
    (h : ∀ v ∈ visuals, v.OnlyPrints gallery p.style) (rests : p.cursor = none) :
    Tidy gallery p visuals ∧ (paint gallery p visuals).printer.cursor = none := by
  induction visuals generalizing p with
  | nil => exact ⟨trivial, rests⟩
  | cons v rest ih =>
      rw [List.forall_mem_cons] at h
      obtain ⟨hv, hrest⟩ := h
      obtain ⟨hallows, hcursor⟩ := Easel.allowsAll_of_onlyPrints (e := { printer := p }) hv rests
      have hdevice := Visual.device_paint (Visual.addsText_of_onlyPrints hv)
      have hstyle : (p.paint (v.painting gallery p.style)).printer.style = p.style :=
        congrArg Prod.snd hdevice
      rw [← hstyle] at hrest
      obtain ⟨htidy, hpainted⟩ := ih hrest hcursor
      refine ⟨⟨hallows, fun _ => htidy⟩, ?_⟩
      rw [paint]
      dsimp only
      split
      · exact hcursor
      · exact hpainted

namespace Printer

/-- A printer between frames that has counted the rows of a sheet, with the cursor where that
ends. -/
structure Rests (w : Nat) (sheet : Sheet) (p : Printer) : Prop where
  positive : 1 ≤ w
  width : p.width = w
  emptied : p.frame = []
  cursor : p.cursor = none
  cols : p.size.cols = Measure.visibleLength p.line
  counts : p.Counts sheet

variable {p : Printer} {w : Nat} {sheet : Sheet}

/-- There is a terminal that such a printer covers. -/
theorem Rests.covers (h : p.Rests w sheet) :
    ∃ t : Terminal, p.Covers t t.cells 0 sheet := by
  have hrows := h.counts.rows
  have hposition : p.position.row = p.size.rows - 1 := by
    rw [position, h.cursor]
    rfl
  refine ⟨{ width := w, cells := sheet.cell, row := p.size.rows - 1, col := 0 }, ?_⟩
  constructor
  case positive => rw [h.width]; exact h.positive
  case counts => exact h.counts
  case cols => exact h.cols
  case shows =>
    rw [h.emptied, Terminal.run_nil]
    exact ⟨h.width.symm, rfl, fun row col => (if_neg (Nat.not_lt_zero row)).symm⟩
  case inside => omega
  case row =>
    rw [h.emptied, Terminal.run_nil, hposition]
    exact (Nat.zero_add _).symm

theorem Rests.frame_clear (h : p.Rests w sheet) :
    p.clear.frame = Cursor.sequences (clearRows (p.size.rows - 1)) := by
  have hwidth : p.width ≠ 0 := by
    rw [h.width]
    exact Nat.ne_of_gt h.positive
  have hrows : p.size.rows ≠ 0 := by
    rw [h.counts.rows]
    exact Nat.succ_ne_zero _
  have hposition : p.position = p.bottomRight := by
    rw [position, h.cursor]
    rfl
  rw [clear, ← hposition, moveTo_position]
  dsimp only
  rw [if_neg hrows, emit_of_ne_zero hwidth, h.emptied]
  rfl

/-- After a frame whose visuals only print the printer has counted its text. -/
theorem Rests.painted (h : p.Rests w sheet) {gallery : Gallery} {visuals : List Visual}
    (only : ∀ v ∈ visuals, v.OnlyPrints gallery p.style) :
    let painted := (Frame.paint gallery p.clear visuals).printer
    let text := Frame.text gallery p.style visuals
    painted.frame = Cursor.sequences (clearRows (p.size.rows - 1)) ++ text ∧
      painted.emptied.Rests w (Sheet.write w {} (Escape.strip text)) ∧ Displayable text := by
  intro painted text
  obtain ⟨t, hcovers⟩ := h.covers
  have hstyle : p.clear.style = p.style := p.style_clear
  have hwidth : p.clear.width = w := p.width_clear.trans h.width
  rw [← hstyle] at only
  obtain ⟨htidy, hcursor⟩ := Frame.tidy_of_onlyPrints only rfl
  obtain ⟨hframe, hdevice⟩ := Frame.frame_paint fun v hv =>
    Visual.addsText_of_onlyPrints (only v hv)
  have hprints := Frame.prints_paint htidy
  have hmirrors := hprints.mirrors (mirrors_clear hcovers)
  rw [hstyle] at hframe hmirrors hprints
  rw [hwidth] at hmirrors
  refine ⟨by rw [hframe, h.frame_clear], ?_, hprints.displayable⟩
  exact ⟨h.positive, (congrArg Prod.fst hdevice).trans hwidth, rfl, hcursor, hmirrors.cols,
    hmirrors.counts.reframe [] _⟩

theorem Rests.cleared (h : p.Rests w sheet) : p.clear.emptied.Rests w {} :=
  ⟨h.positive, p.width_clear.trans h.width, rfl, rfl, rfl, counts_newLine rfl rfl rfl⟩

end Printer

namespace Canvas

variable {env : Environment} {gallery : Gallery} {t : Terminal} {c : Canvas} {sheet : Sheet}

/-- An open canvas of a known width that was not drawn yet. -/
structure Undrawn (env : Environment) (w : Nat) (c : Canvas) : Prop where
  closed : c.closed = false
  printer : c.printer = none
  width : c.width.columns env = w
  unwritten : c.sink.received = []

/-- A terminal that reads what the sink of the canvas has got. -/
def shownOn (t : Terminal) (c : Canvas) : Terminal := t.read c.sink.received

/-- The printer of the canvas has counted a sheet, which may not be what is on the terminal. -/
structure Counted (env : Environment) (t : Terminal) (sheet : Sheet) (c : Canvas) : Prop where
  closed : c.closed = false
  rests : (c.printerIn env).Rests t.width sheet
  below : ∀ row col, (c.shownOn t).row < row → (c.shownOn t).cells row col = ' '
  undrawn : c.printer = none → sheet = {} ∧ ∀ col, (c.shownOn t).cells (c.shownOn t).row col = ' '

/-- What a call does to a terminal: nothing above the row `top`, and if the call was not refused the
sheet stands from that row on. -/
structure Redraws (t : Terminal) (top : Nat) (sheet : Sheet) (result : Except Failure Unit)
    (t' : Terminal) : Prop where
  within : t'.Within t.cells top
  cells : ¬ Unwritten result → ∀ row col, t'.cells row col =
    if row < top then t.cells row col else sheet.cell (row - top) col
  row : ¬ Unwritten result → t'.row = top + sheet.above.length

theorem Undrawn.counted (h : c.Undrawn env t.width) (positive : 1 ≤ t.width)
    (blank : ∀ row col, t.row ≤ row → t.cells row col = ' ') : c.Counted env t {} := by
  have hprinter : c.printerIn env = { width := t.width, style := c.style.getD env.style } := by
    rw [printerIn_of_none h.printer, h.width]
  have hshown : c.shownOn t = t := by
    rw [shownOn, h.unwritten]
    rfl
  constructor
  case closed => exact h.closed
  case rests =>
    rw [hprinter]
    exact ⟨positive, rfl, rfl, rfl, rfl, Printer.counts_newLine rfl rfl rfl⟩
  case below =>
    rw [hshown]
    exact fun row col hrow => blank row col (Nat.le_of_lt hrow)
  case undrawn =>
    intro _
    rw [hshown]
    exact ⟨rfl, fun col => blank t.row col (Nat.le_refl _)⟩

/-- A flush of a frame that begins with the erasure of the rows counted. -/
theorem Counted.flush (h : c.Counted env t sheet) {p : Printer} {text plain : Text}
    (frame : p.frame =
      Cursor.sequences (Printer.clearRows ((c.printerIn env).size.rows - 1)) ++ text)
    (hd : Displays text plain) (rests : p.emptied.Rests t.width (Sheet.write t.width {} plain))
    (visuals : List Visual) {result : Except Failure Unit}
    (written : ¬ Unwritten result → ({ c with visuals := visuals }.flush p).1 = .ok ()) :
    let c' := ({ c with visuals := visuals }.flush p).2
    c'.Counted env t (Sheet.write t.width {} plain) ∧
      Redraws (c.shownOn t) ((c.shownOn t).row + 1 - (c.printerIn env).size.rows)
        (Sheet.write t.width {} plain) result (c'.shownOn t) := by
  intro c'
  have hwidth : p.width ≠ 0 := by
    rw [show p.width = t.width from rests.width]
    exact Nat.ne_of_gt rests.positive
  have hrows := h.rests.counts.rows
  obtain ⟨taken, hprefix, hreceived, hall⟩ := takes_flush { c with visuals := visuals } hwidth
  rw [frame] at hprefix hall
  have afresh : Utf8.StartsAfresh taken := by
    generalize (c.printerIn env).size.rows - 1 = above at hprefix
    cases above with
    | zero => exact Utf8.startsAfresh_of_isPrefix (c := '\x1b') (by decide) hprefix
    | succ above => exact Utf8.startsAfresh_of_isPrefix (c := '\x1b') (by decide) hprefix
  have hshown : c'.shownOn t = (c.shownOn t).read taken := by
    rw [shownOn, shownOn, ← Terminal.read_append afresh]
    exact congrArg t.read hreceived
  have htop : (c.shownOn t).row + 1 - (c.printerIn env).size.rows =
      (c.shownOn t).row - ((c.printerIn env).size.rows - 1) := by omega
  have within := Terminal.within_frame h.below hd hprefix
  rw [← hshown, ← htop] at within
  constructor
  · constructor
    case closed => exact (closed_flush _ _).trans h.closed
    case rests =>
      rw [printerIn, printer_flush]
      exact rests
    case below => exact within.below
    case undrawn =>
      intro hnone
      rw [printer_flush] at hnone
      cases hnone
  · have arrived : ¬ Unwritten result → c'.shownOn t = (c.shownOn t).read (Utf8.encode
        (Cursor.sequences (Printer.clearRows ((c.printerIn env).size.rows - 1)) ++ text)) := by
      intro hwritten
      rw [hshown, hall (written hwritten)]
    have hwidth : (c.shownOn t).width = t.width := Terminal.width_follow t _
    obtain ⟨hshows, hend⟩ :=
      Terminal.shows_frame ((c.printerIn env).size.rows - 1) h.below hd
    rw [← htop, hwidth] at hshows hend
    constructor
    case within => exact within
    case cells =>
      intro hwritten
      rw [arrived hwritten]
      exact hshows.cells
    case row =>
      intro hwritten
      rw [arrived hwritten]
      exact hend.row

theorem Counted.repaint (h : c.Counted env t sheet)
    (only : ∀ v ∈ c.visuals, v.OnlyPrints gallery (c.printerIn env).style) :
    (c.repaint env gallery).canvas.Counted env t
        (Sheet.write t.width {} (Escape.strip (c.frameText env gallery))) ∧
      Redraws (c.shownOn t) ((c.shownOn t).row + 1 - (c.printerIn env).size.rows)
        (Sheet.write t.width {} (Escape.strip (c.frameText env gallery)))
        (c.repaint env gallery).result ((c.repaint env gallery).canvas.shownOn t) := by
  obtain ⟨hframe, hrests, plain, hd⟩ := h.rests.painted only
  obtain ⟨-, hwritten⟩ := repaint_eq c env gallery
  have hstrip : Escape.strip (c.frameText env gallery) = plain := Escape.strip_of_displays hd
  rw [Escape.strip_of_displays hd] at hrests
  rw [hstrip]
  exact h.flush hframe hd hrests _ hwritten.mp

theorem Counted.erase (h : c.Counted env t sheet) :
    c.erase.2.Counted env t {} ∧
      Redraws (c.shownOn t) ((c.shownOn t).row + 1 - (c.printerIn env).size.rows) {}
        (Scene.asOutput c.erase.1) (c.erase.2.shownOn t) := by
  cases hp : c.printer with
  | none =>
      -- nothing was drawn that could be erased
      obtain ⟨rfl, hblank⟩ := h.undrawn hp
      have htop : (c.shownOn t).row + 1 - (c.printerIn env).size.rows = (c.shownOn t).row := by
        rw [h.rests.counts.rows]
        rfl
      have herase : c.erase = (.ok (), c) := by
        rw [Canvas.erase, hp]
      rw [herase, htop]
      refine ⟨h, Terminal.within_self h.below 0, fun _ row col => ?_, fun _ => rfl⟩
      rw [Sheet.cell_empty]
      rcases Nat.lt_trichotomy row (c.shownOn t).row with hlt | rfl | hgt
      · rw [if_pos hlt]
      · rw [if_neg (Nat.lt_irrefl _)]
        exact hblank col
      · rw [if_neg (Nat.lt_asymm hgt)]
        exact h.below row col hgt
  | some p =>
      have hprinter := printerIn_of_some hp env
      have herase : c.erase = c.flush p.clear := by
        rw [Canvas.erase, hp]
      have hrests := h.rests.cleared
      rw [hprinter] at hrests
      have hframe : p.clear.frame =
          Cursor.sequences (Printer.clearRows ((c.printerIn env).size.rows - 1)) ++ [] := by
        rw [List.append_nil, ← h.rests.frame_clear, hprinter]
      rw [herase]
      exact h.flush hframe .nil hrests c.visuals written_asOutput_iff.mp

end Canvas

namespace Scene

variable {s s' : Scene} {c : CanvasRef} {e : CanvasEntry} {t : Terminal} {sheet : Sheet}

def shownOn (t : Terminal) (s : Scene) (c : CanvasRef) : Terminal := t.read (s.received c)

/-- The rows that the printer of a canvas has counted, and that the next call erases. -/
def rowsCounted (s : Scene) (c : CanvasRef) : Nat := ((s.printer c).map (·.size.rows)).getD 0

/-- As many rows have reached the terminal, from the one on where the canvas was begun, as its
printer has counted. -/
def Reached (s : Scene) (c : CanvasRef) (t : Terminal) : Prop :=
  t.row + s.rowsCounted c ≤ (s.shownOn t c).row + 1

/-- The visuals of the canvas only print, if the call lets them paint. -/
def OnlyPrints (s : Scene) (c : CanvasRef) : DrawCall → Prop
  | .run | .update => ∀ e, s.canvases[c]? = some e →
      ∀ v ∈ e.canvas.visuals, v.OnlyPrints s.gallery (e.canvas.printerIn s.env).style
  | .clear => True

/-- Scenes that come of drawing on a canvas with visuals that only print, whatever its sink refuses,
with the scenes right after the calls of which it refused something. -/
inductive FaultySession (c : CanvasRef) (s : Scene) : Scene → List Scene → Prop
  | begun : FaultySession c s s []
  | written {s' : Scene} {faulted : List Scene} (session : FaultySession c s s' faulted)
      (call : DrawCall) (only : s'.OnlyPrints c call)
      (written : ¬ Unwritten (s'.draw c call).1) : FaultySession c s (s'.draw c call).2 faulted
  | unwritten {s' : Scene} {faulted : List Scene} (session : FaultySession c s s' faulted)
      (call : DrawCall) (only : s'.OnlyPrints c call) (unwritten : Unwritten (s'.draw c call).1) :
      FaultySession c s (s'.draw c call).2 ((s'.draw c call).2 :: faulted)
  | meanwhile {s' s'' : Scene} {faulted : List Scene} (session : FaultySession c s s' faulted)
      (apart : Apart c s' s'') : FaultySession c s s'' faulted

structure Counted (s : Scene) (c : CanvasRef) (t : Terminal) (sheet : Sheet) : Prop where
  allowed : s.canUpdate (s.managerOf c) c = true
  canvas : ∃ e, s.canvases[c]? = some e ∧ e.canvas.Counted s.env t sheet

theorem shownOn_of_getElem? (he : s.canvases[c]? = some e) (t : Terminal) :
    s.shownOn t c = e.canvas.shownOn t := by
  rw [shownOn, received_of_getElem? he]
  rfl

theorem rowsCounted_of_getElem? (he : s.canvases[c]? = some e) :
    s.rowsCounted c = (e.canvas.printerIn s.env).size.rows := by
  rw [rowsCounted, printer, he]
  rfl

theorem Counted.rows (h : s.Counted c t sheet) : s.rowsCounted c = sheet.above.length + 1 := by
  obtain ⟨e, he, hcanvas⟩ := h.canvas
  rw [rowsCounted_of_getElem? he, hcanvas.rests.counts.rows]

theorem Counted.draw (h : s.Counted c t sheet) {call : DrawCall} (only : s.OnlyPrints c call) :
    (s.draw c call).2.Counted c t (Sheet.write t.width {} (Escape.strip (s.textAfter c call))) ∧
      Canvas.Redraws (s.shownOn t c) ((s.shownOn t c).row + 1 - s.rowsCounted c)
        (Sheet.write t.width {} (Escape.strip (s.textAfter c call))) (s.draw c call).1
        ((s.draw c call).2.shownOn t c) := by
  have hsame := sameStanding_draw s c call
  obtain ⟨e, he, hcanvas⟩ := h.canvas
  have he' := canvases_draw he hcanvas.closed h.allowed call
  have hresult := result_draw he ((draws_iff he).mpr ⟨h.allowed, hcanvas.closed⟩) call
  have hdrawn : (e.canvas.drawn s.env s.gallery call).Counted s.env t
        (Sheet.write t.width {} (Escape.strip (s.textAfter c call))) ∧
      Canvas.Redraws (e.canvas.shownOn t)
        ((e.canvas.shownOn t).row + 1 - (e.canvas.printerIn s.env).size.rows)
        (Sheet.write t.width {} (Escape.strip (s.textAfter c call)))
        (e.canvas.drawnResult s.env s.gallery call)
        ((e.canvas.drawn s.env s.gallery call).shownOn t) := by
    cases call with
    | run | update =>
        rw [textAfter, he]
        exact hcanvas.repaint (only e he)
    | clear => exact hcanvas.erase
  rw [shownOn_of_getElem? he, shownOn_of_getElem? he', rowsCounted_of_getElem? he, hresult]
  refine ⟨⟨(hsame.canUpdate c).trans h.allowed, _, he', ?_⟩, hdrawn.2⟩
  rw [hsame.env]
  exact hdrawn.1

theorem Counted.apart (h : s.Counted c t sheet) (apart : Apart c s s') :
    s'.Counted c t sheet ∧ s'.shownOn t c = s.shownOn t c := by
  obtain ⟨e, he, hcanvas⟩ := h.canvas
  obtain ⟨e', visuals, he', heq⟩ := apart.canvas e he
  have hshown : e'.canvas.shownOn t = e.canvas.shownOn t := by
    rw [heq]
    rfl
  refine ⟨⟨apart.allowed, e', he', ?_⟩, ?_⟩
  · rw [heq, apart.env]
    exact ⟨hcanvas.closed, hcanvas.rests, hcanvas.below, hcanvas.undrawn⟩
  · rw [shownOn_of_getElem? he, shownOn_of_getElem? he', hshown]

theorem counted_faultySession {faulted : List Scene} (he : s.canvases[c]? = some e)
    (positive : 1 ≤ t.width) (blank : ∀ row col, t.row ≤ row → t.cells row col = ' ')
    (undrawn : e.canvas.Undrawn s.env t.width) (allowed : s.canUpdate (s.managerOf c) c = true)
    (session : FaultySession c s s' faulted) : ∃ sheet, s'.Counted c t sheet := by
  induction session with
  | begun => exact ⟨{}, allowed, e, he, undrawn.counted positive blank⟩
  | written _ call only _ ih | unwritten _ call only _ ih =>
      obtain ⟨sheet, hcounted⟩ := ih
      exact ⟨_, (hcounted.draw only).1⟩
  | meanwhile _ apart ih =>
      obtain ⟨sheet, hcounted⟩ := ih
      exact ⟨sheet, (hcounted.apart apart).1⟩

/-- A call on a canvas whose rows have reached the terminal leaves everything above the canvas
alone, and unless the call is refused the new rows reach the terminal too. -/
theorem Counted.draw_of_reached (h : s.Counted c t sheet) (reached : s.Reached c t)
    {call : DrawCall} (only : s.OnlyPrints c call) :
    (∀ row col, row < t.row →
      ((s.draw c call).2.shownOn t c).cells row col = (s.shownOn t c).cells row col) ∧
      (¬ Unwritten (s.draw c call).1 → (s.draw c call).2.Reached c t) := by
  obtain ⟨hcounted, redraws⟩ := h.draw only
  have hrows := hcounted.rows
  unfold Reached at reached ⊢
  constructor
  · intro row col hrow
    exact redraws.within.above row col (by omega)
  · intro written
    have hrow := redraws.row written
    omega

theorem reached_faultySession {faulted : List Scene} (he : s.canvases[c]? = some e)
    (positive : 1 ≤ t.width) (blank : ∀ row col, t.row ≤ row → t.cells row col = ' ')
    (undrawn : e.canvas.Undrawn s.env t.width) (allowed : s.canUpdate (s.managerOf c) c = true)
    (session : FaultySession c s s' faulted) (reached : ∀ s₁ ∈ faulted, s₁.Reached c t) :
    s'.Reached c t ∧
      ∀ row col, row < t.row → (s'.shownOn t c).cells row col = t.cells row col := by
  have counted {s' : Scene} {faulted : List Scene} (session : FaultySession c s s' faulted) :=
    counted_faultySession he positive blank undrawn allowed session
  induction session with
  | begun =>
      have hshown : s.shownOn t c = t := by
        rw [shownOn, received_of_getElem? he, undrawn.unwritten]
        rfl
      have hrows : s.rowsCounted c = 1 :=
        Counted.rows ⟨allowed, e, he, undrawn.counted positive blank⟩
      rw [Reached, hshown, hrows]
      exact ⟨Nat.le_refl _, fun _ _ _ => rfl⟩
  | written session call only written ih =>
      obtain ⟨hreached, habove⟩ := ih reached
      obtain ⟨sheet, hcounted⟩ := counted session
      obtain ⟨hcells, hreached'⟩ := hcounted.draw_of_reached hreached only
      exact ⟨hreached' written, fun row col hrow =>
        (hcells row col hrow).trans (habove row col hrow)⟩
  | unwritten session call only _ ih =>
      rw [List.forall_mem_cons] at reached
      obtain ⟨hreached, habove⟩ := ih reached.2
      obtain ⟨sheet, hcounted⟩ := counted session
      obtain ⟨hcells, -⟩ := hcounted.draw_of_reached hreached only
      exact ⟨reached.1, fun row col hrow => (hcells row col hrow).trans (habove row col hrow)⟩
  | meanwhile session apart ih =>
      obtain ⟨sheet, hcounted⟩ := counted session
      obtain ⟨hcounted', hshown⟩ := hcounted.apart apart
      have hrows := hcounted.rows.trans hcounted'.rows.symm
      rw [Reached, hshown, ← hrows]
      exact ih reached

/-- The sink of a canvas may fault in any call. If after each fault as many rows have reached the
terminal as the printer has counted, nothing above the canvas is ever changed. In any case a call
changes nothing above the rows that were counted, the last of them being the row of the cursor; and
from the first of these rows on a call that is not refused leaves its frame. -/
theorem untouched_faultySession {faulted : List Scene} (he : s.canvases[c]? = some e)
    (positive : 1 ≤ t.width) (blank : ∀ row col, t.row ≤ row → t.cells row col = ' ')
    (undrawn : e.canvas.Undrawn s.env t.width) (allowed : s.canUpdate (s.managerOf c) c = true)
    (session : FaultySession c s s' faulted) :
    ((∀ s₁ ∈ faulted, s₁.Reached c t) →
        ∀ row col, row < t.row → (s'.shownOn t c).cells row col = t.cells row col) ∧
      ∀ call, s'.OnlyPrints c call →
        let first := (s'.shownOn t c).row + 1 - s'.rowsCounted c
        let t' := (s'.draw c call).2.shownOn t c
        (∀ row col, row < first → t'.cells row col = (s'.shownOn t c).cells row col) ∧
          (¬ Unwritten (s'.draw c call).1 → ∀ row col, t'.cells (first + row) col =
            (((layout t.width (Escape.strip (s'.textAfter c call)))[row]?).bind (·[col]?)).getD
              ' ') := by
  constructor
  · intro reached
    exact (reached_faultySession he positive blank undrawn allowed session reached).2
  · intro call only first t'
    obtain ⟨sheet, hcounted⟩ :=
      counted_faultySession he positive blank undrawn allowed session
    obtain ⟨-, redraws⟩ := hcounted.draw only
    refine ⟨redraws.within.above, ?_⟩
    intro written row col
    have hcells := redraws.cells written (first + row) col
    rw [if_neg (by omega), Nat.add_sub_cancel_left] at hcells
    rw [hcells, Sheet.cell, Sheet.rows_write_empty positive]

/-- A canvas whose sink refuses the first call. -/
def refusedOnce (text : Text) : Scene :=
  (newCanvas {} 0
    { visuals := [.drawn (fun _ => [.print text]) 0]
      width := .fixed 3
      sink := { behavior := .refusingFirst } }).2

theorem onlyPrints_printing {text plain : Text} {frame : Nat} (he : s.canvases[c]? = some e)
    (hvisuals : e.canvas.visuals = [.drawn (fun _ => [.print text]) frame])
    (hd : Displays text plain) (call : DrawCall) : s.OnlyPrints c call := by
  cases call with
  | clear => trivial
  | run | update =>
      intro e' he'
      obtain rfl := Option.some.inj (he.symm.trans he')
      rw [hvisuals]
      exact List.forall_mem_singleton.mpr (List.forall_mem_singleton.mpr ⟨plain, hd⟩)

/-- There is something above the row of the cursor and nothing below. -/
def busyTerminal : Terminal where
  width := 3
  cells := fun row _ => if row < 2 then '#' else ' '
  row := 2
  col := 0

/-- A frame of one row that was lost leaves the row where the canvas was begun to the next. -/
theorem untouched_faultySession_oneRow :
    let s := ((refusedOnce "one").draw 0 .run).2
    Unwritten ((refusedOnce "one").draw 0 .run).1 ∧
      ∀ row col, row < 2 →
        ((s.draw 0 .update).2.shownOn busyTerminal 0).cells row col =
          busyTerminal.cells row col := by
  intro s
  have one : Displays "one" "one" := .of_plain (by decide)
  have first := onlyPrints_printing (s := refusedOnce "one") (c := 0) rfl rfl one .run
  have second := onlyPrints_printing (s := s) (c := 0) rfl rfl one .update
  have refused : Unwritten ((refusedOnce "one").draw 0 .run).1 := by
    refine ⟨⟨.brokenPipe, "broken pipe"⟩, ?_⟩
    decide +kernel
  have written : ¬ Unwritten (s.draw 0 .update).1 := by
    have hupdate : (s.draw 0 .update).1 = .ok () := by
      decide +kernel
    rw [hupdate]
    rintro ⟨fault, hfault⟩
    cases hfault
  have reached : s.Reached 0 busyTerminal := by
    unfold Reached
    decide +kernel
  have session : FaultySession 0 (refusedOnce "one") (s.draw 0 .update).2 [s] :=
    .written (.unwritten .begun .run first refused) .update second written
  have blank : ∀ row col, busyTerminal.row ≤ row → busyTerminal.cells row col = ' ' :=
    fun row col hrow => if_neg (Nat.not_lt.mpr hrow)
  obtain ⟨untouched, -⟩ := untouched_faultySession (t := busyTerminal) (c := 0) rfl (by decide)
    blank ⟨rfl, rfl, rfl, rfl⟩ rfl session
  exact ⟨refused, untouched (List.forall_mem_singleton.mpr reached)⟩

/-- Of a frame of two rows that was lost the next call erases both, and the upper is not the
canvas's. -/
theorem update_erasesRowAbove :
    let s := ((refusedOnce "one\ntwo").draw 0 .run).2
    Unwritten ((refusedOnce "one\ntwo").draw 0 .run).1 ∧
      (s.draw 0 .update).1 = .ok () ∧
      busyTerminal.cells 1 0 = '#' ∧
      ((s.draw 0 .update).2.shownOn busyTerminal 0).cells 1 0 = 'o' := by
  refine ⟨⟨⟨.brokenPipe, "broken pipe"⟩, ?_⟩, ?_, rfl, ?_⟩
  · decide +kernel
  · decide +kernel
  · decide +kernel

end Scene

end Inlay
