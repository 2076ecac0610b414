import Inlay.Proofs.Screen.Showing
import Inlay.Proofs.Width
/-!
A printer keeps in step with the terminal that its frame goes to: it counts the rows of the sheet
that is on screen and knows where the cursor stands, so that its moves and erasures meet exactly the
rows that it drew.
-/

namespace Inlay

open Text Text.Measure

namespace Text.Measure

theorem visibleLength_of_displays {text plain : Text} (h : Displays text plain) :
    visibleLength text = plain.length := by
  rw [visibleLength_eq, Escape.strip_of_displays h]

theorem visibleLength_append {text text' plain : Text} (h : Displayable text)
    (h' : Displays text' plain) :
    visibleLength (text ++ text') = visibleLength text + plain.length := by
  obtain ⟨plain₀, h⟩ := h
  rw [visibleLength_of_displays (h.append h'), visibleLength_of_displays h, List.length_append]

theorem wrapRows_bounds {n w : Nat} (hn : 0 < n) (hw : 1 ≤ w) :
    wrapRows n w * w < n ∧ n ≤ wrapRows n w * w + w := by
  have hne : ¬ (w = 0 ∨ n = 0) := by omega
  have hdiv := Nat.div_add_mod (n + w - 1) w
  have hmod := Nat.mod_lt (n + w - 1) hw
  have hge : 1 ≤ (n + w - 1) / w := (Nat.one_le_div_iff hw).mpr (by omega)
  rw [wrapRows, if_neg hne, Nat.sub_mul, Nat.one_mul, Nat.mul_comm]
  have hw' : w ≤ w * ((n + w - 1) / w) := Nat.le_mul_of_pos_right w hge
  omega

end Text.Measure

theorem Text.ne_lineFeed_lines (text : Text) :
    (∀ c ∈ (lines text).1, c ≠ '\n') ∧ ∀ line ∈ (lines text).2, ∀ c ∈ line, c ≠ '\n' := by
  induction text with
  | nil => exact ⟨List.forall_mem_nil _, List.forall_mem_nil _⟩
  | cons c rest ih =>
      by_cases hc : c = '\n'
      · subst hc
        rw [lines_lineFeed, List.forall_mem_cons]
        exact ⟨List.forall_mem_nil _, ih⟩
      · rw [lines_cons rest hc, List.forall_mem_cons]
        exact ⟨⟨hc, ih.1⟩, ih.2⟩

/-- Writing a text on a sheet, line by line. -/
theorem Sheet.write_lines (w : Nat) (s : Sheet) (text : Text) :
    s.write w text = (lines text).2.foldl (fun s line => (s.pen w '\n').write w line)
      (s.write w (lines text).1) := by
  induction text generalizing s with
  | nil => rfl
  | cons c rest ih =>
      by_cases hc : c = '\n'
      · subst hc
        rw [write_cons, ih, lines_lineFeed]
        rfl
      · rw [write_cons, ih, lines_cons rest hc]
        rfl

namespace Printer

variable {p : Printer} {s : Sheet}

/-- The printer has counted the rows of a sheet, and its line is the one that fills the last of
them. -/
structure Counts (p : Printer) (s : Sheet) : Prop where
  rows : p.size.rows = s.above.length + 1
  line : Displayable p.line
  last : visibleLength p.line = s.last.length + p.lineWraps * p.width
  fits : s.last.length ≤ p.width
  started : s.last.length = 0 → p.lineWraps = 0

theorem wrapRows_of_counted {n rows w : Nat} (hw : 1 ≤ w) (started : n = 0 → rows = 0) :
    wrapRows (n + rows * w) w = rows + wrapRows n w := by
  rcases Nat.eq_zero_or_pos n with hn | hn
  · rw [hn, started hn, Nat.zero_mul]
    exact (Nat.zero_add _).symm
  · exact wrapRows_add_mul rows hn hw

theorem Counts.wraps (h : p.Counts s) (positive : 1 ≤ p.width) :
    wrapRows (visibleLength p.line) p.width = p.lineWraps := by
  rw [h.last, wrapRows_of_counted positive h.started, wrapRows_of_le h.fits, Nat.add_zero]

theorem countWraps_of_le (h : wrapRows (visibleLength p.line) p.width ≤ p.lineWraps) :
    p.countWraps = p := by
  rw [countWraps, if_neg (Nat.not_lt.mpr h)]

theorem countWraps_of_eq_add {n : Nat}
    (h : wrapRows (visibleLength p.line) p.width = p.lineWraps + n) :
    p.countWraps =
      { p with
        size := { p.size with rows := p.size.rows + n }
        lineWraps := p.lineWraps + n } := by
  rw [countWraps]
  dsimp only
  rw [h]
  split
  · rw [Nat.add_sub_cancel_left]
  · rename_i hnot
    have hn : n = 0 := by omega
    rw [hn, Nat.add_zero, Nat.add_zero]

theorem counts_newLine {above : List Text} (rows : p.size.rows = above.length + 1)
    (line : p.line = []) (lineWraps : p.lineWraps = 0) : p.Counts ⟨above, []⟩ := by
  constructor
  case rows => exact rows
  case line => exact ⟨[], by rw [line]; exact .nil⟩
  case last =>
    rw [line, lineWraps, Nat.zero_mul]
    rfl
  case fits => exact Nat.zero_le _
  case started => exact fun _ => lineWraps

theorem Counts.reframe (h : p.Counts s) (frame : Text) (cursor : Option Position) :
    ({ p with frame := frame, cursor := cursor } : Printer).Counts s :=
  ⟨h.rows, h.line, h.last, h.fits, h.started⟩

/-- A line that grows by a text without line feeds. -/
theorem Counts.grow (h : p.Counts s) (positive : 1 ≤ p.width) {first plain : Text}
    (hd : Displays first plain) (hline : ∀ c ∈ plain, c ≠ '\n') :
    ({ p with line := p.line ++ first }.countWraps).Counts (s.write p.width plain) := by
  obtain ⟨habove, hlast⟩ := Sheet.length_write positive h.fits hline
  have hvisible : visibleLength (p.line ++ first) =
      s.last.length + plain.length + p.lineWraps * p.width := by
    rw [visibleLength_append h.line hd, h.last]
    omega
  have hstarted : s.last.length + plain.length = 0 → p.lineWraps = 0 := by
    intro hzero
    exact h.started (by omega)
  -- the rows that the line has filled before stand in front and are not counted again
  have hwraps : wrapRows (visibleLength (p.line ++ first)) p.width =
      p.lineWraps + wrapRows (s.last.length + plain.length) p.width := by
    rw [hvisible]
    exact wrapRows_of_counted positive hstarted
  rw [countWraps_of_eq_add (p := { p with line := p.line ++ first }) hwraps]
  obtain ⟨plain₀, hd₀⟩ := h.line
  constructor
  case rows =>
    change p.size.rows + _ = _
    rw [habove, h.rows]
    omega
  case line => exact ⟨_, hd₀.append hd⟩
  case last =>
    change visibleLength (p.line ++ first) = _ + (p.lineWraps + _) * p.width
    rw [hvisible, Nat.add_mul]
    omega
  case fits =>
    rcases Nat.eq_zero_or_pos (s.last.length + plain.length) with hzero | hpos
    · omega
    · have := wrapRows_bounds hpos positive
      change _ ≤ p.width
      omega
  case started =>
    intro hempty
    rcases Nat.eq_zero_or_pos (s.last.length + plain.length) with hzero | hpos
    · change p.lineWraps + _ = 0
      rw [hstarted hzero, hzero, Nat.zero_add]
      exact wrapRows_of_le (Nat.zero_le _)
    · have := wrapRows_bounds hpos positive
      omega

/-- A new line under the one before. -/
theorem Counts.startLine (h : p.Counts s) (positive : 1 ≤ p.width) {line plain : Text}
    (hd : Displays line plain) (hline : ∀ c ∈ plain, c ≠ '\n') :
    ((p.startLine line).countWraps).Counts ((s.pen p.width '\n').write p.width plain) := by
  have hcounted : p.countWraps = p := countWraps_of_le (Nat.le_of_eq (h.wraps positive))
  have hopened : ({ p with
      size := { p.size with rows := p.size.rows + 1 }
      line := []
      lineWraps := 0 } : Printer).Counts (s.pen p.width '\n') := by
    apply counts_newLine
    · change p.size.rows + 1 = (s.above ++ [s.last]).length + 1
      rw [h.rows, List.length_append]
      rfl
    · rfl
    · rfl
  have hgrown := hopened.grow positive hd hline
  rw [Printer.startLine, hcounted]
  exact hgrown

theorem countWraps_countWraps (p : Printer) : p.countWraps.countWraps = p.countWraps := by
  rcases Nat.lt_or_ge p.lineWraps (wrapRows (visibleLength p.line) p.width) with hlt | hge
  · have heq : p.countWraps =
        { p with
          size := { p.size with
            rows := p.size.rows + (wrapRows (visibleLength p.line) p.width - p.lineWraps) }
          lineWraps := wrapRows (visibleLength p.line) p.width } := by
      rw [countWraps, if_pos hlt]
    rw [heq]
    exact countWraps_of_le (Nat.le_refl _)
  · rw [countWraps_of_le hge, countWraps_of_le hge]

theorem countWraps_startLines (p : Printer) (lines : List Text) :
    (lines.foldl Printer.startLine p).countWraps =
      lines.foldl (fun p line => (p.startLine line).countWraps) p.countWraps := by
  induction lines generalizing p with
  | nil => rfl
  | cons line rest ih =>
      rw [List.foldl_cons, List.foldl_cons, ih, Printer.startLine, Printer.startLine,
        countWraps_countWraps]

theorem Counts.startLines {w : Nat} (positive : 1 ≤ w) {texts plains : List Text}
    (hd : List.Forall₂ Displays texts plains) (hlines : ∀ plain ∈ plains, ∀ c ∈ plain, c ≠ '\n')
    (h : p.Counts s) (hw : p.width = w) :
    (texts.foldl (fun p line => (p.startLine line).countWraps) p).Counts
      (plains.foldl (fun s line => (s.pen w '\n').write w line) s) := by
  induction hd generalizing p s with
  | nil => exact h
  | @cons text plain texts plains hd _ ih =>
      rw [List.forall_mem_cons] at hlines
      subst hw
      apply ih hlines.2 (h.startLine positive hd hlines.1)
      rw [width_countWraps, Printer.startLine, width_countWraps]

@[simp] theorem frame_countWraps (p : Printer) : p.countWraps.frame = p.frame := by
  rw [countWraps]
  dsimp only
  split
  · rfl
  · rfl

@[simp] theorem frame_startLines (p : Printer) (lines : List Text) :
    (lines.foldl Printer.startLine p).frame = p.frame := by
  induction lines generalizing p with
  | nil => rfl
  | cons line rest ih =>
      rw [List.foldl_cons, ih]
      exact frame_countWraps p

theorem frame_print (p : Printer) (text : Text) : (p.print text).frame = p.frame ++ text := by
  rw [print]
  split
  · rename_i hempty
    rw [List.isEmpty_iff.mp hempty, List.append_nil]
  · change (countWraps (List.foldl Printer.startLine _ _)).frame = _
    rw [frame_countWraps, frame_startLines]

theorem print_nil (p : Printer) : p.print [] = p := rfl

theorem counts_print (h : p.Counts s) (positive : 1 ≤ p.width) {text plain : Text}
    (hd : Displays text plain) (some : text ≠ []) :
    (p.print text).Counts (s.write p.width plain) ∧
      (p.print text).size.cols = visibleLength (p.print text).line ∧
      (p.print text).cursor = none := by
  have hempty : ¬ text.isEmpty = true := by
    rw [List.isEmpty_iff]
    exact some
  obtain ⟨hfirst, hothers⟩ := hd.lines
  obtain ⟨hplain, hplains⟩ := ne_lineFeed_lines plain
  have hgrown := (h.reframe (p.frame ++ text) p.cursor).grow positive hfirst hplain
  have hcounts := hgrown.startLines positive hothers hplains (width_countWraps _)
  rw [← countWraps_startLines, ← Sheet.write_lines] at hcounts
  rw [print, if_neg hempty]
  refine ⟨⟨hcounts.rows, hcounts.line, ?_, ?_, hcounts.started⟩, rfl, rfl⟩
  · exact hcounts.last
  · exact hcounts.fits

/-- A terminal that read the printer's frame shows a sheet that the printer has counted, and its
cursor is in the row where the printer takes it to be. -/
structure Covers (p : Printer) (t : Terminal) (before : Nat → Nat → Char) (origin : Nat)
    (s : Sheet) : Prop where
  positive : 1 ≤ p.width
  counts : p.Counts s
  cols : p.size.cols = visibleLength p.line
  shows : (t.run p.frame).Shows p.width before origin s
  inside : p.position.row < p.size.rows
  row : (t.run p.frame).row = origin + p.position.row

/-- The column of the cursor is the right one too: unless the cursor was moved, the next text
continues the sheet. -/
structure Mirrors (p : Printer) (t : Terminal) (before : Nat → Nat → Char) (origin : Nat)
    (s : Sheet) : Prop extends Covers p t before origin s where
  atEnd : p.cursor = none → (t.run p.frame).AtEnd origin s
  col : ∀ position, p.cursor = some position → (t.run p.frame).col = min position.col (p.width - 1)

variable {t : Terminal} {before : Nat → Nat → Char} {origin : Nat}

theorem mirrors_print (h : p.Mirrors t before origin s) {text plain : Text}
    (hd : Displays text plain) (rests : text ≠ [] → p.cursor = none) :
    (p.print text).Mirrors t before origin (s.write p.width plain) := by
  by_cases hempty : text = []
  · have hplain : plain = [] := by
      rw [← Escape.strip_of_displays hd, hempty]
      rfl
    rw [hempty, hplain, print_nil, Sheet.write_nil]
    exact h
  · obtain ⟨hcounts, hcols, hcursor⟩ := counts_print h.counts h.positive hd hempty
    obtain ⟨hshows, hend⟩ := h.shows.run hd (h.atEnd (rests hempty))
    have hframe : t.run (p.print text).frame = (t.run p.frame).run text := by
      rw [frame_print, Terminal.run_append]
    have hposition : (p.print text).position.row = (s.write p.width plain).above.length := by
      rw [position, hcursor]
      change (p.print text).size.rows - 1 = _
      rw [hcounts.rows, Nat.add_sub_cancel]
    refine ⟨?_, ?_, ?_⟩
    · constructor
      case positive => rw [width_print]; exact h.positive
      case counts => exact hcounts
      case cols => exact hcols
      case shows => rw [hframe, width_print]; exact hshows
      case inside => rw [hposition, hcounts.rows]; exact Nat.lt_succ_self _
      case row => rw [hframe, hposition]; exact hend.row
    · intro _
      rw [hframe]
      exact hend
    · intro position hat
      rw [hcursor] at hat
      cases hat

/-- A new printer has nothing on screen: it covers the rows that are blank. -/
theorem covers_new (positive : 1 ≤ t.width) (ground : t.mode = .ground)
    (blank : ∀ row col, t.row ≤ row → t.cells row col = ' ') (style : Style) :
    Covers { width := t.width, style } t t.cells t.row {} := by
  constructor
  case positive => exact positive
  case counts => exact counts_newLine rfl rfl rfl
  case cols => rfl
  case shows =>
    refine ⟨rfl, ground, ?_⟩
    intro row col
    change t.cells row col = if row < t.row then _ else Sheet.cell {} _ _
    rw [Sheet.cell_empty]
    split
    · rfl
    · rename_i hge
      exact blank row col (Nat.le_of_not_lt hge)
  case inside => exact Nat.one_pos
  case row => rfl

theorem mirrors_new (positive : 1 ≤ t.width) (ground : t.mode = .ground)
    (blank : ∀ row col, t.row ≤ row → t.cells row col = ' ') (start : t.col = 0) (style : Style) :
    Mirrors { width := t.width, style } t t.cells t.row {} :=
  ⟨covers_new positive ground blank style, fun _ => ⟨rfl, start⟩, nofun⟩

theorem covers_emptied (h : p.Covers t before origin s) :
    p.emptied.Covers (t.run p.frame) before origin s :=
  ⟨h.positive, h.counts.reframe [] p.cursor, h.cols, h.shows, h.inside, h.row⟩

theorem mirrors_emptied (h : p.Mirrors t before origin s) :
    p.emptied.Mirrors (t.run p.frame) before origin s :=
  ⟨covers_emptied h.toCovers, h.atEnd, h.col⟩

theorem emit_of_ne_zero (h : p.width ≠ 0) (commands : List Cursor.Command) :
    p.emit commands = { p with frame := p.frame ++ Cursor.sequences commands } := by
  rw [emit, if_neg h]

theorem moveTo_of_ne {target : Position} (hw : p.width ≠ 0) (hne : target ≠ p.position) :
    p.moveTo target =
      { p with
        frame := p.frame ++ Cursor.sequences
          [if p.position.row < target.row then .down (target.row - p.position.row)
            else .up (p.position.row - target.row), .startOfLine, .right target.col]
        cursor := some target } := by
  rw [moveTo]
  dsimp only
  rw [if_neg hne, emit_of_ne_zero hw]

theorem moveTo_position (p : Printer) : p.moveTo p.position = p := if_pos rfl

theorem run_moveTo (h : p.Covers t before origin s) {target : Position}
    (hne : target ≠ p.position) :
    t.run (p.moveTo target).frame =
      { t.run p.frame with
        row := origin + target.row
        col := min target.col (p.width - 1) } := by
  have hmoved := Terminal.run_moveTo h.shows.ground h.row target.row target.col
  rw [moveTo_of_ne (Nat.ne_of_gt h.positive) hne]
  dsimp only
  rw [Terminal.run_append, hmoved, h.shows.width]

theorem covers_moveTo (h : p.Covers t before origin s) {target : Position}
    (inside : target.row < p.size.rows) : (p.moveTo target).Covers t before origin s := by
  by_cases heq : target = p.position
  · rw [heq, moveTo_position]
    exact h
  · have hrun := run_moveTo h heq
    rw [moveTo_of_ne (Nat.ne_of_gt h.positive) heq] at hrun ⊢
    constructor
    case positive => exact h.positive
    case counts => exact h.counts.reframe _ _
    case cols => exact h.cols
    case shows =>
      rw [hrun]
      exact ⟨h.shows.width, h.shows.ground, h.shows.cells⟩
    case inside => exact inside
    case row => rw [hrun]; rfl

theorem mirrors_moveTo (h : p.Mirrors t before origin s) {target : Position}
    (inside : target.row < p.size.rows) : (p.moveTo target).Mirrors t before origin s := by
  by_cases heq : target = p.position
  · rw [heq, moveTo_position]
    exact h
  · have hrun := run_moveTo h.toCovers heq
    have hcovers := covers_moveTo h.toCovers inside
    rw [moveTo_of_ne (Nat.ne_of_gt h.positive) heq] at hrun hcovers ⊢
    refine ⟨hcovers, nofun, ?_⟩
    intro position hat
    cases hat
    rw [hrun]

theorem position_moveTo (p : Printer) (target : Position) :
    (p.moveTo target).position = target := by
  rw [moveTo]
  dsimp only
  split
  · rename_i heq
    exact heq.symm
  · rfl

theorem size_moveTo (p : Printer) (target : Position) : (p.moveTo target).size = p.size := by
  unfold moveTo emit
  dsimp only
  split
  · rfl
  · split
    · rfl
    · rfl

/-- An erasure meets every row that was drawn, so that nothing of the sheet is left. -/
theorem mirrors_clear (h : p.Covers t before origin s) :
    p.clear.Mirrors t before origin {} := by
  have hrows : 0 < p.size.rows := Nat.lt_of_le_of_lt (Nat.zero_le _) h.inside
  have hbottom : p.bottomRight.row < p.size.rows := Nat.sub_lt hrows Nat.one_pos
  have hmoved := covers_moveTo h hbottom
  have hrow : (t.run (p.moveTo p.bottomRight).frame).row = origin + (p.size.rows - 1) := by
    rw [hmoved.row, position_moveTo]
    rfl
  -- the erasure goes up from the last row, so it ends in the origin only if the rows are right
  have hrun := Terminal.run_clearRows hmoved.shows.ground hrow
  rw [← Terminal.run_append] at hrun
  have hclear : p.clear =
      { p.moveTo p.bottomRight with
        frame := (p.moveTo p.bottomRight).frame ++
          Cursor.sequences (clearRows (p.size.rows - 1))
        size := {}
        line := []
        lineWraps := 0
        cursor := none } := by
    rw [clear]
    dsimp only
    rw [size_moveTo, if_neg (Nat.ne_of_gt hrows), emit_of_ne_zero (Nat.ne_of_gt hmoved.positive)]
  rw [hclear]
  refine ⟨?_, ?_, nofun⟩
  · constructor
    case positive => exact hmoved.positive
    case counts => exact counts_newLine rfl rfl rfl
    case cols => rfl
    case shows =>
      refine ⟨?_, ?_, ?_⟩
      · rw [hrun]
        exact hmoved.shows.width
      · rw [hrun]
        exact hmoved.shows.ground
      · intro row col
        rw [hrun, Sheet.cell_empty]
        dsimp only
        rw [hmoved.shows.cells]
        have hlength : s.rows.length = p.size.rows := by
          rw [h.counts.rows, Sheet.rows, List.length_append]
          rfl
        by_cases habove : row < origin
        · rw [if_neg (by omega), if_pos habove, if_pos habove]
        · rw [if_neg habove, if_neg habove]
          split
          · rfl
          · exact Sheet.cell_of_length_le s (by omega) col
    case inside => exact Nat.one_pos
    case row => rw [hrun]; rfl
  · intro _
    rw [hrun]
    exact ⟨rfl, rfl⟩

end Printer

end Inlay
