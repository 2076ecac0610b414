import Inlay.Proofs.Screen.Pieces
import Inlay.Proofs.Screen.Printing
/-!
How a printer counts rows. It adds the rows of a line as the line grows, never takes one back, and
forgets them with the next line. Over texts that do not break off within a sequence this is the
count over the whole text; a piece that does is counted as if it stayed without its end.
-/

namespace Inlay

open Text Text.Measure

/-- The room that a text takes as a whole: a row for each of its lines and the rows of their
wrapping, the last one as long as the last line. -/
def Size.ofText (width : Nat) (text : Text) : Size where
  rows := 1 + text.count '\n' + countLineBreaks text width
  cols := visibleLength (lastLine text)

theorem Size.eq_of_rows_of_cols {s s' : Size} (rows : s.rows = s'.rows) (cols : s.cols = s'.cols) :
    s = s' := by
  cases s
  cases s'
  exact congr (congrArg mk rows) cols

/-- The line in which a printer is, the rows counted for its wrapping, and all rows so far. -/
structure Tally where
  line : Text
  wraps : Nat
  rows : Nat

namespace Tally

variable {w : Nat} {t : Tally}

/-- The line goes on with a text, and the rows that it then takes beyond those counted are added. -/
def grow (w : Nat) (t : Tally) (text : Text) : Tally where
  line := t.line ++ text
  wraps := max t.wraps (wrapRows (visibleLength (t.line ++ text)) w)
  rows := t.rows + (wrapRows (visibleLength (t.line ++ text)) w - t.wraps)

def newLine (w : Nat) (t : Tally) (line : Text) : Tally := grow w ⟨[], 0, t.rows + 1⟩ line

def write (w : Nat) (t : Tally) (text : Text) : Tally :=
  (lines text).2.foldl (newLine w) (t.grow w (lines text).1)

/-- As many rows are counted as the line takes. -/
def Exact (w : Nat) (t : Tally) : Prop := t.wraps = wrapRows (visibleLength t.line) w

theorem exact_newLine (w : Nat) (t : Tally) (line : Text) : (t.newLine w line).Exact w :=
  Nat.zero_max _

theorem exact_grow {text : Text}
    (more : t.wraps ≤ wrapRows (visibleLength (t.line ++ text)) w) : (t.grow w text).Exact w :=
  Nat.max_eq_right more

/-- All rows that lines take. -/
def rowsOf (w : Nat) : List Text → Nat
  | [] => 0
  | line :: rest => 1 + wrapRows (visibleLength line) w + rowsOf w rest

theorem rowsOf_append (w : Nat) (before after : List Text) :
    rowsOf w (before ++ after) = rowsOf w before + rowsOf w after := by
  induction before with
  | nil => rw [List.nil_append, rowsOf, Nat.zero_add]
  | cons line rest ih =>
      rw [List.cons_append, rowsOf, rowsOf, ih]
      omega

/-- The lines of a text take a row each, and the rows of their wrapping. -/
theorem rowsOf_allLines (w : Nat) (text : Text) :
    rowsOf w (allLines text) = 1 + text.count '\n' + countLineBreaks text w := by
  have hfold (counted : Nat) (lines : List Text) : counted + rowsOf w lines = lines.length +
      lines.foldl (fun rows line => rows + wrapRows (visibleLength line) w) counted := by
    induction lines generalizing counted with
    | nil => simp [rowsOf]
    | cons line rest ih =>
        rw [rowsOf, List.foldl_cons, List.length_cons]
        have := ih (counted + wrapRows (visibleLength line) w)
        omega
  have := hfold 0 (allLines text)
  rw [length_allLines, Nat.zero_add] at this
  exact this

theorem line_foldl_newLine (w : Nat) (t : Tally) (lines : List Text) :
    (lines.foldl (newLine w) t).line = lines.getLastD t.line := by
  induction lines generalizing t with
  | nil => rfl
  | cons line rest ih =>
      rw [List.foldl_cons, ih, List.getLastD_cons]
      rfl

/-- Lines of their own add all their rows. -/
theorem rows_foldl_newLine (w : Nat) (t : Tally) (lines : List Text) :
    (lines.foldl (newLine w) t).rows = t.rows + rowsOf w lines := by
  induction lines generalizing t with
  | nil => rfl
  | cons line rest ih =>
      rw [List.foldl_cons, ih, rowsOf]
      simp only [newLine, grow, List.nil_append]
      omega

theorem exact_foldl_newLine (hexact : t.Exact w) (lines : List Text) :
    (lines.foldl (newLine w) t).Exact w := by
  induction lines generalizing t with
  | nil => exact hexact
  | cons line rest ih => exact ih (exact_newLine w t line)

theorem line_write (w : Nat) (t : Tally) (text : Text) :
    (t.write w text).line = (lines text).2.getLastD (t.line ++ (lines text).1) :=
  line_foldl_newLine w _ _

theorem rows_write (w : Nat) (t : Tally) (text : Text) :
    (t.write w text).rows = (t.grow w (lines text).1).rows + rowsOf w (lines text).2 :=
  rows_foldl_newLine w _ _

/-- A tally of a whole text: the rows are those of its lines. -/
structure Of (w : Nat) (text : Text) (t : Tally) : Prop where
  line : t.line = lastLine text
  whole : Escape.Whole t.line
  counted : t.Exact w
  rows : t.rows = rowsOf w (allLines text)

/-- What goes on a line leaves the rows that were counted for it. -/
theorem wraps_le_grown (whole : Escape.Whole t.line) (counted : t.Exact w) (text : Text) :
    t.wraps ≤ wrapRows (visibleLength (t.line ++ text)) w := by
  rw [counted, visibleLength_append_of_whole whole]
  exact wrapRows_mono (Nat.le_add_right _ _) w

theorem whole_getLastD {first : Text} {others : List Text} (hfirst : Escape.Whole first)
    (hothers : ∀ line ∈ others, Escape.Whole line) : Escape.Whole (others.getLastD first) := by
  have hmem : others.getLastD first ∈ first :: others := List.getLastD_mem_cons
  rcases List.mem_cons.mp hmem with heq | hmem
  · rw [heq]
    exact hfirst
  · exact hothers _ hmem

theorem Of.write {text more : Text} (h : t.Of w text)
    (whole : ∀ line ∈ allLines more, Escape.Whole line) :
    (t.write w more).Of w (text ++ more) := by
  obtain ⟨before, htext, happend⟩ := exists_allLines_append text
  have hle := wraps_le_grown h.whole h.counted (lines more).1
  have hall := happend more
  rw [← h.line] at htext hall
  have hline : (t.write w more).line = lastLine (text ++ more) := by
    rw [line_write, lastLine_append, h.line]
  constructor
  case line => exact hline
  case whole =>
    rw [line_write]
    apply whole_getLastD
    · exact h.whole.append (whole _ List.mem_cons_self)
    · exact fun line hmem => whole line (List.mem_cons_of_mem _ hmem)
  case counted => exact exact_foldl_newLine (exact_grow hle) _
  case rows =>
    have hrows : rowsOf w (allLines text) = rowsOf w before + (1 + t.wraps) := by
      rw [htext, rowsOf_append, rowsOf, rowsOf, Nat.add_zero, h.counted]
    have hgrown : (t.grow w (lines more).1).rows + t.wraps =
        t.rows + wrapRows (visibleLength (t.line ++ (lines more).1)) w :=
      (Nat.add_assoc _ _ _).trans (congrArg (t.rows + ·) (Nat.sub_add_cancel hle))
    rw [h.rows, hrows] at hgrown
    rw [rows_write, hall, rowsOf_append, rowsOf]
    omega

/-- Growing twice counts the rows that the first piece alone takes too many. -/
theorem rows_grow_grow (w : Nat) (t : Tally) (first more : Text) :
    ((t.grow w first).grow w more).rows = (t.grow w (first ++ more)).rows +
      (wrapRows (visibleLength (t.line ++ first)) w -
        max t.wraps (wrapRows (visibleLength (t.line ++ (first ++ more))) w)) := by
  simp only [grow, List.append_assoc]
  omega

/-- A text leaves its last line to be grown by what follows. -/
theorem exists_write_append (w : Nat) (t : Tally) (text : Text) : ∃ (begun : Tally) (last : Text),
    begun.wraps = (if '\n' ∈ text then 0 else t.wraps) ∧
      t.write w text = begun.grow w last ∧
      ∀ more, t.write w (text ++ more) =
        (lines more).2.foldl (newLine w) (begun.grow w (last ++ (lines more).1)) := by
  obtain ⟨before, htext, happend⟩ := exists_allLines_append text
  have hcount : text.count '\n' = before.length := by
    have hlength := length_allLines text
    rw [htext, List.length_append, List.length_singleton] at hlength
    omega
  cases before with
  | nil =>
      have hnone : '\n' ∉ text := List.count_eq_zero.mp hcount
      obtain ⟨hfirst, hothers⟩ := List.cons.inj htext
      refine ⟨t, lastLine text, (if_neg hnone).symm, ?_, fun more => ?_⟩
      · rw [write, hfirst, hothers]
        rfl
      · obtain ⟨hfirst, hothers⟩ := List.cons.inj (happend more)
        rw [write, hfirst, hothers]
  | cons first between =>
      have hsome : '\n' ∈ text := List.count_pos_iff.mp (hcount ▸ Nat.succ_pos _)
      obtain ⟨hfirst, hothers⟩ := List.cons.inj htext
      let above := between.foldl (newLine w) (t.grow w first)
      refine ⟨⟨[], 0, above.rows + 1⟩, lastLine text, (if_pos hsome).symm, ?_, fun more => ?_⟩
      · rw [write, hfirst, hothers]
        exact List.foldl_append
      · obtain ⟨hfirst, hothers⟩ := List.cons.inj (happend more)
        rw [write, hfirst, hothers]
        exact List.foldl_append

/-- Two pieces take no fewer rows than the whole, and more only in the line of the cut. -/
theorem write_write (w : Nat) (t : Tally) (text more : Text) :
    ((t.write w text).write w more).line = (t.write w (text ++ more)).line ∧
      ((t.write w text).write w more).rows = (t.write w (text ++ more)).rows +
        (wrapRows (visibleLength (t.write w text).line) w -
          max (if '\n' ∈ text then 0 else t.wraps)
            (wrapRows (visibleLength ((t.write w text).line ++ (lines more).1)) w)) := by
  obtain ⟨begun, last, hwraps, hwrite, happend⟩ := exists_write_append w t text
  have hgrown : (begun.grow w last).line = begun.line ++ last := rfl
  constructor
  · rw [happend, line_foldl_newLine, hwrite, line_write, hgrown, List.append_assoc]
    rfl
  · rw [happend, rows_foldl_newLine, hwrite, rows_write, rows_grow_grow, hwraps, hgrown,
      List.append_assoc]
    omega

end Tally

namespace Printer

variable {p : Printer}

def tally (p : Printer) : Tally := ⟨p.line, p.lineWraps, p.size.rows⟩

theorem tally_countWraps (p : Printer) : p.countWraps.tally = p.tally.grow p.width [] := by
  simp only [Tally.grow, tally, List.append_nil]
  rcases Nat.lt_or_ge p.lineWraps (wrapRows (visibleLength p.line) p.width) with hlt | hge
  · rw [countWraps, if_pos hlt, Nat.max_eq_right (Nat.le_of_lt hlt)]
  · rw [countWraps_of_le hge, Nat.max_eq_left hge, Nat.sub_eq_zero_of_le hge, Nat.add_zero]

theorem tally_startLine (settled : wrapRows (visibleLength p.line) p.width ≤ p.lineWraps)
    (line : Text) : (p.startLine line).countWraps.tally = p.tally.newLine p.width line := by
  rw [tally_countWraps, startLine, countWraps_of_le settled, Tally.newLine, Tally.grow, Tally.grow]
  simp only [tally, List.append_nil, List.nil_append]

theorem tally_startLines {w : Nat} (hw : p.width = w)
    (settled : wrapRows (visibleLength p.line) p.width ≤ p.lineWraps) (lines : List Text) :
    (lines.foldl (fun p line => (p.startLine line).countWraps) p).tally =
      lines.foldl (Tally.newLine w) p.tally := by
  induction lines generalizing p with
  | nil => rfl
  | cons line rest ih =>
      have hwidth : (p.startLine line).countWraps.width = w := by
        rw [width_countWraps, startLine, width_countWraps, hw]
      have htally := tally_startLine settled line
      have hsettled : (p.startLine line).countWraps.tally.Exact w := by
        rw [htally, hw]
        exact Tally.exact_newLine w p.tally line
      rw [List.foldl_cons, List.foldl_cons, ih hwidth (Nat.le_of_eq (hwidth ▸ hsettled.symm)),
        htally, hw]

/-- Printing a text is writing it on the tally. -/
theorem tally_print {text : Text} (some : text ≠ []) :
    (p.print text).tally = p.tally.write p.width text := by
  let q : Printer := { p with frame := p.frame ++ text, line := p.line ++ (lines text).1 }
  have hgrown : q.countWraps.tally = p.tally.grow p.width (lines text).1 := by
    rw [tally_countWraps, Tally.grow, Tally.grow]
    simp only [tally, q, List.append_nil]
  have hsettled : wrapRows (visibleLength q.countWraps.line) q.countWraps.width ≤
      q.countWraps.lineWraps := by
    change wrapRows (visibleLength q.countWraps.tally.line) _ ≤ q.countWraps.tally.wraps
    rw [hgrown, width_countWraps]
    exact Nat.le_max_right _ _
  have hprinted : (p.print text).tally = ((lines text).2.foldl startLine q).countWraps.tally := by
    rw [print, if_neg (by rwa [List.isEmpty_iff])]
    rfl
  rw [hprinted, countWraps_startLines, tally_startLines (q.width_countWraps) hsettled, hgrown]
  rfl

theorem cols_print {text : Text} (some : text ≠ []) :
    (p.print text).size.cols = visibleLength (p.print text).line := by
  rw [print, if_neg (by rwa [List.isEmpty_iff])]

/-- Rows that were counted for the last line of a piece and that the line does not take together
with the rest of the text. -/
def surplus (p : Printer) (piece rest : Text) : Nat :=
  wrapRows (visibleLength (p.print piece).line) p.width -
    max (if '\n' ∈ piece then 0 else p.lineWraps)
      (wrapRows (visibleLength ((p.print piece).line ++ (lines rest).1)) p.width)

theorem surplus_nil {piece : Text} (p : Printer) : p.surplus piece [] = 0 := by
  rw [surplus, lines_nil, List.append_nil]
  exact Nat.sub_eq_zero_of_le (Nat.le_max_right _ _)

/-- A line that does not break off within a sequence only grows. -/
theorem surplus_of_whole {piece : Text} (whole : Escape.Whole (p.print piece).line) (rest : Text) :
    p.surplus piece rest = 0 := by
  have hgrows : wrapRows (visibleLength (p.print piece).line) p.width ≤
      wrapRows (visibleLength ((p.print piece).line ++ (lines rest).1)) p.width := by
    rw [visibleLength_append_of_whole whole]
    exact wrapRows_mono (Nat.le_add_right _ _) _
  exact Nat.sub_eq_zero_of_le (Nat.le_trans hgrows (Nat.le_max_right _ _))

theorem size_print_print (p : Printer) {piece : Text} (some : piece ≠ []) (rest : Text) :
    ((p.print piece).print rest).size.cols = (p.print (piece ++ rest)).size.cols ∧
      ((p.print piece).print rest).size.rows =
        (p.print (piece ++ rest)).size.rows + p.surplus piece rest := by
  by_cases hempty : rest = []
  · rw [hempty, print_nil, List.append_nil, surplus_nil]
    exact ⟨rfl, rfl⟩
  · have hwhole : piece ++ rest ≠ [] := List.append_ne_nil_of_left_ne_nil some rest
    obtain ⟨hline, hrows⟩ := Tally.write_write p.width p.tally piece rest
    have hpieces : ((p.print piece).print rest).tally =
        (p.tally.write p.width piece).write p.width rest := by
      rw [tally_print hempty, width_print, tally_print some]
    rw [← hpieces, ← tally_print hwhole] at hline hrows
    rw [← tally_print some] at hrows
    refine ⟨?_, hrows⟩
    rw [cols_print hempty, cols_print hwhole]
    exact congrArg visibleLength hline

/-- Where a text is cut matters for the rows alone. A piece that breaks off within a sequence shows
what was read of it, and the rows that this takes stay counted when the rest makes it vanish; there
are none if the line does not break off, or if it takes as many rows in the end. -/
theorem size_cut (p : Printer) {piece : Text} (some : piece ≠ []) (rest : Text) :
    ((p.print piece).print rest).size.cols = (p.print (piece ++ rest)).size.cols ∧
      ((p.print piece).print rest).size.rows =
        (p.print (piece ++ rest)).size.rows + p.surplus piece rest ∧
      (((p.print piece).print rest).size = (p.print (piece ++ rest)).size ↔
        p.surplus piece rest = 0) ∧
      (Escape.Whole (p.print piece).line → p.surplus piece rest = 0) := by
  obtain ⟨hcols, hrows⟩ := size_print_print p some rest
  refine ⟨hcols, hrows, ?_, fun whole => surplus_of_whole whole rest⟩
  constructor
  · intro heq
    rw [heq] at hrows
    omega
  · intro hnone
    rw [hnone, Nat.add_zero] at hrows
    exact Size.eq_of_rows_of_cols hrows hcols

theorem size_cut_hyperlink :
    ("go \x1b]8;;u" : Text) ≠ [] ∧
      Printer.surplus { width := 4, style := ⟨false⟩ } "go \x1b]8;;u" "\x1b\\on" = 1 ∧
      ((Printer.print { width := 4, style := ⟨false⟩ } "go \x1b]8;;u").print "\x1b\\on").size.rows =
        (Printer.print { width := 4, style := ⟨false⟩ } ("go \x1b]8;;u" ++ "\x1b\\on")).size.rows +
          1 := by
  have hsome : ("go \x1b]8;;u" : Text) ≠ [] := by decide
  have hsurplus :
      Printer.surplus { width := 4, style := ⟨false⟩ } "go \x1b]8;;u" "\x1b\\on" = 1 := by
    decide
  obtain ⟨-, hrows, -⟩ := size_cut { width := 4, style := ⟨false⟩ } hsome "\x1b\\on"
  rw [hsurplus] at hrows
  exact ⟨hsome, hsurplus, hrows⟩

/-- A hyperlink on four columns, cut before the end of its address: every ESC of the text belongs to
a sequence, but the two pieces count a row that the text does not take. -/
theorem size_cut_countsAddress :
    Escape.Whole "go \x1b]8;;u\x1b\\on" ∧ ¬ Escape.Whole "go \x1b]8;;u" ∧
      ((Printer.print { width := 4, style := ⟨false⟩ } "go \x1b]8;;u").print "\x1b\\on").size =
        ⟨3, 5⟩ ∧
      (Printer.print { width := 4, style := ⟨false⟩ } "go \x1b]8;;u\x1b\\on").size = ⟨2, 5⟩ := by
  decide

/-- What is asked of a printer between one clearing and the next. A formatted text is handed over
in parts and printed as one. -/
inductive Call where
  | print (text : Text)
  | printLine (text : Text)
  | printFormatted (parts : List Text)
  | printFormattedLine (parts : List Text)
  | moveTo (target : Position)
  | emit (command : Cursor.Command)

/-- The text that a call adds. -/
def Call.text : Call → Text
  | .print text => text
  | .printLine text => text ++ "\n"
  | .printFormatted parts => parts.flatten
  | .printFormattedLine parts => parts.flatten ++ "\n"
  | .moveTo _ | .emit _ => []

def call (p : Printer) : Call → Printer
  | .print text => p.print text
  | .printLine text => p.printLine text
  | .printFormatted parts => p.print parts.flatten
  | .printFormattedLine parts => p.print (parts.flatten ++ "\n")
  | .moveTo target => p.moveTo target
  | .emit command => p.emit [command]

/-- Nothing was drawn since the printer was made or cleared. -/
inductive Begun : Printer → Prop where
  | new (width : Nat) (style : Style) : Begun { width, style }
  | cleared (p : Printer) : Begun p.clear

/-- The size is that of a text. -/
structure Measures (p : Printer) (text : Text) : Prop where
  tally : p.tally.Of p.width text
  cols : p.size.cols = visibleLength p.line

theorem measures_begun (begun : p.Begun) : p.Measures [] := by
  have hnew (q : Printer) (line : q.line = []) (lineWraps : q.lineWraps = 0)
      (size : q.size = {}) : q.Measures [] := by
    have htally : q.tally = ⟨[], 0, 1⟩ := by
      rw [tally, line, lineWraps, size]
    refine ⟨?_, by rw [line, size]; rfl⟩
    rw [htally]
    exact ⟨rfl, Escape.whole_nil, (wrapRows_of_le (Nat.zero_le _)).symm, by
      change 1 = 1 + wrapRows 0 _ + 0
      rw [wrapRows_of_le (Nat.zero_le _)]⟩
  cases begun with
  | new width style => exact hnew _ rfl rfl rfl
  | cleared p => exact hnew _ rfl rfl rfl

theorem Measures.print {text more : Text} (h : p.Measures text)
    (whole : ∀ line ∈ allLines more, Escape.Whole line) :
    (p.print more).Measures (text ++ more) := by
  by_cases hempty : more = []
  · rw [hempty, print_nil, List.append_nil]
    exact h
  · refine ⟨?_, cols_print hempty⟩
    rw [tally_print hempty, width_print]
    exact h.tally.write whole

theorem measures_moveTo {text : Text} (h : p.Measures text) (target : Position) :
    (p.moveTo target).Measures text := by
  unfold moveTo emit
  dsimp only
  split
  · exact h
  · split
    · exact ⟨h.tally, h.cols⟩
    · exact ⟨h.tally, h.cols⟩

theorem measures_emit {text : Text} (h : p.Measures text) (commands : List Cursor.Command) :
    (p.emit commands).Measures text := by
  unfold emit
  split
  · exact h
  · exact ⟨h.tally, h.cols⟩

theorem Measures.call {text : Text} (h : p.Measures text) (call : Call)
    (whole : ∀ line ∈ allLines call.text, Escape.Whole line) :
    (p.call call).Measures (text ++ call.text) := by
  cases call with
  | print more => exact h.print whole
  | printLine more =>
      change ∀ line ∈ allLines (more ++ '\n' :: []), Escape.Whole line at whole
      rw [allLines_append_lineFeed, List.forall_mem_append] at whole
      obtain ⟨hmore, -⟩ := whole
      have hlineFeed : ∀ line ∈ allLines "\n", Escape.Whole line := by decide
      have hprinted := (h.print hmore).print hlineFeed
      rw [List.append_assoc] at hprinted
      exact hprinted
  | printFormatted parts => exact h.print whole
  | printFormattedLine parts => exact h.print whole
  | moveTo target =>
      change (p.moveTo target).Measures (text ++ [])
      rw [List.append_nil]
      exact measures_moveTo h target
  | emit command =>
      change (p.emit [command]).Measures (text ++ [])
      rw [List.append_nil]
      exact measures_emit h [command]

theorem width_call (p : Printer) (call : Call) : (p.call call).width = p.width := by
  suffices h : (p.call call).device = p.device from congrArg Prod.fst h
  cases call with
  | print text => exact p.device_print text
  | printLine text => exact p.device_printLine text
  | printFormatted parts => exact p.device_print _
  | printFormattedLine parts => exact p.device_print _
  | moveTo target => exact p.device_moveTo target
  | emit command => exact p.device_emit _

theorem width_calls (p : Printer) (calls : List Call) :
    (calls.foldl call p).width = p.width := by
  induction calls generalizing p with
  | nil => rfl
  | cons call rest ih => rw [List.foldl_cons, ih, width_call]

theorem measures_calls {text : Text} (h : p.Measures text) {calls : List Call}
    (whole : ∀ call ∈ calls, ∀ line ∈ allLines call.text, Escape.Whole line) :
    (calls.foldl call p).Measures (text ++ calls.flatMap Call.text) := by
  induction calls generalizing p text with
  | nil =>
      rw [List.flatMap_nil, List.append_nil]
      exact h
  | cons call rest ih =>
      rw [List.forall_mem_cons] at whole
      obtain ⟨hcall, hrest⟩ := whole
      rw [List.foldl_cons, List.flatMap_cons, ← List.append_assoc]
      exact ih (h.call call hcall) hrest

theorem cursor_print_of_ne_nil (p : Printer) {text : Text} (some : text ≠ []) :
    (p.print text).cursor = none := by
  rw [print, if_neg (by rwa [List.isEmpty_iff])]

theorem cursor_call (p : Printer) {call : Call} (some : call.text ≠ []) :
    (p.call call).cursor = none := by
  cases call with
  | print text => exact p.cursor_print_of_ne_nil some
  | printLine text => exact (p.print text).cursor_print_of_ne_nil (List.cons_ne_nil _ _)
  | printFormatted parts => exact p.cursor_print_of_ne_nil some
  | printFormattedLine parts => exact p.cursor_print_of_ne_nil some
  | moveTo target => exact absurd rfl some
  | emit command => exact absurd rfl some

theorem Measures.size {text : Text} (h : p.Measures text) :
    p.size = Size.ofText p.width text := by
  have hrows : p.size.rows = (Size.ofText p.width text).rows :=
    h.tally.rows.trans (Tally.rowsOf_allLines p.width text)
  have hcols : p.size.cols = (Size.ofText p.width text).cols :=
    h.cols.trans (congrArg visibleLength h.tally.line)
  exact Size.eq_of_rows_of_cols hrows hcols

/-- However a text comes in pieces, and whatever moves of the cursor come between them, the printer
holds the size of the whole text, and after the last piece the cursor stands behind it. -/
theorem size_calls (begun : p.Begun) {calls : List Call}
    (whole : ∀ call ∈ calls, ∀ line ∈ allLines call.text, Escape.Whole line) :
    (calls.foldl call p).size = Size.ofText p.width (calls.flatMap Call.text) ∧
      ∀ last ∈ calls.getLast?, last.text ≠ [] →
        (calls.foldl call p).position =
          ⟨(Size.ofText p.width (calls.flatMap Call.text)).rows - 1,
            (Size.ofText p.width (calls.flatMap Call.text)).cols⟩ := by
  have hsize := (measures_calls (measures_begun begun) whole).size
  rw [width_calls, List.nil_append] at hsize
  refine ⟨hsize, ?_⟩
  intro last hlast some
  obtain ⟨before, rfl⟩ := List.getLast?_eq_some_iff.mp hlast
  have hcursor : ((before ++ [last]).foldl call p).cursor = none := by
    rw [List.foldl_append]
    exact cursor_call _ some
  rw [position, hcursor, Option.getD_none, bottomRight, hsize]

/-- Pieces of three lines with sequences in them, a move and a command between. -/
def piecewise : List Call :=
  [.print "ab\x1b[1mcd", .moveTo ⟨0, 1⟩, .printLine "e", .emit .hide,
    .printFormatted ["\x1b]8;;u\x07", "link"], .print "", .printFormattedLine ["x"]]

theorem size_calls_piecewise :
    Begun { width := 4, style := ⟨true⟩ } ∧
      (∀ call ∈ piecewise, ∀ line ∈ allLines call.text, Escape.Whole line) ∧
      (piecewise.foldl call { width := 4, style := ⟨true⟩ }).size = ⟨5, 0⟩ := by
  have hwhole : ∀ call ∈ piecewise, ∀ line ∈ allLines call.text, Escape.Whole line := by
    decide
  obtain ⟨hsize, -⟩ := size_calls (.new 4 ⟨true⟩) hwhole
  exact ⟨.new 4 ⟨true⟩, hwhole, hsize.trans (by decide)⟩

end Printer

end Inlay
