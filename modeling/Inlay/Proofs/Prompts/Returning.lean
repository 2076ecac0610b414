import Inlay.Proofs.Prompts.Stack
import Inlay.Proofs.Screen.Tally

namespace Inlay

open Text Text.Measure

namespace Terminal

variable {t t' : Terminal}

/-- Two terminals in step, with anything in their cells. -/
structure InStep (t t' : Terminal) : Prop where
  width : t'.width = t.width
  row : t'.row = t.row
  col : t'.col = t.col
  mode : t'.mode = t.mode

namespace InStep

theorem of_cells (t : Terminal) (cells : Nat → Nat → Char) :
    InStep t { t with cells := cells } :=
  ⟨rfl, rfl, rfl, rfl⟩

theorem ite {t₁ t₁' : Terminal} {P : Prop} [Decidable P] (h : P → InStep t t')
    (h' : ¬P → InStep t₁ t₁') : InStep (if P then t else t₁) (if P then t' else t₁') := by
  split
  · rename_i hP
    exact h hP
  · rename_i hP
    exact h' hP

theorem put (h : InStep t t') (c : Char) : InStep (t.put c) (t'.put c) := by
  obtain ⟨hwidth, hrow, hcol, hmode⟩ := h
  unfold Terminal.put
  rw [hwidth, hrow, hcol]
  exact ite (fun _ => ⟨hwidth, hrow, rfl, hmode⟩) fun _ => ⟨hwidth, rfl, rfl, hmode⟩

theorem control (h : InStep t t') (parameters : Text) (final : Char) :
    InStep (t.control parameters final) (t'.control parameters final) := by
  obtain ⟨hwidth, hrow, hcol, hmode⟩ := h
  unfold Terminal.control
  rw [hwidth, hrow, hcol]
  split
  · exact ⟨rfl, rfl, rfl, hmode⟩
  · exact ⟨rfl, rfl, rfl, hmode⟩
  · exact ⟨rfl, rfl, rfl, hmode⟩
  · exact ite (fun _ => ⟨hwidth, hrow, hcol, hmode⟩) fun _ => ⟨hwidth, hrow, hcol, hmode⟩
  · exact ⟨hwidth, hrow, hcol, hmode⟩

theorem feed (h : InStep t t') (c : Char) : InStep (t.feed c) (t'.feed c) := by
  have ⟨hwidth, hrow, hcol, hmode⟩ := h
  have hstays (mode : Mode) : InStep { t with mode := mode } { t' with mode := mode } :=
    ⟨hwidth, hrow, hcol, rfl⟩
  unfold Terminal.feed
  rw [hmode]
  cases t.mode with
  | ground =>
      refine ite (fun _ => ?_) fun _ => ite (fun _ => ⟨hwidth, hrow, rfl, rfl⟩) fun _ =>
        ite (fun _ => hstays _) fun _ => ite (fun _ => h.put c) fun _ => h
      exact ⟨hwidth, congrArg (· + 1) hrow, rfl, rfl⟩
  | escape => exact ite (fun _ => hstays _) fun _ => ite (fun _ => hstays _) fun _ => hstays _
  | control parameters =>
      refine ite (fun _ => ?_) fun _ => hstays _
      have hcontrol := h.control parameters c
      exact ⟨hcontrol.width, hcontrol.row, hcontrol.col, rfl⟩
  | string => exact ite (fun _ => hstays _) fun _ => ite (fun _ => hstays _) fun _ => h
  | stringEscape => exact ite (fun _ => hstays _) fun _ => ite (fun _ => h) fun _ => hstays _

theorem run (h : InStep t t') (text : Text) : InStep (t.run text) (t'.run text) := by
  induction text generalizing t t' with
  | nil => exact h
  | cons c rest ih => exact ih (h.feed c)

end InStep

end Terminal

namespace Sheet

variable {w : Nat} {s s' s'' : Sheet}

/-- The end of one sheet is above the end of another, or in the same row and before it. -/
def Precedes (s s' : Sheet) : Prop :=
  s.above.length < s'.above.length ∨
    s.above.length = s'.above.length ∧ s.last.length < s'.last.length

theorem Precedes.trans (h : s.Precedes s') (h' : s'.Precedes s'') : s.Precedes s'' := by
  unfold Precedes at *
  omega

theorem precedes_pen (w : Nat) (s : Sheet) (c : Char) : s.Precedes (s.pen w c) := by
  have hrows : s.above.length < s.rows.length := by
    rw [rows, List.length_append]
    exact Nat.lt_succ_self _
  unfold pen
  split
  · exact Or.inl hrows
  · split
    · refine Or.inr ⟨rfl, ?_⟩
      rw [List.length_append]
      exact Nat.lt_succ_self _
    · exact Or.inl hrows

theorem precedes_write (w : Nat) (s : Sheet) {text : Text} (some : text ≠ []) :
    s.Precedes (s.write w text) := by
  induction text generalizing s with
  | nil => exact absurd rfl some
  | cons c rest ih =>
      rw [write_cons]
      by_cases hrest : rest = []
      · rw [hrest, write_nil]
        exact precedes_pen w s c
      · exact (precedes_pen w s c).trans (ih (s.pen w c) hrest)

end Sheet

namespace Printer

variable {p p' : Printer} {s s' : Sheet} {t : Terminal} {before : Nat → Nat → Char} {origin : Nat}

theorem cols_eq (h : p.Covers t before origin s) :
    p.size.cols = s.last.length + p.lineWraps * p.width :=
  h.cols.trans h.counts.last

/-- The ends of two sheets are two positions of the printer, even if lines have wrapped. -/
theorem bottomRight_ne (h : p.Covers t before origin s) (h' : p'.Covers t before origin s')
    (width : p'.width = p.width) (precedes : s.Precedes s') : p.bottomRight ≠ p'.bottomRight := by
  intro heq
  obtain ⟨hrows, hcols⟩ := Position.mk.inj heq
  rw [h.counts.rows, h'.counts.rows] at hrows
  rw [cols_eq h, cols_eq h', width] at hcols
  have hfits := h'.counts.fits
  have hstarted := h.counts.started
  rw [width] at hfits
  obtain hlt | ⟨-, hlast⟩ := precedes
  · omega
  · -- the longer row has fewer wraps above it, so it is full and the other one empty
    rcases Nat.lt_or_ge p'.lineWraps p.lineWraps with hwraps | hwraps
    · have hmul := Nat.mul_le_mul_right p.width (Nat.succ_le_of_lt hwraps)
      rw [Nat.succ_mul] at hmul
      omega
    · have hmul := Nat.mul_le_mul_right p.width hwraps
      omega

/-- Where the cursor stands that has been moved back to the end of a line of `n` characters, behind
which more was printed: in the right row, and in the last column if the line is longer. -/
structure LedBack (t : Terminal) (p p' : Printer) (n : Nat) : Prop where
  row : (t.run p'.frame).row = (t.run p.frame).row
  col : (t.run p'.frame).col = min n (p.width - 1)
  sameCell : (n % p.width = 0 → n = 0) →
    ((t.run p'.frame).col = (t.run p.frame).col ↔ n < p.width ∨ n % p.width = p.width - 1)

/-- What the cells hold does not matter to the cursor. -/
theorem LedBack.of_cells {cells : Nat → Nat → Char} {n : Nat}
    (h : LedBack { t with cells := cells } p p' n) : LedBack t p p' n := by
  have hstep := (Terminal.InStep.of_cells t cells).run p.frame
  have hstep' := (Terminal.InStep.of_cells t cells).run p'.frame
  obtain ⟨hrow, hcol, hcell⟩ := h
  rw [hstep.row, hstep'.row] at hrow
  rw [hstep'.col] at hcol
  rw [hstep.col, hstep'.col] at hcell
  exact ⟨hrow, hcol, hcell⟩

/-- At the end of a line that does not fill its last row the cursor is as far as the line is from
the last wrap. -/
theorem col_of_rests (h : p.Mirrors t before origin s) (rests : p.cursor = none)
    (unfilled : p.size.cols % p.width = 0 → p.size.cols = 0) :
    (t.run p.frame).col = p.size.cols % p.width := by
  have hcol := (h.atEnd rests).col
  have hcols := cols_eq h.toCovers
  have hfits := h.counts.fits
  have hmod : p.size.cols % p.width = s.last.length % p.width := by
    rw [hcols, Nat.add_mul_mod_self_right]
  rcases Nat.lt_or_ge s.last.length p.width with hlt | hge
  · rw [hcol, hmod, Nat.mod_eq_of_lt hlt]
  · have hfull : s.last.length = p.width := Nat.le_antisymm hfits hge
    rw [hfull, Nat.mod_self] at hmod
    have hpositive := h.positive
    have hzero := unfilled hmod
    omega

theorem min_eq_mod_iff {n w : Nat} (positive : 1 ≤ w) :
    min n (w - 1) = n % w ↔ n < w ∨ n % w = w - 1 := by
  rcases Nat.lt_or_ge n w with hlt | hge
  · rw [Nat.mod_eq_of_lt hlt]
    omega
  · omega

theorem ledBack_moveTo (h : p.Mirrors t before origin s) (rests : p.cursor = none) {text : Text}
    (prints : Prints text p p') (rests' : p'.cursor = none) (some : Escape.strip text ≠ []) :
    LedBack t p (p'.moveTo p.position) p.size.cols := by
  have h' := prints.mirrors h
  have hprecedes := Sheet.precedes_write p.width s some
  have hposition : p.position = p.bottomRight := by rw [position, rests, Option.getD_none]
  have hposition' : p'.position = p'.bottomRight := by rw [position, rests', Option.getD_none]
  have hinside : p.position.row < p'.size.rows := by
    have hrow := h.inside
    rw [h.counts.rows] at hrow
    rw [h'.counts.rows]
    obtain hlt | ⟨heq, -⟩ := hprecedes
    · omega
    · omega
  have hne : p.position ≠ p'.position := by
    rw [hposition, hposition']
    exact bottomRight_ne h.toCovers h'.toCovers prints.width hprecedes
  have hmoved := mirrors_moveTo h' hinside
  have hcol : (t.run (p'.moveTo p.position).frame).col = min p.size.cols (p.width - 1) := by
    have hcursor : (p'.moveTo p.position).cursor = Option.some p.position := by
      rw [moveTo_of_ne (Nat.ne_of_gt h'.positive) hne]
    have hwidth : (p'.moveTo p.position).width = p.width :=
      (congrArg Prod.fst (p'.device_moveTo p.position)).trans prints.width
    rw [hmoved.col p.position hcursor, hwidth, hposition]
    rfl
  constructor
  case row => rw [hmoved.row, position_moveTo, h.row]
  case col => exact hcol
  case sameCell =>
    intro unfilled
    rw [hcol, col_of_rests h rests unfilled]
    exact min_eq_mod_iff h.positive

end Printer

open Printer

/-- A painting that goes back, after its second part, to the end of the first. -/
def Painting.returning (first later : Painting) : Painting :=
  first ++ .savePosition :: (later ++ [.restorePosition])

namespace Easel

variable {e : Easel} {text : Text} {remembers : Prop}

theorem measures_stroke (h : e.printer.Measures text) {s : Stroke}
    (hs : s.Says Displayable remembers) :
    (e.stroke s).printer.Measures (text ++ s.text e.printer.style) := by
  cases s with
  | print more =>
      obtain ⟨plain, hd⟩ := hs
      exact h.print hd.whole_lines
  | printLine more =>
      obtain ⟨plain, hd⟩ := hs
      exact h.call (.printLine more) (hd.append (.lineFeed .nil)).whole_lines
  | savePosition =>
      change e.printer.Measures (text ++ [])
      rw [List.append_nil]
      exact h
  | printMarked text | moveTo target | emit command | setWidth width | clear | measure
  | fail message | restorePosition => exact hs.elim

theorem style_stroke {s : Stroke} (hs : s.Says Displayable remembers) :
    (e.stroke s).printer.style = e.printer.style := by
  have hkeeps := Painting.keepsWidth_of_says (Painting.Says.single hs)
  have hdevice := e.device_stroke (List.all_eq_true.mp hkeeps s List.mem_cons_self)
  exact congrArg Prod.snd hdevice

theorem measures_paint (h : e.printer.Measures text) (ongoing : e.failure = none)
    {painting : Painting} (hpainting : Painting.Says Displayable remembers painting) :
    (e.paint painting).printer.Measures (text ++ painting.text e.printer.style) := by
  induction painting generalizing e text with
  | nil =>
      change e.printer.Measures (text ++ [])
      rw [List.append_nil]
      exact h
  | cons s rest ih =>
      obtain ⟨hs, hrest⟩ := List.forall_mem_cons.mp hpainting
      have hnone : s.failure? = none :=
        List.findSome?_eq_none_iff.mp (Painting.failure?_of_says hpainting) s List.mem_cons_self
      have hpainted := ih (measures_stroke h hs) ((failure_stroke ongoing s).trans hnone) hrest
      rw [style_stroke hs] at hpainted
      rw [paint_cons ongoing hnone, Painting.text_cons hnone, ← List.append_assoc]
      exact hpainted

/-- What a painting that goes back leaves: the end of its first part is where the cursor is moved
from the end of the second. -/
theorem paint_returning {p : Printer} {first later : Painting}
    (hfirst : Painting.Says Displayable False first)
    (hlater : Painting.Says Displayable False later) (cursor : p.cursor = none)
    (rows : 1 ≤ p.size.rows) : ∃ e : Easel,
      (p.paint first).Rests ∧ e.Rests ∧
      Prints (later.text (p.paint first).printer.style) (p.paint first).printer e.printer ∧
      (p.paint (Painting.returning first later)).printer =
        e.printer.moveTo (p.paint first).printer.position := by
  have hstart : Easel.Rests { printer := p } := ⟨rfl, cursor, rows, nofun⟩
  obtain ⟨-, hrests, -⟩ := hstart.paint hfirst
  change (p.paint first).Rests at hrests
  let saved := (p.paint first).stroke .savePosition
  have hsays : Stroke.savePosition.Says Displayable True := trivial
  obtain ⟨-, hremembers, -⟩ := hrests.stroke hsays
  obtain ⟨hallows, hrests', hkept⟩ := hremembers.paint hlater
  refine ⟨saved.paint later, hrests, hrests', prints_paint hremembers.ongoing hallows, ?_⟩
  have hsaved : (saved.paint later).saved = some (p.paint first).printer.position :=
    hkept not_false
  rw [Printer.paint, Painting.returning, paint_append rfl (Painting.failure?_of_says hfirst)]
  change (((p.paint first).paint (.savePosition :: (later ++ [.restorePosition])))).printer = _
  rw [paint_cons hrests.ongoing rfl,
    paint_append hremembers.ongoing (Painting.failure?_of_says hlater),
    paint_cons hrests'.ongoing rfl]
  change (Option.map _ (saved.paint later).saved).getD _ = _
  rw [hsaved]
  rfl

end Easel

namespace Prompt.Line

variable {l : Line}

/-- The strokes before the place where text is typed. -/
def paintTyped (l : Line) (style : Style) : Painting :=
  paintQuestion style l.message ++ paintHintCall style l.help l.hint ++
    if l.value.isEmpty && !l.placeholder.isEmpty then [] else [.print l.shown]

/-- The strokes behind it. -/
def paintBehind (l : Line) (style : Style) : Painting :=
  (if l.value.isEmpty && !l.placeholder.isEmpty then [.print (style.gray l.placeholder)] else []) ++
    [.printLine []] ++
    (match l.error with
      | some message => if l.showHelp then [] else [.printLine (style.warning ("  " ++ message))]
      | none => []) ++
    if l.showHelp then paintHelp style l.help else []

theorem painting_eq_returning (waits : l.phase.isFinished = false) (style : Style) :
    l.painting style = Painting.returning (l.paintTyped style) (l.paintBehind style) := by
  have hopen : l.painting style = paintQuestion style l.message ++ l.paintOpen style := by
    unfold Line.painting
    cases hphase : l.phase with
    | pending | interacting => rfl
    | complete | cancelled | timedOut =>
        rw [hphase] at waits
        cases waits
  rw [hopen, paintOpen, paintValue, Painting.returning, paintTyped, paintBehind]
  cases l.error with
  | none | some message =>
      split
      · simp only [List.append_assoc, List.append_nil, List.nil_append, List.cons_append]
      · simp only [List.append_assoc, List.nil_append, List.cons_append]

/-- The question and the text that is typed so far. -/
def typed (l : Line) : Text :=
  "? " ++ (l.message ++ ": ") ++
    (if l.help.isEmpty || l.hint.isEmpty then [] else l.hint ++ [' ']) ++ l.shown

theorem shown_of_isEmpty (h : l.value.isEmpty = true) : l.shown = [] := by
  rw [shown, List.isEmpty_iff.mp h]
  split
  · rfl
  · rfl

theorem madeOf_shown (hl : l.MadeOf Plain) : l.shown.MadeOf Plain := by
  unfold shown
  split
  · intro c hc
    rw [List.eq_of_mem_replicate hc]
    decide
  · exact hl.value

theorem says_typed (hl : l.MadeOf Plain) (style : Style) :
    Painting.Says Displayable False (l.paintTyped style) := by
  refine .append (.append ?_ (says_hintCall wording_displayable style hl.hint))
    (.ite (fun _ => .nil)
    fun _ => .single ⟨_, displays_of_plain (madeOf_shown hl)⟩)
  exact says_question wording_displayable style hl.message

theorem says_behind (hl : l.MadeOf Plain) (style : Style) :
    Painting.Says Displayable False (l.paintBehind style) := by
  have hplaceholder : Displayable (style.gray l.placeholder) :=
    ⟨_, (displays_of_plain hl.placeholder).tint style .gray⟩
  refine .append (.append (.append (.ite (fun _ => .single hplaceholder) fun _ => .nil)
    (.single ⟨_, .nil⟩)) ?_)
    (.ite (fun _ => says_help wording_displayable style hl.help) fun _ => .nil)
  split
  · rename_i message hmessage
    have hwarning : Displayable (style.warning ("  " ++ message)) :=
      wording_displayable.tint (wording_displayable.append (wording_displayable.word (by decide))
        (wording_displayable.given (hl.error _ hmessage)))
    exact .ite (fun _ => .nil) fun _ => .single hwarning
  · exact .nil

theorem displays_typed (hl : l.MadeOf Plain) (style : Style) :
    Displays ((l.paintTyped style).text style) l.typed := by
  have hmark : Displays (style.highlight "? ") "? " :=
    (displays_of_plain (Text.madeOf_of_all (by decide))).tint style .highlight
  have hcolon : Text.MadeOf Plain (": " : Text) := Text.madeOf_of_all (by decide)
  have hmessage : Displays (style.bold (l.message ++ ": ")) (l.message ++ ": ") :=
    (displays_of_plain (hl.message.append hcolon)).tint style .bold
  have hblank : Text.MadeOf Plain (" " : Text) := Text.madeOf_of_all (by decide)
  have hhint : Displays (style.gray (l.hint ++ " ")) (l.hint ++ " ") :=
    (displays_of_plain (hl.hint.append hblank)).tint style .gray
  have hshown : Displays l.shown l.shown := displays_of_plain (madeOf_shown hl)
  rw [Painting.text_of_succeeds (Painting.failure?_of_says (says_typed hl style)), paintTyped,
    List.flatMap_append, List.flatMap_append, typed]
  refine ((hmark.append ?_).append ?_).append ?_
  · change Displays (style.bold (l.message ++ ": ") ++ []) _
    rw [List.append_nil]
    exact hmessage
  · unfold paintHintCall
    split
    · exact .nil
    · rw [List.flatMap_singleton]
      exact hhint
  · split
    · rename_i hempty
      rw [Bool.and_eq_true] at hempty
      rw [shown_of_isEmpty hempty.1]
      exact .nil
    · rw [List.flatMap_singleton]
      exact hshown

/-- At least a line feed stands behind what is typed. -/
theorem strip_behind_ne_nil (hl : l.MadeOf Plain) (style : Style) :
    Escape.strip ((l.paintBehind style).text style) ≠ [] := by
  have hsays := says_behind hl style
  obtain ⟨plain, hd⟩ := Painting.displayable_of_says hsays style
  have hstroke : Stroke.printLine [] ∈ l.paintBehind style := by
    rw [paintBehind, List.mem_append, List.mem_append, List.mem_append]
    exact Or.inl (Or.inl (Or.inr (List.mem_singleton_self _)))
  have hmem : '\n' ∈ (l.paintBehind style).flatMap (Stroke.text style) :=
    List.mem_flatMap_of_mem hstroke (List.mem_singleton_self _)
  rw [Painting.text_of_succeeds (Painting.failure?_of_says hsays), Escape.strip_of_displays hd]
  exact List.ne_nil_of_mem (hd.mem_lineFeed hmem)

end Prompt.Line

namespace Printer

variable {t : Terminal} {style : Style}

/-- On any terminal in the ground mode, at the start of a row, a new printer goes back to the end of
the first part of a painting. -/
theorem ledBack_returning (positive : 1 ≤ t.width) (ground : t.mode = .ground) (start : t.col = 0)
    {first later : Painting} {plain : Text} (hfirst : Painting.Says Displayable False first)
    (hlater : Painting.Says Displayable False later) (hd : Displays (first.text style) plain)
    (some : Escape.strip (later.text style) ≠ []) :
    LedBack t (paint { width := t.width, style } first).printer
      (paint { width := t.width, style } (Painting.returning first later)).printer
      (lastLine plain).length := by
  let p : Printer := { width := t.width, style }
  let blank : Terminal := { t with cells := fun _ _ => ' ' }
  have hmirrors : p.Mirrors blank blank.cells blank.row {} :=
    mirrors_new (t := blank) positive ground (fun _ _ _ => rfl) start style
  have hstart : Easel.Rests { printer := p } := ⟨rfl, rfl, Nat.le_refl 1, nofun⟩
  have hallows : Easel.AllowsAll { printer := p } first := (hstart.paint hfirst).1
  have hprints : Prints (first.text style) p (p.paint first).printer :=
    Easel.prints_paint (e := { printer := p }) rfl hallows
  obtain ⟨e, hrests, hrests', hlaterPrints, hpaint⟩ :=
    Easel.paint_returning hfirst hlater (p := p) rfl (Nat.le_refl 1)
  have hcols : (p.paint first).printer.size.cols = (lastLine plain).length := by
    have hmeasures := Easel.measures_paint (e := { printer := p })
      (measures_begun (.new t.width style)) rfl hfirst
    rw [List.nil_append] at hmeasures
    exact (congrArg Size.cols hmeasures.size).trans (visibleLength_of_displays hd.lastLine)
  have hstyle : (p.paint first).printer.style = style := hprints.style
  rw [hstyle] at hlaterPrints
  have hled := ledBack_moveTo (hprints.mirrors hmirrors) hrests.cursor hlaterPrints
    hrests'.cursor some
  rw [← hpaint, hcols] at hled
  exact hled.of_cells

/-- Prints a text, remembers the place and goes back to it once another text is printed. -/
def printAndReturn (p : Printer) (text more : Text) : Printer :=
  ((p.print text).print more).moveTo (p.print text).position

theorem printAndReturn_nil (p : Printer) (text : Text) :
    p.printAndReturn text [] = p.print text :=
  moveTo_position (p.print text)

/-- A remembered place leads back into its row, and into its column as long as the line there has
not wrapped: the column is counted from the start of the line. So a prompt's cursor stands behind
the text that is typed if the question and that text fit in a row, and in the last column if not. -/
theorem printAndReturn_ledBack (positive : 1 ≤ t.width) (ground : t.mode = .ground)
    (start : t.col = 0) (style : Style) :
    (∀ text more : Text, text.MadeOf Plain → more.MadeOf Plain →
      (more = [] → printAndReturn { width := t.width, style } text more =
        print { width := t.width, style } text) ∧
      (more ≠ [] → LedBack t (print { width := t.width, style } text)
        (printAndReturn { width := t.width, style } text more) (lastLine text).length)) ∧
    ∀ l : Prompt.Line, l.MadeOf Plain → l.phase.isFinished = false →
      LedBack t (paint { width := t.width, style } (l.paintTyped style)).printer
        (paint { width := t.width, style } (l.painting style)).printer
        (lastLine l.typed).length := by
  constructor
  · intro text more htext hmore
    have hd : Displays text text := displays_of_plain htext
    have hd' : Displays more more := displays_of_plain hmore
    refine ⟨fun hnil => (congrArg _ hnil).trans (printAndReturn_nil _ text), fun some => ?_⟩
    have hfirst : Painting.Says Displayable False [.print text] := .single ⟨_, hd⟩
    have hlater : Painting.Says Displayable False [.print more] := .single ⟨_, hd'⟩
    have hpainted (painted : Text) : Painting.text style [.print painted] = painted :=
      List.append_nil painted
    have hstrip : Escape.strip (Painting.text style [.print more]) ≠ [] := by
      rw [hpainted, Escape.strip_of_displays hd']
      exact some
    have hprinted : Displays (Painting.text style [.print text]) text := by
      rw [hpainted]
      exact hd
    exact ledBack_returning positive ground start hfirst hlater hprinted hstrip
  · intro l hl waits
    rw [l.painting_eq_returning waits]
    exact ledBack_returning positive ground start (l.says_typed hl style) (l.says_behind hl style)
      (l.displays_typed hl style) (l.strip_behind_ne_nil hl style)

theorem printAndReturn_ledBack_wrapped :
    1 ≤ (⟨4, fun _ _ => ' ', 0, 0, .ground⟩ : Terminal).width ∧
      Text.MadeOf Plain ("abcde" : Text) ∧ Text.MadeOf Plain ("x" : Text) ∧
      LedBack ⟨4, fun _ _ => ' ', 0, 0, .ground⟩ (print { width := 4, style := ⟨false⟩ } "abcde")
        (printAndReturn { width := 4, style := ⟨false⟩ } "abcde" "x") 5 := by
  have htext : Text.MadeOf Plain ("abcde" : Text) := Text.madeOf_of_all (by decide)
  have hmore : Text.MadeOf Plain ("x" : Text) := Text.madeOf_of_all (by decide)
  have hled := (printAndReturn_ledBack (t := ⟨4, fun _ _ => ' ', 0, 0, .ground⟩) (by decide) rfl rfl
    ⟨false⟩).1 "abcde" "x" htext hmore
  exact ⟨by decide, htext, hmore, hled.2 (by decide)⟩

/-- On twenty columns, a prompt whose line is eight characters into its second row: the cursor goes
to the last column. The same with any text that has wrapped. -/
theorem printAndReturn_losesColumn :
    (Terminal.run ⟨20, fun _ _ => ' ', 0, 0, .ground⟩ (paint { width := 20, style := ⟨false⟩ }
        (Prompt.Line.paintTyped { message := "Name", default := "a name of many words" }
          ⟨false⟩)).printer.frame).col = 8 ∧
      (Terminal.run ⟨20, fun _ _ => ' ', 0, 0, .ground⟩ (paint { width := 20, style := ⟨false⟩ }
        (Prompt.Line.painting { message := "Name", default := "a name of many words" }
          ⟨false⟩)).printer.frame).col = 19 ∧
      (Terminal.run ⟨4, fun _ _ => ' ', 0, 0, .ground⟩
        (print { width := 4, style := ⟨false⟩ } "abcde").frame).col = 1 ∧
      (Terminal.run ⟨4, fun _ _ => ' ', 0, 0, .ground⟩
        (printAndReturn { width := 4, style := ⟨false⟩ } "abcde" "x").frame).col = 3 := by
  decide

end Printer

end Inlay
