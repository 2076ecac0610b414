import Inlay.Proofs.Screen.Printing

namespace Inlay

open Text

namespace Stroke

/-- What a stroke adds to the text of a frame. -/
def text (style : Style) : Stroke → Text
  | .print text => text
  | .printLine text => text ++ "\n"
  | .printMarked text => style.render text
  | _ => []

def failure? : Stroke → Option Text
  | .fail message => some message
  | _ => none

theorem text_of_failure {s : Stroke} {message : Text} (h : s.failure? = some message)
    (style : Style) : s.text style = [] := by
  cases s with
  | print text | printLine text | printMarked text => cases h
  | moveTo target | emit command | setWidth width | clear | measure | fail message | savePosition
  | restorePosition => rfl

end Stroke

namespace Painting

def failure? (painting : Painting) : Option Text := painting.findSome? Stroke.failure?

/-- The text of a painting, up to the stroke that fails. -/
def text (style : Style) (painting : Painting) : Text :=
  (painting.takeWhile fun s => s.failure?.isNone).flatMap (Stroke.text style)

theorem text_cons {s : Stroke} (h : s.failure? = none) (style : Style) (rest : Painting) :
    text style (s :: rest) = s.text style ++ text style rest := by
  rw [text, List.takeWhile_cons, h]
  rfl

theorem text_cons_of_failure {s : Stroke} {message : Text} (h : s.failure? = some message)
    (style : Style) (rest : Painting) : text style (s :: rest) = [] := by
  rw [text, List.takeWhile_cons, h]
  rfl

theorem failure?_cons {s : Stroke} (h : s.failure? = none) (rest : Painting) :
    failure? (s :: rest) = failure? rest := by
  rw [failure?, List.findSome?_cons, h]
  rfl

theorem text_append {painting : Painting} (h : painting.failure? = none) (style : Style)
    (rest : Painting) : text style (painting ++ rest) = text style painting ++ text style rest := by
  induction painting with
  | nil => rfl
  | cons s painting ih =>
      cases hs : s.failure? with
      | some message =>
          rw [failure?, List.findSome?_cons, hs] at h
          cases h
      | none =>
          rw [failure?_cons hs] at h
          rw [List.cons_append, text_cons hs, ih h, text_cons hs, List.append_assoc]

theorem text_append_of_failure {painting : Painting} {message : Text}
    (h : painting.failure? = some message) (style : Style) (rest : Painting) :
    text style (painting ++ rest) = text style painting := by
  induction painting with
  | nil => cases h
  | cons s painting ih =>
      cases hs : s.failure? with
      | some message =>
          rw [List.cons_append, text_cons_of_failure hs, text_cons_of_failure hs]
      | none =>
          rw [failure?_cons hs] at h
          rw [List.cons_append, text_cons hs, ih h, text_cons hs]

theorem text_of_succeeds {painting : Painting} (h : painting.failure? = none) (style : Style) :
    text style painting = painting.flatMap (Stroke.text style) := by
  induction painting with
  | nil => rfl
  | cons s rest ih =>
      cases hs : s.failure? with
      | some message =>
          rw [failure?, List.findSome?_cons, hs] at h
          cases h
      | none =>
          rw [failure?_cons hs] at h
          rw [text_cons hs, ih h, List.flatMap_cons]

theorem failure?_of_says {P : Text → Prop} {remembers : Prop} {painting : Painting}
    (h : Says P remembers painting) : failure? painting = none := by
  rw [failure?, List.findSome?_eq_none_iff]
  intro s hs
  have hsays := h s hs
  cases s with
  | fail message => exact hsays.elim
  | print text | printLine text | printMarked text | moveTo target | emit command
  | setWidth width | clear | measure | savePosition | restorePosition => rfl

end Painting

theorem Prompt.Pictured.failure?_eq {P : Text → Prop} {places : Bool} {painting : Painting}
    (h : Pictured P places painting) : painting.failure? = none := by
  obtain ⟨body, hbody, rfl | rfl⟩ := h
  · exact Painting.failure?_of_says hbody
  · rw [Painting.failure?, List.findSome?_append, ← Painting.failure?,
      Painting.failure?_of_says hbody]
    rfl

namespace Printer

variable {p : Printer}

/-- A text was printed, in pieces perhaps and with moves of the cursor among them. -/
structure Prints (text : Text) (p p' : Printer) : Prop where
  device : p'.device = p.device
  displayable : Displayable text
  mirrors : ∀ {t before origin sheet}, p.Mirrors t before origin sheet →
    p'.Mirrors t before origin (sheet.write p.width (Escape.strip text))

namespace Prints

variable {p p' p'' : Printer} {text text' : Text}

theorem width (h : Prints text p p') : p'.width = p.width := congrArg Prod.fst h.device

theorem style (h : Prints text p p') : p'.style = p.style := congrArg Prod.snd h.device

theorem of_mirrors (device : p'.device = p.device)
    (mirrors : ∀ {t before origin sheet}, p.Mirrors t before origin sheet →
      p'.Mirrors t before origin sheet) : Prints [] p p' :=
  ⟨device, ⟨[], .nil⟩, mirrors⟩

theorem refl (p : Printer) : Prints [] p p := .of_mirrors rfl id

theorem trans (h : Prints text p p') (h' : Prints text' p' p'') :
    Prints (text ++ text') p p'' := by
  obtain ⟨plain, hd⟩ := h.displayable
  obtain ⟨plain', hd'⟩ := h'.displayable
  refine ⟨h'.device.trans h.device, ⟨_, hd.append hd'⟩, ?_⟩
  intro t before origin sheet hmirrors
  have hmirrors' := h'.mirrors (h.mirrors hmirrors)
  rw [Escape.strip_of_displays hd, Escape.strip_of_displays hd', h.width, ← Sheet.write_append]
    at hmirrors'
  rw [Escape.strip_of_displays (hd.append hd')]
  exact hmirrors'

end Prints

theorem prints_print {text : Text} (hd : Displayable text) (rests : text ≠ [] → p.cursor = none) :
    Prints text p (p.print text) := by
  obtain ⟨plain, hd⟩ := hd
  refine ⟨p.device_print text, ⟨plain, hd⟩, ?_⟩
  intro t before origin sheet hmirrors
  rw [Escape.strip_of_displays hd]
  exact mirrors_print hmirrors hd rests

theorem cursor_print (h : p.cursor = none) (text : Text) : (p.print text).cursor = none := by
  rw [print]
  split
  · exact h
  · rfl

theorem prints_printLine {text : Text} (hd : Displayable text) (rests : p.cursor = none) :
    Prints (text ++ "\n") p (p.printLine text) := by
  have hline : Displayable "\n" := ⟨['\n'], .lineFeed .nil⟩
  exact (prints_print hd fun _ => rests).trans
    (prints_print hline fun _ => cursor_print rests text)

theorem prints_moveTo {target : Position} (inside : target.row < p.size.rows) :
    Prints [] p (p.moveTo target) :=
  .of_mirrors (p.device_moveTo target) fun h => mirrors_moveTo h inside

end Printer

open Printer

namespace Easel

variable {e : Easel}

/-- A tidy stroke prints a text that is displayed, while the cursor rests at the end of what was
printed before, or it moves the cursor to a row that is there. -/
def Allows (e : Easel) : Stroke → Prop
  | .print text => Displayable text ∧ (text ≠ [] → e.printer.cursor = none)
  | .printLine text => Displayable text ∧ e.printer.cursor = none
  | .printMarked text =>
      Displayable (e.printer.style.render text) ∧
        (e.printer.style.render text ≠ [] → e.printer.cursor = none)
  | .moveTo target => target.row < e.printer.size.rows
  | .restorePosition => ∀ target, e.saved = some target → target.row < e.printer.size.rows
  | .measure | .fail _ | .savePosition => True
  | .emit _ | .setWidth _ | .clear => False

/-- Every stroke is tidy, up to the first that fails. -/
def AllowsAll (e : Easel) : Painting → Prop
  | [] => True
  | s :: rest => e.Allows s ∧ (s.failure? = none → (e.stroke s).AllowsAll rest)

theorem prints_stroke {s : Stroke} (h : e.Allows s) :
    Prints (s.text e.printer.style) e.printer (e.stroke s).printer := by
  cases s with
  | print text => exact prints_print h.1 h.2
  | printLine text => exact prints_printLine h.1 h.2
  | printMarked text => exact prints_print h.1 h.2
  | moveTo target => exact prints_moveTo h
  | emit command | setWidth width | clear => exact h.elim
  | measure | fail message | savePosition => exact .refl e.printer
  | restorePosition =>
      cases hsaved : e.saved with
      | none =>
          rw [stroke, hsaved]
          exact .refl e.printer
      | some target =>
          rw [stroke, hsaved]
          exact prints_moveTo (h target hsaved)

theorem failure_stroke (h : e.failure = none) (s : Stroke) :
    (e.stroke s).failure = s.failure? := by
  cases s with
  | fail message => rfl
  | print text | printLine text | printMarked text | moveTo target | emit command
  | setWidth width | clear | measure | savePosition | restorePosition => exact h

theorem paint_cons (h : e.failure = none) {s : Stroke} (hs : s.failure? = none)
    (rest : Painting) : e.paint (s :: rest) = (e.stroke s).paint rest := by
  rw [paint, failure_stroke h, hs]
  rfl

theorem paint_cons_of_failure (h : e.failure = none) {s : Stroke} {message : Text}
    (hs : s.failure? = some message) (rest : Painting) : e.paint (s :: rest) = e.stroke s := by
  rw [paint, failure_stroke h, hs]
  rfl

theorem failure_paint (h : e.failure = none) (painting : Painting) :
    (e.paint painting).failure = painting.failure? := by
  induction painting generalizing e with
  | nil => exact h
  | cons s rest ih =>
      cases hs : s.failure? with
      | none =>
          rw [paint_cons h hs, ih ((failure_stroke h s).trans hs), Painting.failure?_cons hs]
      | some message =>
          rw [paint_cons_of_failure h hs, failure_stroke h, Painting.failure?,
            List.findSome?_cons, hs]

theorem prints_paint (h : e.failure = none) {painting : Painting} (tidy : e.AllowsAll painting) :
    Prints (Painting.text e.printer.style painting) e.printer (e.paint painting).printer := by
  induction painting generalizing e with
  | nil => exact .refl e.printer
  | cons s rest ih =>
      obtain ⟨hallows, hrest⟩ := tidy
      have hstroke := prints_stroke hallows
      cases hs : s.failure? with
      | none =>
          have hpaint := ih ((failure_stroke h s).trans hs) (hrest hs)
          rw [hstroke.style] at hpaint
          rw [Painting.text_cons hs, paint_cons h hs]
          exact hstroke.trans hpaint
      | some message =>
          rw [Stroke.text_of_failure hs] at hstroke
          rw [Painting.text_cons_of_failure hs, paint_cons_of_failure h hs]
          exact hstroke

end Easel

namespace Frame

/-- Every visual's painting is tidy, up to the one that ends the frame. -/
def Tidy (gallery : Gallery) (p : Printer) : List Visual → Prop
  | [] => True
  | v :: rest =>
      Easel.AllowsAll { printer := p } (v.painting gallery p.style) ∧
        (Painting.failure? (v.painting gallery p.style) = none →
          Tidy gallery (p.paint (v.painting gallery p.style)).printer rest)

/-- The text of a frame, up to the stroke that ends it. -/
def text (gallery : Gallery) (style : Style) (visuals : List Visual) : Text :=
  Painting.text style (visuals.flatMap (·.painting gallery style))

theorem prints_paint {gallery : Gallery} {p : Printer} {visuals : List Visual}
    (tidy : Tidy gallery p visuals) :
    Prints (text gallery p.style visuals) p (paint gallery p visuals).printer := by
  induction visuals generalizing p with
  | nil => exact .refl p
  | cons v rest ih =>
      obtain ⟨hv, hrest⟩ := tidy
      have hpaint := Easel.prints_paint (e := { printer := p }) rfl hv
      have hfailure := Easel.failure_paint (e := { printer := p }) rfl (v.painting gallery p.style)
      change (p.paint _).failure = _ at hfailure
      rw [text, List.flatMap_cons, paint]
      dsimp only
      cases hended : Painting.failure? (v.painting gallery p.style) with
      | none =>
          rw [hended] at hfailure
          rw [hfailure, Painting.text_append hended]
          have hothers := ih (hrest hended)
          rw [text] at hothers
          have hstyle : (p.paint (v.painting gallery p.style)).printer.style = p.style :=
            hpaint.style
          rw [hstyle] at hothers
          exact hpaint.trans hothers
      | some message =>
          rw [hended] at hfailure
          rw [hfailure, Painting.text_append_of_failure hended]
          exact hpaint

end Frame

end Inlay
