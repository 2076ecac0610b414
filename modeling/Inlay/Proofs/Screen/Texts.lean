import Inlay.Proofs.Screen.Frames

namespace Inlay

open Text

/-- Whether a stroke adds to the frame of a printer of width `w` nothing but its text. -/
def Stroke.addsText (w : Nat) : Stroke → Bool
  | .print _ | .printLine _ | .printMarked _ | .measure | .fail _ | .savePosition => true
  | .moveTo _ | .emit _ | .clear | .restorePosition => w = 0
  | .setWidth _ => false

/-- Where the width is unknown, every stroke adds nothing but its text, unless it sets the width. -/
theorem Stroke.addsText_zero : Stroke.addsText 0 = Stroke.keepsWidth := by
  funext s
  cases s <;> rfl

theorem Stroke.keepsWidth_of_addsText {s : Stroke} {w : Nat} (h : s.addsText w = true) :
    s.keepsWidth = true := by
  cases s with
  | setWidth width => cases h
  | print text | printLine text | printMarked text | moveTo target | emit command | clear
  | measure | fail message | savePosition | restorePosition => rfl

namespace Printer

variable {p : Printer}

theorem emit_of_unknown (h : p.width = 0) (commands : List Cursor.Command) :
    p.emit commands = p := if_pos h

theorem frame_moveTo_of_unknown (h : p.width = 0) (target : Position) :
    (p.moveTo target).frame = p.frame := by
  rw [moveTo]
  dsimp only
  split
  · rfl
  · rw [emit_of_unknown h]

theorem frame_clear_of_unknown (h : p.width = 0) : p.clear.frame = p.frame := by
  have hmoved := frame_moveTo_of_unknown h p.bottomRight
  have hwidth : (p.moveTo p.bottomRight).width = 0 :=
    (congrArg Prod.fst (p.device_moveTo _)).trans h
  unfold clear
  dsimp only
  rw [emit_of_unknown hwidth, ite_self]
  exact hmoved

theorem frame_clear_of_known (known : p.width ≠ 0) (rows : p.size.rows ≠ 0) :
    p.clear.frame =
      (p.moveTo p.bottomRight).frame ++ Cursor.sequences (clearRows (p.size.rows - 1)) := by
  have hwidth : (p.moveTo p.bottomRight).width = p.width :=
    congrArg Prod.fst (p.device_moveTo p.bottomRight)
  unfold clear
  dsimp only
  rw [size_moveTo, if_neg rows, emit_of_ne_zero (hwidth ▸ known)]

/-- On a terminal, erasing takes a command at least. -/
theorem frame_clear_ne_nil (known : p.width ≠ 0) (rows : 1 ≤ p.size.rows) :
    p.clear.frame ≠ [] := by
  have hsome : Cursor.sequences (clearRows (p.size.rows - 1)) ≠ [] := by
    cases p.size.rows - 1 with
    | zero => exact nofun
    | succ above => exact nofun
  rw [frame_clear_of_known known (by omega)]
  exact fun hnil => hsome (List.append_eq_nil_iff.mp hnil).2

end Printer

namespace Easel

variable {e : Easel}

theorem frame_stroke {s : Stroke} (h : s.addsText e.printer.width = true) :
    (e.stroke s).printer.frame = e.printer.frame ++ s.text e.printer.style := by
  cases s with
  | print text => exact Printer.frame_print e.printer text
  | printMarked text => exact Printer.frame_print e.printer _
  | printLine text =>
      change ((e.printer.print text).print "\n").frame = _ ++ (text ++ _)
      rw [Printer.frame_print, Printer.frame_print, List.append_assoc]
  | measure | fail message | savePosition => exact (List.append_nil _).symm
  | setWidth width => cases h
  | moveTo target =>
      exact (Printer.frame_moveTo_of_unknown (of_decide_eq_true h) target).trans
        (List.append_nil _).symm
  | emit command =>
      change (e.printer.emit [command]).frame = _
      rw [Printer.emit_of_unknown (of_decide_eq_true h)]
      exact (List.append_nil _).symm
  | clear =>
      exact (Printer.frame_clear_of_unknown (of_decide_eq_true h)).trans (List.append_nil _).symm
  | restorePosition =>
      refine Eq.trans ?_ (List.append_nil _).symm
      cases hsaved : e.saved with
      | none => simp [stroke, onPrinter, hsaved]
      | some target =>
          simp only [stroke, onPrinter, hsaved, Option.map_some, Option.getD_some]
          exact Printer.frame_moveTo_of_unknown (of_decide_eq_true h) target

theorem frame_paint (h : e.failure = none) {painting : Painting}
    (adds : painting.all (Stroke.addsText e.printer.width) = true) :
    (e.paint painting).printer.frame =
      e.printer.frame ++ Painting.text e.printer.style painting := by
  induction painting generalizing e with
  | nil => exact (List.append_nil _).symm
  | cons s rest ih =>
      rw [List.all_cons, Bool.and_eq_true] at adds
      obtain ⟨hs, hrest⟩ := adds
      have hstroke := frame_stroke hs
      have hdevice := e.device_stroke (Stroke.keepsWidth_of_addsText hs)
      have hwidth : (e.stroke s).printer.width = e.printer.width := congrArg Prod.fst hdevice
      have hstyle : (e.stroke s).printer.style = e.printer.style := congrArg Prod.snd hdevice
      cases hfails : s.failure? with
      | none =>
          rw [← hwidth] at hrest
          rw [paint_cons h hfails, ih ((failure_stroke h s).trans hfails) hrest, hstroke, hstyle,
            Painting.text_cons hfails, List.append_assoc]
      | some message =>
          rw [paint_cons_of_failure h hfails, hstroke, Painting.text_cons_of_failure hfails,
            Stroke.text_of_failure hfails]

end Easel

/-- Whether the strokes that a visual makes next add nothing but their texts. -/
def Visual.AddsText (gallery : Gallery) (p : Printer) (v : Visual) : Prop :=
  (v.painting gallery p.style).all (Stroke.addsText p.width) = true

/-- A visual that keeps the width adds nothing but texts where the width is unknown. -/
theorem Visual.addsText_of_unknown {gallery : Gallery} (hg : gallery.KeepsWidth) {p : Printer}
    (h : p.width = 0) {v : Visual} (keeps : v.KeepsWidth) : v.AddsText gallery p := by
  rw [AddsText, h, Stroke.addsText_zero]
  exact Visual.keepsWidth_painting hg keeps p.style

theorem Visual.device_paint {gallery : Gallery} {p : Printer} {v : Visual}
    (h : v.AddsText gallery p) :
    (p.paint (v.painting gallery p.style)).printer.device = p.device := by
  apply Easel.device_paint
  apply List.all_eq_true.mpr
  intro s hs
  exact Stroke.keepsWidth_of_addsText (List.all_eq_true.mp h s hs)

namespace Frame

/-- A frame whose visuals only add texts is its text, behind what the printer held before. -/
theorem frame_paint {gallery : Gallery} {p : Printer} {visuals : List Visual}
    (adds : ∀ v ∈ visuals, v.AddsText gallery p) :
    (paint gallery p visuals).printer.frame = p.frame ++ text gallery p.style visuals ∧
      (paint gallery p visuals).printer.device = p.device := by
  induction visuals generalizing p with
  | nil => exact ⟨(List.append_nil _).symm, rfl⟩
  | cons v rest ih =>
      rw [List.forall_mem_cons] at adds
      obtain ⟨hv, hrest⟩ := adds
      have hframe := Easel.frame_paint (e := { printer := p }) rfl hv
      have hdevice := Visual.device_paint hv
      have hfailure := Easel.failure_paint (e := { printer := p }) rfl (v.painting gallery p.style)
      change (p.paint _).failure = _ at hfailure
      change (p.paint _).printer.frame = _ at hframe
      rw [text, List.flatMap_cons, paint]
      dsimp only
      cases hended : Painting.failure? (v.painting gallery p.style) with
      | none =>
          have hwidth : (p.paint (v.painting gallery p.style)).printer.width = p.width :=
            congrArg Prod.fst hdevice
          have hstyle : (p.paint (v.painting gallery p.style)).printer.style = p.style :=
            congrArg Prod.snd hdevice
          have hothers := ih (p := (p.paint (v.painting gallery p.style)).printer) fun v' hv' => by
            have hadds := hrest v' hv'
            unfold Visual.AddsText at hadds ⊢
            rwa [hwidth, hstyle]
          rw [hended] at hfailure
          rw [hfailure, Painting.text_append hended]
          refine ⟨hothers.1.trans ?_, hothers.2.trans hdevice⟩
          rw [hframe, List.append_assoc, text, hstyle]
      | some message =>
          rw [hended] at hfailure
          rw [hfailure, Painting.text_append_of_failure hended]
          exact ⟨hframe, hdevice⟩

end Frame

end Inlay
