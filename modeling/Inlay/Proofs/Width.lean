import Inlay.Proofs.Wording

namespace Inlay

namespace Printer

/-- What a printer writes for. Printing and moving leave it alone. -/
def device (p : Printer) : Nat × Style := (p.width, p.style)

variable (p : Printer)

@[simp] theorem device_emit (commands : List Cursor.Command) :
    (p.emit commands).device = p.device := by
  rw [emit]
  split
  · rfl
  · rfl

@[simp] theorem device_countWraps : p.countWraps.device = p.device := by
  rw [countWraps]
  dsimp only
  split
  · rfl
  · rfl

@[simp] theorem device_startLine (line : Text) : (p.startLine line).device = p.device :=
  p.device_countWraps

@[simp] theorem device_startLines (lines : List Text) :
    (lines.foldl startLine p).device = p.device := by
  induction lines generalizing p with
  | nil => rfl
  | cons line rest ih => rw [List.foldl_cons, ih, device_startLine]

@[simp] theorem device_print (text : Text) : (p.print text).device = p.device := by
  rw [print]
  split
  · rfl
  · exact (device_countWraps _).trans (device_startLines _ _)

@[simp] theorem device_printLine (text : Text) : (p.printLine text).device = p.device := by
  rw [printLine, device_print, device_print]

@[simp] theorem device_moveTo (target : Position) : (p.moveTo target).device = p.device := by
  rw [moveTo]
  dsimp only
  split
  · rfl
  · exact p.device_emit _

@[simp] theorem device_clear : p.clear.device = p.device := by
  unfold clear
  dsimp only
  split
  · exact p.device_moveTo _
  · exact (device_emit _ _).trans (p.device_moveTo _)

theorem width_countWraps : p.countWraps.width = p.width := congrArg Prod.fst p.device_countWraps

theorem width_print (text : Text) : (p.print text).width = p.width :=
  congrArg Prod.fst (p.device_print text)

theorem width_clear : p.clear.width = p.width := congrArg Prod.fst p.device_clear

theorem style_clear : p.clear.style = p.style := congrArg Prod.snd p.device_clear

end Printer

def Stroke.keepsWidth : Stroke → Bool
  | .setWidth _ => false
  | _ => true

namespace Painting

def keepsWidth (painting : Painting) : Bool := painting.all Stroke.keepsWidth

@[simp] theorem keepsWidth_cons (s : Stroke) (rest : Painting) :
    keepsWidth (s :: rest) = (s.keepsWidth && keepsWidth rest) :=
  rfl

@[simp] theorem keepsWidth_append (painting painting' : Painting) :
    keepsWidth (painting ++ painting') = (keepsWidth painting && keepsWidth painting') :=
  List.all_append

theorem keepsWidth_of_says {P : Text → Prop} {remembers : Prop} {painting : Painting}
    (h : Says P remembers painting) : keepsWidth painting = true := by
  rw [keepsWidth, List.all_eq_true]
  intro s hs
  have hsays := h s hs
  cases s with
  | setWidth width => exact hsays.elim
  | print text | printLine text | printMarked text | moveTo target | emit command | clear
  | measure | fail message | savePosition | restorePosition => rfl

end Painting

open Painting

namespace Easel

theorem device_stroke (e : Easel) {s : Stroke} (h : s.keepsWidth = true) :
    (e.stroke s).printer.device = e.printer.device := by
  cases s with
  | print text | printLine text | printMarked text | moveTo target | emit command | clear =>
      simp [stroke, onPrinter]
  | setWidth width => cases h
  | measure | fail message | savePosition => rfl
  | restorePosition => cases hsaved : e.saved <;> simp [stroke, onPrinter, hsaved]

theorem device_paint (e : Easel) {painting : Painting} (h : keepsWidth painting = true) :
    (e.paint painting).printer.device = e.printer.device := by
  induction painting generalizing e with
  | nil => rfl
  | cons s rest ih =>
      rw [keepsWidth_cons, Bool.and_eq_true] at h
      obtain ⟨hs, hrest⟩ := h
      unfold paint
      dsimp only
      split
      · exact e.device_stroke hs
      · exact (ih _ hrest).trans (e.device_stroke hs)

end Easel

theorem Widget.keepsWidth_painting (widget : Widget) (now : Instant) (style : Style) :
    keepsWidth (widget.painting now style) = true := by
  obtain ⟨places, body, hbody, hpainting | hpainting⟩ := widget.pictured_any now style
  · rw [hpainting]
    exact keepsWidth_of_says hbody
  · rw [hpainting, keepsWidth_append, keepsWidth_of_says hbody]
    rfl

/-- No painting that a visual makes sets the width. Those of widgets never do. -/
def Visual.KeepsWidth : Visual → Prop
  | .drawn painting _ => ∀ renderings, keepsWidth (painting renderings) = true
  | .widget _ => True

theorem Visual.keepsWidth_rendered {v : Visual} (h : v.KeepsWidth) : v.rendered.KeepsWidth := by
  cases v with
  | drawn painting renderings => exact h
  | widget w => exact h

/-- A gallery of paintings that keep the width, as every scene's is. -/
def Gallery.KeepsWidth (gallery : Gallery) : Prop :=
  ∀ w style, keepsWidth (gallery w style) = true

theorem Scene.keepsWidth_gallery (s : Scene) : Gallery.KeepsWidth s.gallery := by
  intro w style
  rw [gallery]
  split
  · exact Widget.keepsWidth_painting _ _ _
  · rfl

theorem Visual.keepsWidth_painting {gallery : Gallery} (hg : Gallery.KeepsWidth gallery)
    {v : Visual} (h : v.KeepsWidth) (style : Style) :
    keepsWidth (v.painting gallery style) = true := by
  cases v with
  | drawn painting renderings => exact h renderings
  | widget w => exact hg w style

theorem Frame.width_paint {gallery : Gallery} (hg : Gallery.KeepsWidth gallery) (p : Printer)
    {visuals : List Visual} (h : ∀ v ∈ visuals, v.KeepsWidth) :
    (Frame.paint gallery p visuals).printer.width = p.width ∧
      ∀ v ∈ (Frame.paint gallery p visuals).visuals, v.KeepsWidth := by
  induction visuals generalizing p with
  | nil => exact ⟨rfl, h⟩
  | cons v rest ih =>
      rw [List.forall_mem_cons] at h
      obtain ⟨hv, hrest⟩ := h
      have painted : (p.paint (v.painting gallery p.style)).printer.width = p.width :=
        congrArg Prod.fst (Easel.device_paint _ (Visual.keepsWidth_painting hg hv p.style))
      rw [Frame.paint]
      dsimp only
      split
      · refine ⟨painted, ?_⟩
        rw [List.forall_mem_cons]
        exact ⟨Visual.keepsWidth_rendered hv, hrest⟩
      · obtain ⟨hwidth, hvisuals⟩ := ih (p.paint (v.painting gallery p.style)).printer hrest
        refine ⟨hwidth.trans painted, ?_⟩
        rw [List.forall_mem_cons]
        exact ⟨Visual.keepsWidth_rendered hv, hvisuals⟩

end Inlay
