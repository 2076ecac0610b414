import Inlay.Proofs.Prompts.Picture

namespace Inlay

open Text

namespace Printer

theorem rows_le_countWraps (p : Printer) : p.size.rows ≤ p.countWraps.size.rows := by
  unfold countWraps
  dsimp only
  split
  · exact Nat.le_add_right _ _
  · exact Nat.le_refl _

theorem rows_le_startLines (p : Printer) (lines : List Text) :
    p.size.rows ≤ (lines.foldl startLine p).size.rows := by
  induction lines generalizing p with
  | nil => exact Nat.le_refl _
  | cons line rest ih =>
      have hline : p.size.rows ≤ (p.startLine line).size.rows :=
        Nat.le_succ_of_le p.rows_le_countWraps
      exact Nat.le_trans hline (ih _)

theorem rows_le_print (p : Printer) (text : Text) : p.size.rows ≤ (p.print text).size.rows := by
  unfold print
  split
  · exact Nat.le_refl _
  · exact Nat.le_trans (rows_le_startLines { p with frame := p.frame ++ text, line := _ } _)
      (rows_le_countWraps _)

theorem rows_le_printLine (p : Printer) (text : Text) :
    p.size.rows ≤ (p.printLine text).size.rows :=
  Nat.le_trans (p.rows_le_print text) (rows_le_print _ _)

end Printer

namespace Easel

variable {e : Easel} {painting painting' : Painting}

/-- The cursor rests where the last text ended, and a remembered position is in the rows so far. -/
structure Rests (e : Easel) : Prop where
  ongoing : e.failure = none
  cursor : e.printer.cursor = none
  rows : 1 ≤ e.printer.size.rows
  saved : ∀ target, e.saved = some target → target.row < e.printer.size.rows

theorem Rests.stroke {remembers : Prop} (h : e.Rests) {s : Stroke}
    (hs : s.Says Displayable remembers) :
    e.Allows s ∧ (e.stroke s).Rests ∧ (¬remembers → (e.stroke s).saved = e.saved) := by
  cases s with
  | print text =>
      refine ⟨⟨hs, fun _ => h.cursor⟩, ⟨h.ongoing, Printer.cursor_print h.cursor text, ?_, ?_⟩,
        fun _ => rfl⟩
      · exact Nat.le_trans h.rows (Printer.rows_le_print _ text)
      · exact fun target htarget =>
          Nat.lt_of_lt_of_le (h.saved target htarget) (Printer.rows_le_print _ text)
  | printLine text =>
      refine ⟨⟨hs, h.cursor⟩, ⟨h.ongoing, ?_, ?_, ?_⟩, fun _ => rfl⟩
      · exact Printer.cursor_print (Printer.cursor_print h.cursor text) _
      · exact Nat.le_trans h.rows (Printer.rows_le_printLine _ text)
      · exact fun target htarget =>
          Nat.lt_of_lt_of_le (h.saved target htarget) (Printer.rows_le_printLine _ text)
  | savePosition =>
      refine ⟨trivial, ⟨h.ongoing, h.cursor, h.rows, fun target htarget => ?_⟩, fun hnot =>
        absurd hs hnot⟩
      rw [← Option.some.inj htarget, Printer.position, h.cursor]
      exact Nat.sub_lt h.rows Nat.one_pos
  | printMarked text | moveTo target | emit command | setWidth width | clear | measure
  | fail message | restorePosition => exact hs.elim

theorem Rests.paint {remembers : Prop} (h : e.Rests)
    (hpainting : Painting.Says Displayable remembers painting) :
    e.AllowsAll painting ∧ (e.paint painting).Rests ∧
      (¬remembers → (e.paint painting).saved = e.saved) := by
  induction painting generalizing e with
  | nil => exact ⟨trivial, h, fun _ => rfl⟩
  | cons s rest ih =>
      obtain ⟨hs, hrest⟩ := List.forall_mem_cons.mp hpainting
      have hnone : s.failure? = none :=
        List.findSome?_eq_none_iff.mp (Painting.failure?_of_says hpainting) s List.mem_cons_self
      obtain ⟨hallows, hrests, hsaved⟩ := h.stroke hs
      obtain ⟨hall, hrests', hsaved'⟩ := ih hrests hrest
      rw [paint_cons h.ongoing hnone]
      exact ⟨⟨hallows, fun _ => hall⟩, hrests', fun hnot => (hsaved' hnot).trans (hsaved hnot)⟩

theorem AllowsAll.append (ongoing : e.failure = none) (h : e.AllowsAll painting)
    (succeeds : painting.failure? = none) (h' : (e.paint painting).AllowsAll painting') :
    e.AllowsAll (painting ++ painting') := by
  induction painting generalizing e with
  | nil => exact h'
  | cons s rest ih =>
      cases hs : s.failure? with
      | some message =>
          rw [Painting.failure?, List.findSome?_cons, hs] at succeeds
          cases succeeds
      | none =>
          rw [Painting.failure?_cons hs] at succeeds
          rw [paint_cons ongoing hs] at h'
          exact ⟨h.1, fun _ => ih ((failure_stroke ongoing s).trans hs) (h.2 hs) succeeds h'⟩

theorem paint_append (ongoing : e.failure = none) (succeeds : painting.failure? = none)
    (painting' : Painting) :
    e.paint (painting ++ painting') = (e.paint painting).paint painting' := by
  induction painting generalizing e with
  | nil => rfl
  | cons s rest ih =>
      cases hs : s.failure? with
      | some message =>
          rw [Painting.failure?, List.findSome?_cons, hs] at succeeds
          cases succeeds
      | none =>
          rw [Painting.failure?_cons hs] at succeeds
          rw [List.cons_append, paint_cons ongoing hs, paint_cons ongoing hs,
            ih ((failure_stroke ongoing s).trans hs) succeeds]

end Easel

namespace Prompt

/-- A picture that begins where a text ended is tidy. If no place was remembered on the way, the
cursor rests at the end of it. -/
theorem Pictured.tidy {places : Bool} {painting : Painting}
    (h : Pictured Displayable places painting) {p : Printer} (cursor : p.cursor = none)
    (rows : 1 ≤ p.size.rows) : Easel.AllowsAll { printer := p } painting ∧
      (places = false → (p.paint painting).printer.cursor = none ∧
        1 ≤ (p.paint painting).printer.size.rows) := by
  have hstart : Easel.Rests { printer := p } := ⟨rfl, cursor, rows, nofun⟩
  obtain ⟨body, hbody, hpainting⟩ := h
  obtain ⟨hall, hrests, hsaved⟩ := hstart.paint hbody
  rcases hpainting with rfl | rfl
  · exact ⟨hall, fun _ => ⟨hrests.cursor, hrests.rows⟩⟩
  · have hnone := Painting.failure?_of_says hbody
    refine ⟨hall.append rfl hnone ⟨fun target => hrests.saved target, fun _ => trivial⟩, ?_⟩
    rintro rfl
    have hstays : (p.paint (body ++ [.restorePosition])).printer =
        (p.paint body).printer := by
      have hrestored := Easel.paint_cons hrests.ongoing (s := .restorePosition) rfl []
      rw [Printer.paint, Easel.paint_append rfl hnone, hrestored]
      change (Option.map _ (Easel.paint _ body).saved).getD _ = _
      rw [hsaved Bool.false_ne_true]
      rfl
    rw [hstays]
    exact ⟨hrests.cursor, hrests.rows⟩

end Prompt

namespace Frame

/-- Prompts that a gallery shows under the numbers of widgets. -/
def Hangs (gallery : Gallery) (w : Nat) (p : Prompt) : Prop := gallery w = p.painting

variable {gallery : Gallery} {ws : List Nat} {prompts : List Prompt}

theorem tidy_prompts (hangs : List.Forall₂ (Hangs gallery) ws prompts)
    (plain : ∀ p ∈ prompts, p.MadeOf Plain)
    (resting : ∀ p ∈ prompts.dropLast, p.placesCursor = false) {p : Printer}
    (cursor : p.cursor = none) (rows : 1 ≤ p.size.rows) :
    Tidy gallery p (ws.map .widget) := by
  induction hangs generalizing p with
  | nil => trivial
  | @cons w prompt ws rest hprompt hrest ih =>
      obtain ⟨hplain, hplains⟩ := List.forall_mem_cons.mp plain
      have hpictured := prompt.pictured wording_displayable p.style hplain
      obtain ⟨hall, hafter⟩ := hpictured.tidy cursor rows
      have hpainting : gallery w p.style = prompt.painting p.style := congrFun hprompt p.style
      have hallowed : Easel.AllowsAll { printer := p } (gallery w p.style) := by
        rw [hpainting]
        exact hall
      refine ⟨hallowed, fun _ => ?_⟩
      change Tidy gallery (p.paint (gallery w p.style)).printer _
      cases rest with
      | nil =>
          cases hrest
          trivial
      | cons next rest =>
          rw [List.dropLast_cons_cons, List.forall_mem_cons] at resting
          obtain ⟨hcursor, hrows⟩ := hafter resting.1
          rw [hpainting]
          exact ih hplains resting.2 hcursor hrows

theorem text_prompts (hangs : List.Forall₂ (Hangs gallery) ws prompts) (style : Style) :
    text gallery style (ws.map .widget) =
      prompts.flatMap fun p => (p.painting style).text style := by
  unfold text
  induction hangs with
  | nil => rfl
  | @cons w prompt ws rest hprompt hrest ih =>
      have hpainting : gallery w style = prompt.painting style := congrFun hprompt style
      have hnone := (prompt.pictured .any style prompt.madeOf_any).failure?_eq
      rw [List.map_cons, List.flatMap_cons, List.flatMap_cons, ← ih]
      change Painting.text style (gallery w style ++ _) = _
      rw [hpainting, Painting.text_append hnone]

end Frame

end Inlay
