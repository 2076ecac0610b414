import Inlay.Proofs.Screen.Frames
import Inlay.Proofs.Screen.Pieces

namespace Inlay

open Text

theorem displays_of_plain {text : Text} (h : text.MadeOf Plain) : Displays text text := by
  refine Displays.of_plain (List.all_eq_true.mpr fun c hc => ?_)
  exact decide_eq_true (h c hc)

theorem Displays.styled {text plain opening closing : Text} (h : Displays text plain)
    (hopening : Styling opening) (hclosing : Styling closing) :
    Displays (opening ++ text ++ closing) plain := by
  have hlast : Displays (closing ++ []) [] := .styling hclosing .nil
  have hbody := h.append hlast
  rw [List.append_nil, List.append_nil] at hbody
  rw [List.append_assoc]
  exact .styling hopening hbody

/-- A tone does not show. -/
theorem Displays.tint {text plain : Text} (h : Displays text plain) (style : Style)
    (tone : Style.Tone) : Displays (style.tint tone text) plain := by
  have hreset : Styling "\x1b[0m" := .rendition ['0'] (Text.madeOf_of_all (by decide))
  unfold Style.tint
  split
  · exact h.styled (.rendition tone.code (Text.madeOf_of_all (by cases tone <;> decide))) hreset
  · exact h

theorem wording_displayable : Wording Plain Displayable where
  own := fun _ h => h
  given := fun h => ⟨_, displays_of_plain h⟩
  append := fun ⟨_, h⟩ ⟨_, h'⟩ => ⟨_, h.append h'⟩
  tint := fun ⟨_, h⟩ => ⟨_, h.tint _ _⟩
  underline := by
    intro style text ⟨plain, h⟩
    have hon : Styling "\x1b[4m" := .rendition ['4'] (Text.madeOf_of_all (by decide))
    have hoff : Styling "\x1b[24m" := .rendition ['2', '4'] (Text.madeOf_of_all (by decide))
    unfold Style.underline
    split
    · exact ⟨plain, h.styled hon hoff⟩
    · exact ⟨plain, h⟩

/-- The sequences of a text do not end a line. -/
theorem Displays.getLast?_eq {text plain : Text} (h : Displays text plain)
    (hlast : text.getLast? = some '\n') : plain.getLast? = some '\n' := by
  induction h with
  | nil => exact hlast
  | @glyph c text plain hc rest ih =>
      rw [List.getLast?_cons, Option.some.injEq] at hlast
      cases htext : text.getLast? with
      | none =>
          rw [htext] at hlast
          exact absurd hlast (hc.ne_of_lt (by decide))
      | some c' =>
          rw [htext] at hlast
          rw [List.getLast?_cons, ih (htext.trans (congrArg some hlast))]
          rfl
  | @lineFeed text plain rest ih =>
      rw [List.getLast?_cons, Option.some.injEq] at hlast ⊢
      cases htext : text.getLast? with
      | none =>
          have hplain := Escape.strip_of_displays rest
          rw [List.getLast?_eq_none_iff.mp htext] at hplain
          rw [← hplain]
          rfl
      | some c' =>
          rw [htext] at hlast
          rw [ih (htext.trans (congrArg some hlast))]
          rfl
  | @styling sequence text plain hs rest ih =>
      rw [List.getLast?_append] at hlast
      cases htext : text.getLast? with
      | none =>
          rw [htext, Option.none_or] at hlast
          exact absurd rfl (hs.ne_lineFeed _ (List.mem_of_getLast? hlast))
      | some c' =>
          rw [htext] at hlast
          exact ih (htext.trans hlast)

namespace Painting

variable {style : Style} {painting painting' : Painting}

/-- The text of a painting ends with a line feed. -/
def EndsLine (style : Style) (painting : Painting) : Prop :=
  (painting.flatMap (Stroke.text style)).getLast? = some '\n'

theorem EndsLine.append_left (h : EndsLine style painting') (painting : Painting) :
    EndsLine style (painting ++ painting') := by
  rw [EndsLine, List.flatMap_append, List.getLast?_append, h]
  rfl

theorem EndsLine.cons (h : EndsLine style painting) (s : Stroke) :
    EndsLine style (s :: painting) :=
  h.append_left [s]

theorem EndsLine.append (h : EndsLine style painting)
    (h' : painting' = [] ∨ EndsLine style painting') : EndsLine style (painting ++ painting') := by
  rcases h' with rfl | h'
  · rw [List.append_nil]
    exact h
  · exact h'.append_left painting

/-- Going back to a remembered place prints nothing. -/
theorem EndsLine.returning (h : EndsLine style painting) :
    EndsLine style (painting ++ [.restorePosition]) := by
  have hreturn : [Stroke.restorePosition].flatMap (Stroke.text style) = [] := rfl
  rw [EndsLine, List.flatMap_append, hreturn, List.append_nil]
  exact h

theorem endsLine_printLine (style : Style) (text : Text) : EndsLine style [.printLine text] := by
  rw [EndsLine, List.flatMap_singleton]
  exact List.getLast?_concat

theorem endsLine_printWhole (style : Style) (text : Text) :
    EndsLine style [Prompt.printWhole text] := by
  rw [EndsLine, List.flatMap_singleton]
  exact List.getLast?_concat

end Painting

open Painting

namespace Prompt

theorem endsLine_help (style : Style) (help : Text) :
    paintHelp style help = [] ∨ EndsLine style (paintHelp style help) := by
  unfold paintHelp
  split
  · exact Or.inl rfl
  · exact Or.inr ((endsLine_printWhole style _).cons _)

theorem endsLine_footer (style : Style) (lines : List Text) :
    EndsLine style (paintFooter style lines) := by
  have hlines : lines.map (fun line => Stroke.printLine (style.gray line)) = [] ∨
      EndsLine style (lines.map fun line => .printLine (style.gray line)) := by
    rcases List.eq_nil_or_concat lines with rfl | ⟨first, line, rfl⟩
    · exact Or.inl rfl
    · rw [List.concat_eq_append, List.map_append]
      exact Or.inr ((endsLine_printLine style _).append_left _)
  exact ((endsLine_printLine style _).append hlines).cons _

/-- A section that is left out at times. -/
theorem endsLine_ite {c : Prop} [Decidable c] {style : Style} {painting : Painting}
    (h : painting = [] ∨ EndsLine style painting) :
    (if c then painting else []) = [] ∨ EndsLine style (if c then painting else []) := by
  split
  · exact h
  · exact Or.inl rfl

theorem endsLine_painting (p : Prompt) (style : Style) : EndsLine style (p.painting style) := by
  cases p with
  | confirm c =>
      refine EndsLine.append_left ?_ _
      split
      · exact endsLine_printLine style _
      split
      · exact endsLine_printLine style _
      refine EndsLine.returning (EndsLine.append (EndsLine.append (EndsLine.append_left ?_ _)
        (endsLine_ite (Or.inr (endsLine_printLine style _))))
      (endsLine_ite (endsLine_help style _)))
      exact (((endsLine_printLine style _).cons _).cons _).cons _
  | line l =>
      refine EndsLine.append_left ?_ _
      split
      · exact endsLine_printLine style _
      split
      · exact endsLine_printLine style _
      refine EndsLine.returning (EndsLine.append (EndsLine.append
        ((endsLine_printLine style _).append_left _) ?_) (endsLine_ite (endsLine_help style _)))
      split
      · split
        · exact Or.inl rfl
        · exact Or.inr (endsLine_printLine style _)
      · exact Or.inl rfl
  | select s =>
      refine ((endsLine_printLine style _).append_left _).append ?_
      split
      · exact Or.inl rfl
      · exact Or.inr ((endsLine_footer style _).append_left _).returning
  | multiSelect m =>
      refine ((endsLine_printLine style _).append_left _).append ?_
      split
      · exact Or.inl rfl
      · exact Or.inr ((endsLine_footer style _).append_left _).returning

end Prompt

theorem Painting.displayable_of_says {remembers : Prop} {painting : Painting}
    (h : Says Displayable remembers painting) (style : Style) :
    Displayable (painting.flatMap (Stroke.text style)) := by
  induction painting with
  | nil => exact ⟨[], .nil⟩
  | cons s rest ih =>
      obtain ⟨hs, hrest⟩ := List.forall_mem_cons.mp h
      have hstroke : Displayable (s.text style) := by
        cases s with
        | print text => exact hs
        | printLine text =>
            obtain ⟨plain, hd⟩ := hs
            exact ⟨_, hd.append (.lineFeed .nil)⟩
        | savePosition => exact ⟨[], .nil⟩
        | printMarked text | moveTo target | emit command | setWidth width | clear | measure
        | fail message | restorePosition => exact hs.elim
      obtain ⟨plain, hd⟩ := hstroke
      obtain ⟨plain', hd'⟩ := ih hrest
      exact ⟨_, hd.append hd'⟩

theorem Prompt.Pictured.displayable {places : Bool} {painting : Painting}
    (h : Pictured Displayable places painting) (style : Style) :
    Displayable (painting.text style) := by
  rw [Painting.text_of_succeeds h.failure?_eq]
  obtain ⟨body, hbody, rfl | rfl⟩ := h
  · exact Painting.displayable_of_says hbody style
  · have hreturn : [Stroke.restorePosition].flatMap (Stroke.text style) = [] := rfl
    rw [List.flatMap_append, hreturn, List.append_nil]
    exact Painting.displayable_of_says hbody style

namespace Prompt

/-- What a prompt shows on a terminal, less the line feed at the end. -/
def picture (style : Style) (p : Prompt) : Text :=
  (Escape.strip ((p.painting style).text style)).dropLast

theorem displays_painting {p : Prompt} (hp : p.MadeOf Plain) (style : Style) :
    Displays ((p.painting style).text style) (p.picture style ++ "\n") := by
  have hpictured := p.pictured wording_displayable style hp
  obtain ⟨plain, hd⟩ := hpictured.displayable style
  have hends : ((p.painting style).text style).getLast? = some '\n' := by
    rw [Painting.text_of_succeeds hpictured.failure?_eq]
    exact p.endsLine_painting style
  have hlast := List.dropLast_append_getLast? '\n' (hd.getLast?_eq hends)
  rw [picture, Escape.strip_of_displays hd]
  change Displays _ (plain.dropLast ++ ['\n'])
  rw [hlast]
  exact hd

theorem displays_paintings {prompts : List Prompt} (h : ∀ p ∈ prompts, p.MadeOf Plain)
    (style : Style) :
    Displays (prompts.flatMap fun p => (p.painting style).text style)
      (prompts.flatMap fun p => p.picture style ++ "\n") := by
  induction prompts with
  | nil => exact .nil
  | cons p rest ih =>
      obtain ⟨hp, hrest⟩ := List.forall_mem_cons.mp h
      exact (displays_painting hp style).append (ih hrest)

end Prompt

theorem Text.layout_append_lineFeed (w : Nat) (text rest : Text) :
    layout w (text ++ '\n' :: rest) = layout w text ++ layout w rest := by
  rw [layout, allLines_append_lineFeed, List.flatMap_append]
  rfl

/-- Each picture has rows of its own, and under the last begins an empty row. -/
theorem Prompt.layout_pictures {w : Nat} (style : Style) (prompts : List Prompt) :
    layout w (prompts.flatMap fun p => p.picture style ++ "\n") =
      prompts.flatMap (fun p => layout w (p.picture style)) ++ [[]] := by
  induction prompts with
  | nil => exact congrArg (· ++ []) (wrap_of_le (Nat.zero_le w))
  | cons p rest ih =>
      rw [List.flatMap_cons, List.flatMap_cons, List.append_assoc, List.append_assoc, ← ih]
      exact layout_append_lineFeed w _ _

end Inlay
