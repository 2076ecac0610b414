import Inlay.Proofs.Screen.Pieces
import Inlay.Style
import Mathlib.Algebra.GroupWithZero.Nat
import Mathlib.Data.Bool.AllAny

namespace Inlay

open Text Text.Escape Text.Measure

namespace Text.Measure

theorem countLineBreaks_eq_sum (text : Text) (width : Nat) :
    countLineBreaks text width =
      ((allLines text).map fun line => wrapRows (visibleLength line) width).sum := by
  rw [countLineBreaks, List.sum_eq_foldl, List.foldl_map]

/-- Text that is added goes on with the last line, and its other lines add rows of their own. -/
theorem countLineBreaks_append (text more : Text) (width : Nat) :
    countLineBreaks (text ++ more) width + wrapRows (visibleLength (lastLine text)) width =
      countLineBreaks text width +
        wrapRows (visibleLength (lastLine text ++ (lines more).1)) width +
        ((lines more).2.map fun line => wrapRows (visibleLength line) width).sum := by
  obtain ⟨before, htext, happend⟩ := exists_allLines_append text
  rw [countLineBreaks_eq_sum, countLineBreaks_eq_sum, happend, htext]
  simp only [List.map_append, List.map_cons, List.map_nil, List.sum_append, List.sum_cons,
    List.sum_nil]
  omega

/-- Text that is added behind whole sequences leaves them as they are, so that stripping and
measuring go piece by piece and no row is lost. -/
theorem measures_grow {text : Text} (whole : Whole (lastLine text)) (more : Text) :
    strip (lastLine text ++ (lines more).1) = strip (lastLine text) ++ strip (lines more).1 ∧
      visibleLength (lastLine text ++ (lines more).1) =
        visibleLength (lastLine text) + visibleLength (lines more).1 ∧
      ∀ width, countLineBreaks text width ≤ countLineBreaks (text ++ more) width := by
  have hlength := visibleLength_append_of_whole whole (lines more).1
  refine ⟨whole.strip_append _, hlength, fun width => ?_⟩
  have hgrows : wrapRows (visibleLength (lastLine text)) width ≤
      wrapRows (visibleLength (lastLine text ++ (lines more).1)) width := by
    rw [hlength]
    exact wrapRows_mono (Nat.le_add_right _ _) width
  have happend := countLineBreaks_append text more width
  omega

/-- A link that is complete, before a text that begins within its line and wraps it. -/
theorem measures_grow_link :
    Whole (lastLine "a\n\x1b]8;;u\x1b\\bc") ∧
      visibleLength ("\x1b]8;;u\x1b\\bc" ++ "\\defg") = 2 + 5 ∧
      countLineBreaks "a\n\x1b]8;;u\x1b\\bc" 3 ≤
        countLineBreaks ("a\n\x1b]8;;u\x1b\\bc" ++ "\\defg\nh") 3 := by
  have whole : Whole (lastLine "a\n\x1b]8;;u\x1b\\bc") := by decide
  obtain ⟨-, hlength, hrows⟩ := measures_grow whole "\\defg\nh"
  exact ⟨whole, hlength, hrows 3⟩

end Text.Measure

namespace Text.Escape

theorem whole_of_strip {text : Text} (h : strip text = []) : Whole text := by
  rw [Whole, h]
  exact List.not_mem_nil

/-- What is put around a text and leaves nothing when stripped. -/
theorem strip_between {opener closer text : Text} (hopener : strip opener = [])
    (hcloser : strip closer = []) (whole : Whole text) :
    strip (opener ++ text ++ closer) = strip text := by
  rw [List.append_assoc, (whole_of_strip hopener).strip_append, whole.strip_append, hopener,
    hcloser, List.nil_append, List.append_nil]

end Text.Escape

namespace Style

variable {text : Text}

theorem strip_tint (style : Style) (tone : Tone) (whole : Whole text) :
    strip (style.tint tone text) = strip text := by
  rw [tint]
  split
  · have hopener : strip ("\x1b[" ++ tone.code ++ "m") = [] := by
      cases tone <;> decide
    exact strip_between hopener (by decide) whole
  · rfl

theorem strip_underline (style : Style) (whole : Whole text) :
    strip (style.underline text) = strip text := by
  rw [underline]
  split
  · exact strip_between (by decide) (by decide) whole
  · rfl

theorem strip_hyperlink {url : Text} (h : ∀ c ∈ url, c ≠ '\x07' ∧ c ≠ '\x1b')
    (whole : Whole text) : strip (colored.hyperlink url text) = strip text := by
  have hopener : strip ("\x1b]8;;" ++ url ++ "\x1b\\") = [] := by
    have hbody : ∀ c ∈ ';' :: url, c ≠ '\x07' ∧ c ≠ '\x1b' := by
      rw [List.forall_mem_cons]
      exact ⟨by decide, h⟩
    have hcovered := covered_link hbody (Or.inr rfl) []
    rw [strip_eq_stripFrom]
    have hstrip := stripFrom_of_covered hcovered
    rwa [List.append_nil] at hstrip
  exact strip_between hopener (by decide) whole

namespace Marked

/-- The texts of an expression one after the other, a hyperlink standing for its text. -/
def plainText : Marked → Text
  | .text text => text
  | .tint _ inner | .underline inner | .hyperlink _ inner => inner.plainText
  | .append first second => first.plainText ++ second.plainText

/-- No text has an ESC in it, and no address an ESC or BEL. -/
def IsClean : Marked → Prop
  | .text text => '\x1b' ∉ text
  | .tint _ inner | .underline inner => inner.IsClean
  | .hyperlink url inner => (∀ c ∈ url, c ≠ '\x07' ∧ c ≠ '\x1b') ∧ inner.IsClean
  | .append first second => first.IsClean ∧ second.IsClean

def hasLink : Marked → Bool
  | .text _ => false
  | .tint _ inner | .underline inner => inner.hasLink
  | .hyperlink _ _ => true
  | .append first second => first.hasLink || second.hasLink

theorem notMem_plainText {m : Marked} (clean : m.IsClean) : '\x1b' ∉ m.plainText := by
  induction m with
  | text text => exact clean
  | tint tone inner ih => exact ih clean
  | underline inner ih => exact ih clean
  | hyperlink url inner ih => exact ih clean.2
  | append first second ih ih' =>
      rw [plainText, List.mem_append, not_or]
      exact ⟨ih clean.1, ih' clean.2⟩

theorem whole_render {m : Marked} (clean : m.IsClean)
    (h : strip (render colored m) = m.plainText) : Whole (render colored m) := by
  rw [Whole, h]
  exact notMem_plainText clean

theorem strip_render {m : Marked} (clean : m.IsClean) :
    strip (render colored m) = m.plainText := by
  induction m with
  | text text => exact strip_of_notMem clean
  | tint tone inner ih =>
      have hwhole : Whole (render colored inner) := whole_render clean (ih clean)
      rw [render, strip_tint colored tone hwhole, ih clean, plainText]
  | underline inner ih =>
      have hwhole : Whole (render colored inner) := whole_render clean (ih clean)
      rw [render, strip_underline colored hwhole, ih clean, plainText]
  | hyperlink url inner ih =>
      obtain ⟨hurl, hinner⟩ := clean
      have hwhole : Whole (render colored inner) := whole_render hinner (ih hinner)
      rw [render, strip_hyperlink hurl hwhole, ih hinner, plainText]
  | append first second ih ih' =>
      obtain ⟨hfirst, hsecond⟩ := clean
      have hwhole : Whole (render colored first) := whole_render hfirst (ih hfirst)
      rw [render, hwhole.strip_append, ih hfirst, ih' hsecond, plainText]

theorem render_plain {m : Marked} (noLink : m.hasLink = false) :
    render plain m = m.plainText := by
  induction m with
  | text text => rfl
  | tint tone inner ih => exact ih noLink
  | underline inner ih => exact ih noLink
  | hyperlink url inner ih => cases noLink
  | append first second ih ih' =>
      obtain ⟨hfirst, hsecond⟩ := Bool.or_eq_false_iff.mp noLink
      rw [render, ih hfirst, ih' hsecond, plainText]

/-- However texts are styled and put together, what is left without the sequences, and what is
measured, is the texts themselves. A style without colour gives nothing else, links apart. -/
theorem styling_unseen {m : Marked} (clean : m.IsClean) :
    strip (render colored m) = m.plainText ∧
      visibleLength (render colored m) = m.plainText.length ∧
      (m.hasLink = false → render plain m = m.plainText) := by
  refine ⟨strip_render clean, ?_, render_plain⟩
  rw [visibleLength_eq, strip_render clean]

/-- A link within a tone, before an empty underlined text. -/
def nested : Marked :=
  .append (.tint .bold (.append (.text "see ") (.hyperlink "u?a=m" (.text "mail"))))
    (.underline (.text ""))

theorem styling_unseen_nested :
    nested.IsClean ∧ strip (render colored nested) = "see mail".toList ∧
      visibleLength (render colored nested) = 8 := by
  have clean : nested.IsClean := by
    have hurl : ∀ c ∈ "u?a=m".toList, c ≠ '\x07' ∧ c ≠ '\x1b' :=
      List.all_iff_forall_prop.mp (by decide)
    simp only [nested, IsClean]
    exact ⟨⟨by decide, hurl, by decide⟩, by decide⟩
  obtain ⟨hstrip, hlength, -⟩ := styling_unseen clean
  exact ⟨clean, hstrip.trans (by decide), hlength.trans (by decide)⟩

end Marked

end Style

end Inlay
