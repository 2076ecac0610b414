import Inlay.Proofs.Lowercase
import Inlay.Proofs.Text.Composing
import Inlay.Prompt.Choices

namespace Inlay

namespace Text

variable {part text before : Text}

theorem append_of_before? (h : before? part text = some before) :
    ∃ after, before ++ part ++ after = text := by
  induction text generalizing before with
  | nil =>
      rw [before?] at h
      split at h
      · rename_i empty
        obtain rfl := Option.some.inj h
        rw [List.isEmpty_iff.mp empty]
        exact ⟨[], rfl⟩
      · cases h
  | cons c rest ih =>
      rw [before?] at h
      split at h
      · rename_i starts
        obtain rfl := Option.some.inj h
        exact List.isPrefixOf_iff_prefix.mp starts
      · obtain ⟨before', hbefore, rfl⟩ := Option.map_eq_some_iff.mp h
        obtain ⟨after, rfl⟩ := ih hbefore
        exact ⟨after, rfl⟩

theorem exists_before?_of_infix (h : part <:+: text) :
    ∃ before, before? part text = some before := by
  induction text with
  | nil =>
      rw [List.infix_nil] at h
      rw [h]
      exact ⟨[], rfl⟩
  | cons c rest ih =>
      rw [before?]
      split
      · exact ⟨[], rfl⟩
      · rename_i starts
        rw [List.isPrefixOf_iff_prefix] at starts
        obtain ⟨before, hbefore⟩ := ih ((List.infix_cons_iff.mp h).resolve_left starts)
        rw [hbefore]
        exact ⟨c :: before, rfl⟩

/-- Two beginnings of a text are the same if they are of the same size. -/
theorem append_inj_of_byteLength {first first' rest rest' : Text}
    (h : first ++ rest = first' ++ rest')
    (size : Utf8.byteLength first = Utf8.byteLength first') : first = first' ∧ rest = rest' := by
  have hsplit := Utf8.splitAtByte?_append first rest
  rw [h, size, Utf8.splitAtByte?_append] at hsplit
  exact Prod.mk.inj (Option.some.inj hsplit.symm)

end Text

namespace Prompt.Choices

open Text Utf8 Lowercase

variable {label filter first found last : Text}

/-- A part of a label to be underlined for a filter, with what stands before and after it. It is
found by offsets in the small form of the label, which is to be of the label's size. -/
structure Underlines (label filter first found last : Text) : Prop where
  filter_ne_nil : filter ≠ []
  size : byteLength (lowercase label) = byteLength label
  parts : first ++ (found ++ last) = label
  starts : ∃ before, before? (lowercase filter) (lowercase label) = some before ∧
    byteLength first = byteLength before
  length : byteLength found = byteLength (lowercase filter)

theorem underlineMatch_of (h : Underlines label filter first found last) (style : Style) :
    underlineMatch style label filter = first ++ style.underline found ++ last := by
  obtain ⟨before, hbefore, hstarts⟩ := h.starts
  have hfirst : splitAtByte? (byteLength before) label = some (first, found ++ last) := by
    rw [← h.parts, ← hstarts, splitAtByte?_append]
  have nonempty : ¬ filter.isEmpty = true := mt List.isEmpty_iff.mp h.filter_ne_nil
  rw [underlineMatch, if_neg nonempty]
  dsimp only
  rw [if_neg (not_not_intro h.size), hbefore]
  dsimp only
  rw [hfirst]
  dsimp only
  rw [← h.length, splitAtByte?_append]

theorem underlineMatch_of_not
    (h : ∀ first found last, ¬ Underlines label filter first found last)
    (style : Style) : underlineMatch style label filter = label := by
  unfold underlineMatch
  dsimp only
  split
  · rfl
  rename_i nonempty
  split
  · rfl
  rename_i size
  split
  · rfl
  rename_i before hbefore
  split
  · rfl
  rename_i first rest hfirst
  split
  · rfl
  rename_i found last hfound
  obtain ⟨hparts, hstarts⟩ := splitAtByte?_eq_some_iff.mp hfirst
  obtain ⟨rfl, hlength⟩ := splitAtByte?_eq_some_iff.mp hfound
  have hunderlines : Underlines label filter first found last :=
    ⟨mt List.isEmpty_iff.mpr nonempty, not_not.mp size, hparts, ⟨before, hbefore, hstarts⟩,
      hlength⟩
  exact absurd hunderlines (h first found last)

/-- A label is left alone or cut into three parts, the middle one of which is underlined. -/
theorem underlineMatch_cases (label filter : Text) :
    (∀ style, underlineMatch style label filter = label) ∨
      ∃ first found last, Underlines label filter first found last ∧
        ∀ style, underlineMatch style label filter = first ++ style.underline found ++ last := by
  by_cases h : ∃ first found last, Underlines label filter first found last
  · obtain ⟨first, found, last, hunderlines⟩ := h
    exact Or.inr ⟨first, found, last, hunderlines, underlineMatch_of hunderlines⟩
  · simp only [not_exists] at h
    exact Or.inl (underlineMatch_of_not h)

theorem Underlines.found_ne_nil (h : Underlines label filter first found last) : found ≠ [] := by
  rintro rfl
  have hpos := List.length_pos_iff.mpr (lowercase_ne_nil h.filter_ne_nil)
  have hle := length_le_byteLength (lowercase filter)
  have hzero : byteLength (lowercase filter) = 0 := h.length.symm
  omega

/-- The small form of a label in the small forms of three parts. -/
theorem lowercase_parts (first found last : Text) :
    lowercase (first ++ (found ++ last)) = lowercaseAmid [] (found ++ last) first ++
      (lowercaseAmid first.reverse last found ++
        lowercaseAmid (found.reverse ++ first.reverse) [] last) := by
  rw [lowercase, lowercaseFrom_eq, lowercaseAmid_append, lowercaseAmid_append]
  simp only [List.append_nil]

/-- A part of a label is where the filter first occurs in it, both in small letters. -/
def IsOccurrence (label filter first found last : Text) : Prop :=
  before? (lowercase filter) (lowercase label) = some (lowercaseAmid [] (found ++ last) first) ∧
    lowercaseAmid first.reverse last found = lowercase filter

/-- The part that is underlined is an occurrence exactly if neither it nor what stands before it is
of another size in small letters. -/
theorem Underlines.isOccurrence_iff (h : Underlines label filter first found last) :
    IsOccurrence label filter first found last ↔
      byteLength (lowercase first) = byteLength first ∧
        byteLength (lowercase found) = byteLength found := by
  obtain ⟨before, hbefore, hstarts⟩ := h.starts
  rw [IsOccurrence, hbefore, Option.some.injEq, h.length, hstarts,
    ← byteLength_lowercaseAmid [] (found ++ last),
    ← byteLength_lowercaseAmid first.reverse last found]
  constructor
  · rintro ⟨rfl, hfound⟩
    rw [hfound]
    exact ⟨rfl, rfl⟩
  · rintro ⟨hfirst, hfound⟩
    obtain ⟨after, hlower⟩ := append_of_before? hbefore
    rw [← h.parts, lowercase_parts, List.append_assoc] at hlower
    obtain ⟨rfl, hrest⟩ := append_inj_of_byteLength hlower hfirst.symm
    obtain ⟨hmatch, -⟩ := append_inj_of_byteLength hrest hfound.symm
    exact ⟨rfl, hmatch.symm⟩

/-- By itself the part has the small form of the filter if its sigmas have the forms that they have
in the label. -/
theorem IsOccurrence.lowercase_eq_iff (h : IsOccurrence label filter first found last) :
    lowercase found = lowercase filter ↔ SigmasAgree first.reverse last [] [] found := by
  rw [← h.2, ← lowercaseAmid_eq_iff, lowercase, lowercaseFrom_eq]
  exact eq_comm

/-- In a label of characters that keep their size, an occurrence of the filter is underlined. -/
theorem exists_underlines (keeps : ∀ c ∈ label, KeepsSize c) (some : filter ≠ [])
    (occurs : lowercase filter <:+: lowercase label) :
    ∃ first found last, Underlines label filter first found last ∧
      IsOccurrence label filter first found last := by
  obtain ⟨before, hbefore⟩ := exists_before?_of_infix occurs
  obtain ⟨after, hlower⟩ := append_of_before? hbefore
  have hsmall : lowercaseAmid [] [] label = before ++ (lowercase filter ++ after) := by
    rw [← lowercaseFrom_eq, ← List.append_assoc, hlower]
    rfl
  obtain ⟨first, rest, rfl, hfirst⟩ := exists_append_of_lowercaseAmid keeps hsmall
  obtain ⟨keepsFirst, keepsRest⟩ := List.forall_mem_append.mp keeps
  have sizeFirst := byteLength_lowercase_of_keepsSize keepsFirst
  -- the small form of what stands before is found by its size
  rw [lowercaseAmid_append] at hsmall
  obtain ⟨-, hrest⟩ := append_inj_of_byteLength hsmall
    ((byteLength_lowercaseAmid _ _ _).trans (sizeFirst.trans hfirst))
  obtain ⟨found, last, rfl, hfound⟩ := exists_append_of_lowercaseAmid keepsRest hrest
  have hunderlines : Underlines (first ++ (found ++ last)) filter first found last :=
    ⟨some, byteLength_lowercase_of_keepsSize keeps, rfl, ⟨before, hbefore, hfirst⟩, hfound⟩
  have keepsFound : ∀ c ∈ found, KeepsSize c := (List.forall_mem_append.mp keepsRest).1
  exact ⟨first, found, last, hunderlines, hunderlines.isOccurrence_iff.mpr
    ⟨sizeFirst, byteLength_lowercase_of_keepsSize keepsFound⟩⟩

theorem strip_underlineMatch (absent : '\x1b' ∉ label) (style : Style) :
    Escape.strip (underlineMatch style label filter) = label := by
  rcases underlineMatch_cases label filter with unmarked | ⟨first, found, last, hunderlines, hmatch⟩
  · rw [unmarked, Escape.strip_of_notMem absent]
  · rw [hmatch]
    have hparts := hunderlines.parts
    subst hparts
    simp only [List.mem_append, not_or] at absent
    obtain ⟨hfirst, hfound, hlast⟩ := absent
    have hstripped : Escape.strip (style.underline found) = found := by
      rw [Style.strip_underline style (Escape.whole_of_notMem hfound),
        Escape.strip_of_notMem hfound]
    have hwhole : Escape.Whole (style.underline found) := by
      rwa [Escape.Whole, hstripped]
    rw [List.append_assoc, (Escape.whole_of_notMem hfirst).strip_append, hwhole.strip_append,
      hstripped, Escape.strip_of_notMem hfirst, Escape.strip_of_notMem hlast]

/-- Whatever is underlined, a label is cut between characters only and is unchanged without the
codes. What is underlined is the first occurrence of the filter exactly if neither it nor what
stands before it is of another size in small letters, and it then has the small form of the filter
unless a sigma ends a word in the label and not in the part alone, or the other way round. In a
label of characters that keep their size an occurrence is underlined. -/
theorem underlineMatch_underlines (label filter : Text) :
    ('\x1b' ∉ label → ∀ style, Escape.strip (underlineMatch style label filter) = label) ∧
      ((∀ style, underlineMatch style label filter = label) ∨
        ∃ first found last, Underlines label filter first found last ∧ found ≠ [] ∧
          (∀ style, underlineMatch style label filter = first ++ style.underline found ++ last) ∧
          (IsOccurrence label filter first found last ↔
            byteLength (lowercase first) = byteLength first ∧
              byteLength (lowercase found) = byteLength found) ∧
          (IsOccurrence label filter first found last →
            (lowercase found = lowercase filter ↔
              SigmasAgree first.reverse last [] [] found))) ∧
      ((∀ c ∈ label, KeepsSize c) → filter ≠ [] → lowercase filter <:+: lowercase label →
        ∃ first found last, Underlines label filter first found last ∧
          (∀ style, underlineMatch style label filter = first ++ style.underline found ++ last) ∧
          IsOccurrence label filter first found last) := by
  refine ⟨strip_underlineMatch, ?_, ?_⟩
  · refine (underlineMatch_cases label filter).imp_right ?_
    rintro ⟨first, found, last, hunderlines, hmatch⟩
    exact ⟨first, found, last, hunderlines, hunderlines.found_ne_nil, hmatch,
      hunderlines.isOccurrence_iff, IsOccurrence.lowercase_eq_iff⟩
  · intro keeps some occurs
    obtain ⟨first, found, last, hunderlines, hoccurs⟩ := exists_underlines keeps some occurs
    exact ⟨first, found, last, hunderlines, underlineMatch_of hunderlines, hoccurs⟩

/-- A filter in capitals with a character of two bytes. -/
theorem underlineMatch_underlines_umlaut :
    (∀ c ∈ "Grün".toList, KeepsSize c) ∧ lowercase "RÜ" <:+: lowercase "Grün" ∧
      ∃ first found last, first ++ (found ++ last) = "Grün".toList ∧
        underlineMatch Style.colored "Grün" "RÜ" =
          first ++ Style.colored.underline found ++ last ∧
        lowercaseAmid first.reverse last found = "rü".toList := by
  have keeps : ∀ c ∈ "Grün".toList, KeepsSize c := List.all_iff_forall_prop.mp (by decide +kernel)
  have occurs : lowercase "RÜ" <:+: lowercase "Grün" := ⟨['g'], ['n'], by decide +kernel⟩
  obtain ⟨-, -, underlined⟩ := underlineMatch_underlines "Grün" "RÜ"
  obtain ⟨first, found, last, hunderlines, hmatch, -, hfound⟩ := underlined keeps (by decide) occurs
  exact ⟨keeps, occurs, first, found, last, hunderlines.parts, hmatch Style.colored,
    hfound.trans (by decide +kernel)⟩

/-- A letter that grows before the occurrence and one that shrinks behind it: the label keeps its
size, but another letter than that of the filter is underlined. -/
theorem underlineMatch_wrongLetter :
    '\x1b' ∉ "Ⱥabẞ".toList ∧
      underlineMatch Style.colored "Ⱥabẞ" "a" = "Ⱥa".toList ++ Style.colored.underline "b" ++ "ẞ" ∧
      lowercase "b" ≠ lowercase "a" := by
  decide +kernel

/-- A sigma that ends the word of a label ends none by itself. -/
example :
    underlineMatch Style.colored "ΑΣ" "ς" = "Α".toList ++ Style.colored.underline "Σ" ∧
      lowercase "Σ" ≠ lowercase "ς" := by
  decide +kernel

end Prompt.Choices

end Inlay
