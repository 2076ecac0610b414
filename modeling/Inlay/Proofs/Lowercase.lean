import Inlay.Proofs.Text.Offsets
import Inlay.Text.Lowercase
/-!
Small forms of a part of a text. A capital sigma is the only character of which the small form
depends on what stands around it. So a part has the same small form wherever it stands, unless a
capital sigma in it ends a word in one place and not in the other; and it has one of the same size
in any case.
-/

namespace Inlay.Text.Lowercase

open Utf8

variable {before before' after after' part : Text}

/-- Whether a capital sigma there is the last letter of a word. The text before it is read
backwards. -/
def endsWord (before after : Text) : Bool := meetsCased before && !meetsCased after

theorem smallForms_sigma (before after : Text) :
    smallForms before 'Σ' after = [if endsWord before after then 'ς' else 'σ'] :=
  rfl

theorem smallForms_of_ne {c : Char} (other : c ≠ 'Σ') :
    smallForms before c after = smallForms before' c after' := by
  unfold smallForms
  rw [if_neg other, if_neg other]

/-- The small form of a part of a text, given the text before it, read backwards, and after it. -/
def lowercaseAmid (before after : Text) : Text → Text
  | [] => []
  | c :: rest => smallForms before c (rest ++ after) ++ lowercaseAmid (c :: before) after rest

theorem lowercaseFrom_eq (before part : Text) :
    lowercaseFrom before part = lowercaseAmid before [] part := by
  induction part generalizing before with
  | nil => rfl
  | cons c rest ih => rw [lowercaseFrom, lowercaseAmid, ih, List.append_nil]

theorem lowercaseAmid_append (before after part part' : Text) :
    lowercaseAmid before after (part ++ part') =
      lowercaseAmid before (part' ++ after) part ++
        lowercaseAmid (part.reverse ++ before) after part' := by
  induction part generalizing before with
  | nil => rfl
  | cons c rest ih =>
      rw [List.cons_append, lowercaseAmid, lowercaseAmid, ih, List.append_assoc, List.append_assoc,
        List.reverse_cons, List.append_assoc, List.singleton_append]

/-- The small form of a text holds that of each of its parts, as it is there. -/
theorem infix_lowercase (before part after : Text) :
    lowercaseAmid before.reverse after part <:+: lowercase (before ++ part ++ after) := by
  rw [lowercase, lowercaseFrom_eq, lowercaseAmid_append, lowercaseAmid_append]
  simp only [List.append_nil]
  exact ⟨_, _, rfl⟩

/-- Every capital sigma of a part takes the same form in two places. -/
def SigmasAgree (before after before' after' part : Text) : Prop :=
  ∀ first last, part = first ++ 'Σ' :: last →
    endsWord (first.reverse ++ before) (last ++ after) =
      endsWord (first.reverse ++ before') (last ++ after')

theorem sigmasAgree_of_notMem (h : 'Σ' ∉ part) : SigmasAgree before after before' after' part := by
  rintro first last rfl
  exact absurd (List.mem_append_right first List.mem_cons_self) h

theorem sigmasAgree_cons {c : Char} {rest : Text} :
    SigmasAgree before after before' after' (c :: rest) ↔
      (c = 'Σ' → endsWord before (rest ++ after) = endsWord before' (rest ++ after')) ∧
        SigmasAgree (c :: before) after (c :: before') after' rest := by
  constructor
  · intro agree
    constructor
    · rintro rfl
      exact agree [] rest rfl
    · rintro first last rfl
      have later := agree (c :: first) last rfl
      rwa [List.reverse_cons, List.append_assoc, List.append_assoc] at later
  · rintro ⟨here, later⟩ first last heq
    cases first with
    | nil =>
        obtain ⟨rfl, rfl⟩ := List.cons.inj heq
        exact here rfl
    | cons c' first =>
        obtain ⟨rfl, rfl⟩ := List.cons.inj heq
        rw [List.reverse_cons, List.append_assoc, List.append_assoc]
        exact later first last rfl

/-- A part has the same small form in two places exactly if its capital sigmas have. -/
theorem lowercaseAmid_eq_iff (part : Text) :
    lowercaseAmid before after part = lowercaseAmid before' after' part ↔
      SigmasAgree before after before' after' part := by
  induction part generalizing before before' with
  | nil => exact ⟨fun _ first last heq => by simp at heq, fun _ => rfl⟩
  | cons c rest ih =>
      rw [sigmasAgree_cons, lowercaseAmid, lowercaseAmid, ← ih]
      by_cases sigma : c = 'Σ'
      · subst sigma
        rw [smallForms_sigma, smallForms_sigma, List.singleton_append, List.singleton_append,
          List.cons.injEq]
        refine and_congr_left fun _ => ?_
        cases endsWord before (rest ++ after) <;> cases endsWord before' (rest ++ after') <;> simp
      · rw [smallForms_of_ne sigma, List.append_cancel_left_eq]
        exact ⟨fun same => ⟨fun h => absurd h sigma, same⟩, And.right⟩

/-- The two small forms of sigma are of the same size. -/
theorem byteLength_smallForms (before : Text) (c : Char) (after : Text) :
    byteLength (smallForms before c after) = byteLength (lowercase [c]) := by
  have hsingle : lowercase [c] = smallForms [] c [] := List.append_nil _
  rw [hsingle]
  by_cases sigma : c = 'Σ'
  · have hsize (before after : Text) : byteLength (smallForms before 'Σ' after) = 2 := by
      rw [smallForms_sigma]
      split
      · rfl
      · rfl
    rw [sigma, hsize, hsize]
  · rw [smallForms_of_ne sigma]

theorem smallForms_ne_nil (before : Text) (c : Char) (after : Text) :
    smallForms before c after ≠ [] := by
  unfold smallForms
  split
  · exact List.cons_ne_nil _ _
  split
  · exact List.cons_ne_nil _ _
  split
  · exact List.cons_ne_nil _ _
  split
  · exact List.cons_ne_nil _ _
  · exact List.cons_ne_nil _ _

theorem lowercase_ne_nil (some : part ≠ []) : lowercase part ≠ [] := by
  cases part with
  | nil => exact absurd rfl some
  | cons c rest => exact List.append_ne_nil_of_left_ne_nil (smallForms_ne_nil [] c rest) _

/-- A part has a small form of the same size wherever it stands. -/
theorem byteLength_lowercaseAmid (before after part : Text) :
    byteLength (lowercaseAmid before after part) = byteLength (lowercase part) := by
  suffices h : ∀ before' after' : Text, byteLength (lowercaseAmid before after part) =
      byteLength (lowercaseAmid before' after' part) by
    rw [lowercase, lowercaseFrom_eq]
    exact h [] []
  induction part generalizing before with
  | nil => exact fun _ _ => rfl
  | cons c rest ih =>
      intro before' after'
      rw [lowercaseAmid, lowercaseAmid, byteLength_append, byteLength_append, byteLength_smallForms,
        byteLength_smallForms, ih (c :: before) (c :: before') after']

/-- A character of which the small form is as long as itself. Many are, but not all: the small form
may be shorter or longer. -/
def KeepsSize (c : Char) : Prop := byteLength (lowercase [c]) = c.utf8Size

instance : DecidablePred KeepsSize := fun c =>
  inferInstanceAs (Decidable (byteLength (lowercase [c]) = c.utf8Size))

theorem byteLength_lowercase_of_keepsSize (keeps : ∀ c ∈ part, KeepsSize c) :
    byteLength (lowercase part) = byteLength part := by
  suffices h : ∀ before, byteLength (lowercaseAmid before [] part) = byteLength part by
    rw [lowercase, lowercaseFrom_eq, h]
  induction part with
  | nil => exact fun _ => rfl
  | cons c rest ih =>
      rw [List.forall_mem_cons] at keeps
      obtain ⟨hc, hrest⟩ := keeps
      intro before
      rw [lowercaseAmid, byteLength_append, byteLength_smallForms, hc, ih hrest, byteLength]

theorem exists_smallForms_eq {c : Char} (keeps : KeepsSize c) (before after : Text) :
    ∃ c', smallForms before c after = [c'] := by
  unfold smallForms
  split
  · exact ⟨_, rfl⟩
  split
  · rename_i dotted
    rw [dotted] at keeps
    exact absurd keeps (by decide)
  split
  · exact ⟨_, rfl⟩
  split
  · exact ⟨_, rfl⟩
  · exact ⟨_, rfl⟩

/-- Where the small form of a part can be cut, the part can be cut at the same offset. -/
theorem exists_append_of_lowercaseAmid (keeps : ∀ c ∈ part, KeepsSize c) {small small' : Text}
    (h : lowercaseAmid before after part = small ++ small') :
    ∃ first rest, first ++ rest = part ∧ byteLength first = byteLength small := by
  induction part generalizing before small with
  | nil =>
      obtain ⟨rfl, -⟩ := List.append_eq_nil_iff.mp h.symm
      exact ⟨[], [], rfl, rfl⟩
  | cons c rest ih =>
      rw [List.forall_mem_cons] at keeps
      obtain ⟨hc, hrest⟩ := keeps
      cases small with
      | nil => exact ⟨[], c :: rest, rfl, rfl⟩
      | cons c' small =>
          have hsize := byteLength_smallForms before c (rest ++ after)
          obtain ⟨c'', hsmall⟩ := exists_smallForms_eq hc before (rest ++ after)
          rw [lowercaseAmid, hsmall, List.singleton_append, List.cons_append] at h
          obtain ⟨rfl, htail⟩ := List.cons.inj h
          obtain ⟨first, last, rfl, hfirst⟩ := ih hrest htail
          rw [hsmall, hc, byteLength] at hsize
          refine ⟨c :: first, last, rfl, ?_⟩
          rw [byteLength, byteLength, hfirst]
          exact congrArg (· + byteLength small) hsize.symm

end Inlay.Text.Lowercase
