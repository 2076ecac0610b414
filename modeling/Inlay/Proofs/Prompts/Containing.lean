import Inlay.Proofs.Lowercase
import Inlay.Proofs.Prompts.Narrowing

namespace Inlay.Prompt.Choices

open Text Lowercase

variable {numbers : Bool} {before part after : Text} {index : Nat} {entry : Choice}

theorem infix_lowercase_of_agree
    (agree : SigmasAgree before.reverse after [] [] part) :
    lowercase part <:+: lowercase (before ++ part ++ after) := by
  rw [show lowercase part = lowercaseAmid before.reverse after part from
    (lowercaseFrom_eq [] part).trans ((lowercaseAmid_eq_iff part).mpr agree).symm]
  exact infix_lowercase before part after

/-- An entry matches a part of its value or label with sigmas that agree. -/
theorem matches_of_part (holds : entry.value = before ++ part ++ after ∨
      entry.label = before ++ part ++ after)
    (agree : SigmasAgree before.reverse after [] [] part) : Matches numbers part index entry := by
  refine Or.inr (holds.imp ?_ ?_)
  · intro hvalue
    rw [hvalue]
    exact infix_lowercase_of_agree agree
  · intro hlabel
    rw [hlabel]
    exact infix_lowercase_of_agree agree

/-- A part of an entry's value or label, set as the filter of any list, keeps the entry if every
capital sigma of it ends a word there just if it ends one in the part alone, as is so where it has
none. And in every case the entry is kept exactly if the filter spells its number or is contained
in its value or label, each in small letters. -/
theorem mem_filtered_of_part (entries : List Choice) (displayCount : Nat) (numbers : Bool)
    (history : List Act) (found : entries[index]? = some entry)
    (holds : entry.value = before ++ part ++ after ∨ entry.label = before ++ part ++ after) :
    let kept := index ∈
      (((ofEntries entries displayCount numbers).afterAll history).setFilter part).filtered
    (SigmasAgree before.reverse after [] [] part → kept) ∧ ('Σ' ∉ part → kept) ∧
      (kept ↔ Matches numbers part index entry) := by
  intro kept
  have lists := (lists_afterAll entries displayCount numbers history).setFilter part
  have kept_iff : kept ↔ Matches numbers part index entry := by
    refine (lists.mem_filtered_iff index).trans ⟨?_, fun h => ⟨entry, found, h⟩⟩
    rintro ⟨entry', found', h⟩
    obtain rfl := Option.some.inj (found.symm.trans found')
    exact h
  have kept_of_agree (agree : SigmasAgree before.reverse after [] [] part) : kept :=
    kept_iff.mpr (matches_of_part holds agree)
  exact ⟨kept_of_agree, fun absent => kept_of_agree (sigmasAgree_of_notMem absent), kept_iff⟩

/-- The end of a word with a capital sigma keeps the entry, after another filter as well. -/
theorem mem_filtered_of_part_wordEnd :
    let entry : Choice := ⟨"odos", "Η ΟΔΟΣ"⟩
    let history : List Act := [.setFilter "ab"]
    entry.label = "Η Ο".toList ++ "ΔΟΣ".toList ++ [] ∧
      SigmasAgree "Η Ο".toList.reverse [] [] [] "ΔΟΣ".toList ∧
      0 ∈ (((ofEntries [entry] 6 false).afterAll history).setFilter "ΔΟΣ").filtered := by
  intro entry history
  have hlabel : entry.label = "Η Ο".toList ++ "ΔΟΣ".toList ++ [] := by decide
  have agree : SigmasAgree "Η Ο".toList.reverse [] [] [] "ΔΟΣ".toList :=
    (lowercaseAmid_eq_iff _).mp (by decide +kernel)
  exact ⟨hlabel, agree,
    (mem_filtered_of_part [entry] 6 false history rfl (Or.inr hlabel)).1 agree⟩

/-- A capital sigma that ends the word of an entry does not keep the entry. Alone it ends no word,
so that its small form is another one. -/
theorem notMem_filtered_wordEnd :
    let entry : Choice := ⟨"ΑΣ", "ΑΣ"⟩
    entry.value = "Α".toList ++ "Σ".toList ++ [] ∧
      0 ∉ ((ofEntries [entry] 6 false).setFilter "Σ").filtered := by
  decide +kernel

end Inlay.Prompt.Choices
