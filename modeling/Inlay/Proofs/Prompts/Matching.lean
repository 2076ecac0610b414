import Inlay.Proofs.Prompts.Offered

namespace Inlay.Prompt

open Text

/-- Index of the entry that a list prompt highlights. -/
def highlighted? : Prompt → Option Nat
  | select s => s.list.highlighted?
  | multiSelect m => m.list.highlighted?
  | _ => none

namespace Choices

variable {cs : Choices} {entries : List Choice} {numbers : Bool} {text : Text} {index : Nat}
  {style : Style}

theorem mem_matching (first : Nat) : index ∈ matching numbers text first entries ↔
    ∃ place entry, index = first + place ∧ entries[place]? = some entry ∧
      isMatch numbers text index entry = true := by
  induction entries generalizing first with
  | nil => simp [matching]
  | cons entry rest ih =>
      have later : index ∈ matching numbers text (first + 1) rest ↔
          ∃ place entry', index = first + (place + 1) ∧
            (entry :: rest)[place + 1]? = some entry' ∧
              isMatch numbers text index entry' = true := by
        simp only [ih, List.getElem?_cons_succ, Nat.add_assoc, Nat.add_comm 1]
      unfold matching
      dsimp only
      constructor
      · intro h
        split at h
        · rename_i matched
          rcases List.mem_cons.mp h with rfl | h
          · exact ⟨0, entry, rfl, rfl, matched⟩
          · obtain ⟨place, found⟩ := later.mp h
            exact ⟨place + 1, found⟩
        · obtain ⟨place, found⟩ := later.mp h
          exact ⟨place + 1, found⟩
      · rintro ⟨place, entry', hindex, hentry, matched⟩
        cases place with
        | zero =>
            obtain rfl : entry = entry' := Option.some.inj hentry
            obtain rfl : index = first := hindex
            rw [if_pos matched]
            exact List.mem_cons_self
        | succ place =>
            have h := later.mpr ⟨place, entry', hindex, hentry, matched⟩
            split
            · exact List.mem_cons_of_mem _ h
            · exact h

theorem isMatch_nil (numbers : Bool) (index : Nat) (entry : Choice) :
    isMatch numbers [] index entry = true := by
  rfl

/-- Every entry matches where there is no text. -/
theorem matching_nil (numbers : Bool) (first : Nat) (entries : List Choice) :
    matching numbers [] first entries = List.range' first entries.length := by
  induction entries generalizing first with
  | nil => rfl
  | cons entry rest ih =>
      rw [matching, ih, isMatch_nil, if_pos rfl]
      rfl

/-- A list of the entries that match a text, with none or one of them highlighted. -/
structure Lists (entries : List Choice) (numbers : Bool) (text : Text) (cs : Choices) : Prop where
  listed : cs.entries = entries
  numbered : cs.displayNumbers = numbers
  filter : cs.filter = text
  filtered : cs.filtered = matching numbers text 0 entries
  inside : ∀ place, cs.current = some place → place < cs.filtered.length

theorem lists_ofEntries (entries : List Choice) (displayCount : Nat) (numbers : Bool) :
    (ofEntries entries displayCount numbers).Lists entries numbers [] := by
  refine ⟨rfl, rfl, rfl, ?_, nofun⟩
  rw [matching_nil]
  exact List.range_eq_range'

namespace Lists

variable (h : cs.Lists entries numbers text)
include h

theorem highlight (index : Nat) : (cs.highlight index).Lists entries numbers text := by
  refine ⟨h.listed, h.numbered, h.filter, h.filtered, fun place hplace => ?_⟩
  exact (List.idxOf?_eq_some_iff.mp hplace).1

theorem moveUp : cs.moveUp.Lists entries numbers text := by
  unfold Choices.moveUp
  dsimp only
  split
  · exact h
  · rename_i filled
    refine ⟨h.listed, h.numbered, h.filter, h.filtered, fun place hplace => ?_⟩
    rw [← Option.some.inj hplace]
    exact Nat.mod_lt _ (Nat.pos_of_ne_zero filled)

theorem moveDown : cs.moveDown.Lists entries numbers text := by
  unfold Choices.moveDown
  dsimp only
  split
  · exact h
  · rename_i filled
    refine ⟨h.listed, h.numbered, h.filter, h.filtered, fun place hplace => ?_⟩
    rw [← Option.some.inj hplace]
    dsimp only
    split
    · exact Nat.mod_lt _ (Nat.pos_of_ne_zero filled)
    · exact Nat.pos_of_ne_zero filled

theorem setFilter (text' : Text) : (cs.setFilter text').Lists entries numbers text' := by
  unfold Choices.setFilter
  split
  · rename_i same
    rw [same, h.filter]
    exact h
  · have hfiltered : matching cs.displayNumbers text' 0 cs.entries =
        matching numbers text' 0 entries := by rw [h.numbered, h.listed]
    refine ⟨h.listed, h.numbered, rfl, hfiltered, fun place hplace => ?_⟩
    dsimp only at hplace ⊢
    split at hplace
    · cases hplace
    · rename_i filled
      have positive : 0 < (matching cs.displayNumbers text' 0 cs.entries).length :=
        List.length_pos_iff.mpr fun hnil => filled (List.isEmpty_iff.mpr hnil)
      split at hplace
      · split at hplace
        · rename_i within
          rwa [← Option.some.inj hplace]
        · rwa [← Option.some.inj hplace]
      · rwa [← Option.some.inj hplace]

theorem move (key : Option Key) : (Select.move cs key).Lists entries numbers text := by
  unfold Select.move
  split
  · exact h.moveUp
  · exact h.moveDown
  · exact h

theorem awake : cs.awake.Lists entries numbers text := by
  unfold Choices.awake
  split
  · exact h.moveDown
  · exact h

/-- The highlighted entry is one that matches. -/
theorem of_highlighted (highlighted : cs.highlighted? = some index) :
    ∃ entry, entries[index]? = some entry ∧ isMatch numbers text index entry = true := by
  obtain ⟨place, -, hplace⟩ := Option.bind_eq_some_iff.mp highlighted
  rw [h.filtered] at hplace
  obtain ⟨place, entry, hindex, found⟩ := (mem_matching 0).mp (List.mem_of_getElem? hplace)
  rw [Nat.zero_add] at hindex
  rw [← hindex] at found
  exact ⟨entry, found⟩

/-- A list is empty where no entry matches. -/
theorem isEmpty_eq_false_iff : cs.isEmpty = false ↔
    ∃ index entry, entries[index]? = some entry ∧ isMatch numbers text index entry = true := by
  rw [isEmpty, h.filtered, List.isEmpty_eq_false_iff_exists_mem]
  simp only [mem_matching, Nat.zero_add]
  constructor
  · rintro ⟨index, _, entry, rfl, found⟩
    exact ⟨index, entry, found⟩
  · rintro ⟨index, entry, found⟩
    exact ⟨index, index, entry, rfl, found⟩

end Lists

theorem Lists.filter_eq_nil {filtering : Bool}
    (h : cs.Lists entries numbers (if filtering then [] else [])) : cs.filter = [] :=
  h.filter.trans (ite_self _)

theorem Lists.narrowed {filtering : Bool}
    (h : cs.Lists entries numbers (if filtering then text else [])) (text' : Text) :
    (narrowed filtering cs text').Lists entries numbers (if filtering then text' else []) := by
  cases filtering with
  | false => exact h
  | true => exact h.setFilter text'

/-- Past the highlighted place no row is marked. -/
theorem unmarked_rowsFrom {place : Nat}
    (passed : ∀ current, cs.current = some current → current < place) (indexes : List Nat) :
    ∀ row ∈ cs.rowsFrom style place indexes, row.isHighlighted = false := by
  induction indexes generalizing place with
  | nil => nofun
  | cons index rest ih =>
      rw [rowsFrom, List.forall_mem_cons]
      refine ⟨decide_eq_false fun here => (passed place here).false, ih fun current hcurrent => ?_⟩
      exact (passed current hcurrent).trans (Nat.lt_succ_self place)

theorem pairwise_rowsFrom (place : Nat) (indexes : List Nat) :
    (cs.rowsFrom style place indexes).Pairwise fun row other =>
      row.isHighlighted = true → other.isHighlighted = false := by
  induction indexes generalizing place with
  | nil => exact .nil
  | cons index rest ih =>
      refine .cons (fun other hother marked => ?_) (ih (place + 1))
      have here : cs.current = some place := of_decide_eq_true marked
      refine unmarked_rowsFrom (fun current hcurrent => ?_) rest other hother
      obtain rfl := Option.some.inj (here.symm.trans hcurrent)
      exact Nat.lt_succ_self place

theorem label_rowsFrom (place : Nat) (indexes : List Nat) :
    ∀ row ∈ cs.rowsFrom style place indexes, row.label =
      underlineMatch style ((cs.entries[row.index]?.map Choice.label).getD []) cs.filter := by
  induction indexes generalizing place with
  | nil => nofun
  | cons index rest ih =>
      rw [rowsFrom, List.forall_mem_cons]
      exact ⟨rfl, ih (place + 1)⟩

/-- The rows that are shown, of which one is marked, that of an entry. -/
structure Marks (cs : Choices) (style : Style) (index : Nat) (above : List Row) (row : Row)
    (below : List Row) : Prop where
  rows : cs.rows style = above ++ row :: below
  marked : row.isHighlighted = true
  stands : row.index = index
  label : row.label =
    underlineMatch style ((cs.entries[index]?.map Choice.label).getD []) cs.filter
  others : ∀ other ∈ above ++ below, other.isHighlighted = false

theorem exists_marks (positive : 1 ≤ cs.displayCount) (highlighted : cs.highlighted? = some index)
    (style : Style) : ∃ above row below, cs.Marks style index above row below := by
  have found := find?_rows positive style
  rw [highlighted] at found
  obtain ⟨row, hfind, rfl⟩ := Option.map_eq_some_iff.mp found
  obtain ⟨marked, above, below, hrows, habove⟩ := List.find?_eq_some_iff_append.mp hfind
  have hlabel : row.label = _ := label_rowsFrom _ _ row (List.mem_of_find?_eq_some hfind)
  -- The search gives the first marked row. That there is no second follows from the places.
  have hbelow : ∀ other ∈ below, other.isHighlighted = false := by
    have hpairwise : (cs.rows style).Pairwise _ := pairwise_rowsFrom _ _
    rw [hrows] at hpairwise
    exact fun other hother =>
      (List.pairwise_cons.mp (List.pairwise_append.mp hpairwise).2.1).1 other hother marked
  refine ⟨above, row, below, hrows, marked, rfl, hlabel, ?_⟩
  rw [List.forall_mem_append]
  exact ⟨fun other hother => Bool.not_eq_true' _ ▸ habove other hother, hbelow⟩

end Choices

end Inlay.Prompt
