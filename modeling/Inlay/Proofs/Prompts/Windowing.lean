import Inlay.Proofs.Prompts.Narrowing

namespace Inlay.Prompt.Choices

open Text

variable {cs : Choices} {entries : List Choice} {numbers : Bool} {text : Text} {style : Style}

/-- The window is full, or holds all there is. -/
theorem stop_window (selected display total : Nat) :
    (window selected display total).2 =
        (window selected display total).1 + min display total ∧
      (window selected display total).2 ≤ total := by
  unfold window
  dsimp only
  split
  · exact ⟨by dsimp only; omega, Nat.min_le_left ..⟩
  · split
    · exact ⟨by dsimp only; omega, Nat.le_refl total⟩
    · constructor
      · dsimp only; omega
      · dsimp only; omega

theorem displayCount_act (cs : Choices) (last : Act) :
    (cs.act last).displayCount = cs.displayCount := by
  cases last with
  | highlight index => rfl
  | moveUp =>
      obtain ⟨current, moved⟩ := moveUp_eq cs
      exact (congrArg displayCount moved : cs.moveUp.displayCount = _)
  | moveDown =>
      obtain ⟨current, moved⟩ := moveDown_eq cs
      exact (congrArg displayCount moved : cs.moveDown.displayCount = _)
  | setFilter filter => exact displayCount_setFilter cs filter

theorem displayCount_afterAll (cs : Choices) (history : List Act) :
    (cs.afterAll history).displayCount = cs.displayCount := by
  induction history using List.reverseRecOn with
  | nil => rfl
  | append_singleton history last ih =>
      rw [afterAll_concat, displayCount_act, ih]

/-- The row of an entry. -/
def rowOf (cs : Choices) (style : Style) (index : Nat) (entry : Choice) : Row where
  index := index
  label := underlineMatch style entry.label cs.filter
  number :=
    if cs.displayNumbers then
      paddedDecimal (decimal cs.entries.length).length (index + 1) ++ ". "
    else []
  isHighlighted := cs.highlighted? = some index

theorem index_rowsFrom (place : Nat) (indexes : List Nat) :
    (cs.rowsFrom style place indexes).map Row.index = indexes := by
  induction indexes generalizing place with
  | nil => rfl
  | cons index rest ih =>
      rw [rowsFrom, List.map_cons, ih]

/-- An entry is highlighted if its place is. -/
theorem highlighted?_eq_some_iff (distinct : cs.filtered.Nodup) {place index : Nat}
    (hplace : cs.filtered[place]? = some index) :
    cs.highlighted? = some index ↔ cs.current = some place := by
  rw [highlighted?, Option.bind_eq_some_iff]
  constructor
  · rintro ⟨current, hcurrent, hindex⟩
    have inside : current < cs.filtered.length := (List.getElem?_eq_some_iff.mp hindex).1
    rw [hcurrent, (List.getElem?_inj inside distinct).mp (hindex.trans hplace.symm)]
  · intro hcurrent
    exact ⟨place, hcurrent, hplace⟩

/-- Every row of some indexes from a place on is that of its entry. -/
theorem mem_rowsFrom (distinct : cs.filtered.Nodup) {place : Nat} {indexes : List Nat}
    (here : indexes <+: cs.filtered.drop place)
    (there : ∀ index ∈ indexes, index < cs.entries.length) :
    ∀ row ∈ cs.rowsFrom style place indexes, ∃ entry,
      cs.entries[row.index]? = some entry ∧ row = cs.rowOf style row.index entry := by
  induction indexes generalizing place with
  | nil => nofun
  | cons index rest ih =>
      obtain ⟨after, hafter⟩ := here
      have hplace : cs.filtered[place]? = some index := by
        rw [← List.head?_drop, ← hafter]
        rfl
      have later : rest <+: cs.filtered.drop (place + 1) := by
        refine ⟨after, ?_⟩
        rw [← List.tail_drop, ← hafter]
        rfl
      rw [rowsFrom, List.forall_mem_cons]
      refine ⟨?_, ih later fun index hindex => there index (List.mem_cons_of_mem _ hindex)⟩
      obtain ⟨entry, hentry⟩ : ∃ entry, cs.entries[index]? = some entry :=
        ⟨_, List.getElem?_eq_getElem (there index List.mem_cons_self)⟩
      refine ⟨entry, hentry, ?_⟩
      unfold rowOf
      simp only [hentry, Option.map_some, Option.getD_some,
        highlighted?_eq_some_iff distinct hplace]

/-- Wherever the highlight stands, there is an entry in that place. -/
theorem Lists.isSome_highlighted? (h : cs.Lists entries numbers text) :
    cs.highlighted?.isSome = cs.current.isSome := by
  rw [Choices.highlighted?]
  cases hcurrent : cs.current with
  | none => rfl
  | some place =>
      rw [Option.bind_some, List.getElem?_eq_getElem (h.inside place hcurrent)]
      rfl

/-- The rows that are marked are the row of the highlighted entry, if there is one. -/
theorem Lists.filter_isHighlighted (h : cs.Lists entries numbers text)
    (positive : 1 ≤ cs.displayCount) (style : Style) :
    ((cs.rows style).filter Row.isHighlighted).map Row.index = cs.highlighted?.toList := by
  cases highlighted : cs.highlighted? with
  | some index =>
      obtain ⟨above, row, below, marks⟩ := exists_marks positive highlighted style
      have others := List.forall_mem_append.mp marks.others
      rw [marks.rows, List.filter_append, List.filter_cons_of_pos marks.marked,
        List.filter_eq_nil_iff.mpr fun row hrow => Bool.not_eq_true _ ▸ others.1 row hrow,
        List.filter_eq_nil_iff.mpr fun row hrow => Bool.not_eq_true _ ▸ others.2 row hrow]
      exact congrArg (fun index => [index]) marks.stands
  | none =>
      have unset : cs.current = none := by
        rw [← Option.not_isSome_iff_eq_none, ← h.isSome_highlighted?, highlighted]
        exact Bool.false_ne_true
      have unmarked : ∀ row ∈ cs.rows style, row.isHighlighted = false :=
        unmarked_rowsFrom (fun current hcurrent => by rw [unset] at hcurrent; cases hcurrent) _
      rw [List.filter_eq_nil_iff.mpr fun row hrow => Bool.not_eq_true _ ▸ unmarked row hrow]
      rfl

/-- What a picture shows of the entries that match: those between some above the window and some
below it. -/
structure Shows (entries : List Choice) (displayCount : Nat) (style : Style)
    (above shown below : List Nat) (cs : Choices) : Prop where
  consecutive : cs.filtered = above ++ shown ++ below
  count : shown.length = min (max displayCount 1) cs.filtered.length
  /-- The window is cut from within the list. -/
  window : cs.shownWindow = (above.length, above.length + shown.length)
  indexes : (cs.rows style).map Row.index = shown
  /-- Every row is read off an entry that there is. -/
  rows : ∀ row ∈ cs.rows style, ∃ entry,
    entries[row.index]? = some entry ∧ row = cs.rowOf style row.index entry
  current : cs.highlighted?.isSome = cs.current.isSome
  /-- One row is marked, that of the highlighted entry, or none where none is highlighted. -/
  marked : ((cs.rows style).filter Row.isHighlighted).map Row.index = cs.highlighted?.toList
  painting : ∀ paintRow, cs.painting style paintRow =
    (if above = [] then [] else [.print "    ...\n"]) ++ (cs.rows style).flatMap paintRow ++
      if below = [] then []
      else [.print (if 10 ≤ above.length + shown.length then "   ...\n" else "    ...\n")]

theorem Lists.shows (h : cs.Lists entries numbers text) {displayCount : Nat}
    (room : cs.displayCount = max displayCount 1) (style : Style) :
    ∃ above shown below, cs.Shows entries displayCount style above shown below := by
  have positive : 1 ≤ cs.displayCount := room ▸ Nat.le_max_right displayCount 1
  obtain ⟨start, stop, hwindow⟩ : ∃ start stop, cs.shownWindow = (start, stop) := ⟨_, _, rfl⟩
  obtain ⟨hstop, inside⟩ := stop_window (cs.current.getD 0) cs.displayCount cs.filtered.length
  rw [← Choices.shownWindow, hwindow] at hstop inside
  dsimp only at hstop inside
  have hrows : cs.rows style = cs.rowsFrom style start ((cs.filtered.take stop).drop start) := by
    rw [Choices.rows, hwindow]
  have habove : (cs.filtered.take start).length = start := by
    rw [List.length_take]
    omega
  have hshown : ((cs.filtered.take stop).drop start).length = stop - start := by
    rw [List.length_drop, List.length_take]
    omega
  have hbelow : (cs.filtered.drop stop).length = cs.filtered.length - stop := List.length_drop
  have here : (cs.filtered.take stop).drop start <+: cs.filtered.drop start := by
    rw [List.drop_take]
    exact List.take_prefix ..
  refine ⟨cs.filtered.take start, (cs.filtered.take stop).drop start, cs.filtered.drop stop, ?_⟩
  constructor
  case consecutive =>
    have htake : (cs.filtered.take stop).take start = cs.filtered.take start := by
      rw [List.take_take, Nat.min_eq_left (by omega)]
    rw [← htake, List.take_append_drop, List.take_append_drop]
  case count =>
    rw [hshown, ← room]
    omega
  case window =>
    rw [hwindow, habove, hshown]
    exact congrArg _ (by omega)
  case indexes =>
    rw [hrows]
    exact index_rowsFrom _ _
  case rows =>
    have distinct : cs.filtered.Nodup := h.pairwise_filtered.imp Nat.ne_of_lt
    have there (index : Nat) (hindex : index ∈ (cs.filtered.take stop).drop start) :
        index < cs.entries.length :=
      h.listed ▸ h.lt_length (List.mem_of_mem_take (List.mem_of_mem_drop hindex))
    rw [hrows, ← h.listed]
    exact mem_rowsFrom distinct here there
  case current => exact h.isSome_highlighted?
  case marked => exact h.filter_isHighlighted positive style
  case painting =>
    intro paintRow
    have filled (xs : List Nat) : 0 < xs.length ↔ xs ≠ [] := List.length_pos_iff
    rw [Choices.painting, hwindow]
    dsimp only
    rw [if_congr (habove ▸ filled _) rfl rfl, ite_not, habove, hshown,
      show start + (stop - start) = stop by omega,
      if_congr (Nat.sub_pos_iff_lt.symm.trans (hbelow ▸ filled _)) rfl rfl, ite_not]

/-- Every list holds the entries that match the filter set last, in order. Its picture shows as many
of them as it has room for, one after the other, marks the row of the highlighted entry and no
other, and has an ellipsis above or below just where entries that match are hidden. -/
theorem shows_afterAll (entries : List Choice) (displayCount : Nat) (numbers : Bool)
    (history : List Act) (style : Style) :
    let cs := (ofEntries entries displayCount numbers).afterAll history
    cs.Consistent entries numbers (filterOf history) ∧
      ∃ above shown below, cs.Shows entries displayCount style above shown below := by
  intro cs
  have lists : cs.Lists entries numbers (filterOf history) :=
    lists_afterAll entries displayCount numbers history
  exact ⟨lists.consistent, lists.shows (displayCount_afterAll _ history) style⟩

end Inlay.Prompt.Choices
