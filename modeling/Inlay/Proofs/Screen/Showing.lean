import Inlay.Proofs.Screen.Sheet
import Inlay.Printer

namespace Inlay

namespace Sheet

variable (s : Sheet)

theorem cell_newRow (last : Text) (row col : Nat) :
    (⟨s.rows, last⟩ : Sheet).cell row col =
      if row = s.rows.length then (last[col]?).getD ' ' else s.cell row col := by
  unfold cell
  change (((s.rows ++ [last])[row]?).bind _).getD ' ' = _
  rcases Nat.lt_trichotomy row s.rows.length with hlt | heq | hgt
  · rw [List.getElem?_append_left hlt, if_neg (Nat.ne_of_lt hlt)]
  · rw [if_pos heq, heq, List.getElem?_concat_length]
    rfl
  · have hlong : (s.rows ++ [last]).length ≤ row := by
      rw [List.length_append]
      exact hgt
    rw [List.getElem?_eq_none hlong, List.getElem?_eq_none (Nat.le_of_lt hgt),
      if_neg (Nat.ne_of_gt hgt)]

theorem cell_lineFeed (row col : Nat) : (⟨s.rows, []⟩ : Sheet).cell row col = s.cell row col := by
  rw [cell_newRow]
  split
  · rename_i heq
    rw [cell, List.getElem?_eq_none (Nat.le_of_eq heq.symm)]
    rfl
  · rfl

theorem cell_grow (c : Char) (row col : Nat) :
    ({ s with last := s.last ++ [c] } : Sheet).cell row col =
      if row = s.above.length ∧ col = s.last.length then c else s.cell row col := by
  unfold cell rows
  dsimp only
  rcases Nat.lt_trichotomy row s.above.length with hlt | heq | hgt
  · rw [List.getElem?_append_left hlt, List.getElem?_append_left hlt,
      if_neg fun h => Nat.ne_of_lt hlt h.1]
  · rw [heq, List.getElem?_concat_length, List.getElem?_concat_length, Option.bind_some,
      Option.bind_some]
    rcases Nat.lt_trichotomy col s.last.length with hlt | heq | hgt
    · rw [List.getElem?_append_left hlt, if_neg fun h => Nat.ne_of_lt hlt h.2]
    · rw [heq, List.getElem?_concat_length, if_pos ⟨rfl, rfl⟩]
      rfl
    · have hlong : (s.last ++ [c]).length ≤ col := by
        rw [List.length_append]
        exact hgt
      rw [List.getElem?_eq_none hlong, List.getElem?_eq_none (Nat.le_of_lt hgt),
        if_neg fun h => Nat.ne_of_gt hgt h.2]
  · have hlong : ∀ last : Text, (s.above ++ [last]).length ≤ row := by
      intro last
      rw [List.length_append]
      exact hgt
    rw [List.getElem?_eq_none (hlong _), List.getElem?_eq_none (hlong _),
      if_neg fun h => Nat.ne_of_gt hgt h.1]

theorem cell_empty (row col : Nat) : ({} : Sheet).cell row col = ' ' := by
  cases row with
  | zero => rfl
  | succ row => rfl

theorem cell_of_length_le {row : Nat} (h : s.rows.length ≤ row) (col : Nat) :
    s.cell row col = ' ' := by
  rw [cell, List.getElem?_eq_none h]
  rfl

end Sheet

namespace Terminal

/-- From the row `origin` on the terminal shows a sheet and below it nothing. -/
structure Shows (t : Terminal) (w : Nat) (before : Nat → Nat → Char) (origin : Nat) (s : Sheet) :
    Prop where
  width : t.width = w
  ground : t.mode = .ground
  cells : ∀ row col, t.cells row col =
    if row < origin then before row col else s.cell (row - origin) col

structure AtEnd (t : Terminal) (origin : Nat) (s : Sheet) : Prop where
  row : t.row = origin + s.above.length
  col : t.col = s.last.length

variable {t : Terminal} {w origin : Nat} {before : Nat → Nat → Char} {s : Sheet}

theorem cells_setCell (t : Terminal) (row col : Nat) (c : Char) (row' col' : Nat) :
    (t.setCell row col c).cells row' col' =
      if row' = row ∧ col' = col then c else t.cells row' col' := by
  rw [setCell]
  by_cases hrow : row' = row
  · subst hrow
    by_cases hcol : col' = col
    · subst hcol
      simp
    · simp [hcol]
  · simp [hrow]

theorem Shows.put (h : t.Shows w before origin s) (here : t.AtEnd origin s) {c : Char}
    (hc : c ≠ '\n') :
    (t.put c).Shows w before origin (s.pen w c) ∧ (t.put c).AtEnd origin (s.pen w c) := by
  rw [Terminal.put]
  rcases Nat.lt_or_ge t.col t.width with hlt | hge
  · have hlast : s.last.length < w := by rw [← here.col, ← h.width]; exact hlt
    rw [if_pos hlt, Sheet.pen_of_lt hc hlast]
    refine ⟨⟨h.width, h.ground, ?_⟩, here.row, ?_⟩
    · intro row col
      change (t.setCell t.row t.col c).cells row col = _
      rw [cells_setCell, h.cells, here.row, here.col]
      by_cases habove : row < origin
      · rw [if_pos habove, if_pos habove, if_neg (by omega)]
      · rw [if_neg habove, if_neg habove, Sheet.cell_grow]
        by_cases hcell : row = origin + s.above.length ∧ col = s.last.length
        · rw [if_pos hcell, if_pos (by omega)]
        · rw [if_neg hcell, if_neg (by omega)]
    · change t.col + 1 = (s.last ++ [c]).length
      rw [here.col, List.length_append, List.length_singleton]
  -- the wrap that waited is made: the row is complete and the character opens the next
  · have hlast : w ≤ s.last.length := by rw [← here.col, ← h.width]; exact hge
    have hrows : s.rows.length = s.above.length + 1 := by simp [Sheet.rows]
    rw [if_neg (Nat.not_lt.mpr hge), Sheet.pen_of_le hc hlast]
    refine ⟨⟨h.width, h.ground, ?_⟩, ?_, rfl⟩
    · intro row col
      change (t.setCell (t.row + 1) 0 c).cells row col = _
      rw [cells_setCell, h.cells, here.row]
      by_cases habove : row < origin
      · rw [if_pos habove, if_pos habove, if_neg (by omega)]
      · rw [if_neg habove, if_neg habove, Sheet.cell_newRow, hrows]
        by_cases hrow : row = origin + s.above.length + 1
        · rw [if_pos (show row - origin = s.above.length + 1 by omega)]
          cases col with
          | zero => rw [if_pos ⟨hrow, rfl⟩]; rfl
          | succ col =>
              rw [if_neg (by omega), Sheet.cell_of_length_le s (by omega)]
              rfl
        · rw [if_neg (by omega), if_neg (by omega)]
    · change t.row + 1 = origin + s.rows.length
      rw [here.row, hrows]
      rfl

/-- A text that is displayed continues the sheet. -/
theorem Shows.run {text plain : Text} (hd : Displays text plain) (h : t.Shows w before origin s)
    (here : t.AtEnd origin s) :
    (t.run text).Shows w before origin (s.write w plain) ∧
      (t.run text).AtEnd origin (s.write w plain) := by
  induction hd generalizing t s with
  | nil => exact ⟨h, here⟩
  | @glyph c text plain hc rest ih =>
      obtain ⟨h', here'⟩ := h.put here (hc.ne_of_lt (by decide))
      rw [run_cons, feed_of_printable h.ground hc]
      exact ih h' here'
  | @lineFeed text plain rest ih =>
      rw [run_cons, feed_lineFeed h.ground, Sheet.write_cons, Sheet.pen_lineFeed]
      apply ih
      · refine ⟨h.width, h.ground, ?_⟩
        intro row col
        rw [Sheet.cell_lineFeed]
        exact h.cells row col
      · refine ⟨?_, rfl⟩
        change t.row + 1 = origin + (s.above ++ [s.last]).length
        rw [here.row, List.length_append]
        rfl
  | @styling sequence text plain hs rest ih =>
      rw [run_append, run_styling h.ground hs]
      exact ih h here

open Cursor

theorem run_vertical (ground : t.mode = .ground) {start : Nat} (hrow : t.row = origin + start)
    (target : Nat) : ∃ col,
      t.run (if start < target then Command.down (target - start)
        else Command.up (start - target)).sequence =
          { t with row := origin + target, col := col } := by
  obtain ⟨width, cells, row, col, mode⟩ := t
  change mode = .ground at ground
  change row = origin + start at hrow
  subst ground hrow
  split
  · rename_i hlt
    have hn : target - start ≠ 0 := by omega
    have letter : 0x40 ≤ ('B').toNat ∧ ('B').toNat ≤ 0x7e := by decide
    refine ⟨min col (width - 1), ?_⟩
    rw [Command.sequence, move, if_neg hn, run_control rfl (isParameter_decimal _) letter, control,
      count_decimal hn]
    rw [show origin + target = origin + start + (target - start) by omega]
  · rename_i hge
    by_cases hn : start - target = 0
    · refine ⟨col, ?_⟩
      rw [Command.sequence, move, if_pos hn, run_nil]
      rw [show origin + target = origin + start by omega]
    · have letter : 0x40 ≤ ('A').toNat ∧ ('A').toNat ≤ 0x7e := by decide
      refine ⟨min col (width - 1), ?_⟩
      rw [Command.sequence, move, if_neg hn, run_control rfl (isParameter_decimal _) letter,
        control, count_decimal hn]
      rw [show origin + target = origin + start - (start - target) by omega]

theorem run_right (ground : t.mode = .ground) (hcol : t.col = 0) (n : Nat) :
    t.run (Command.right n).sequence = { t with col := min n (t.width - 1) } := by
  obtain ⟨width, cells, row, col, mode⟩ := t
  change mode = .ground at ground
  change col = 0 at hcol
  subst ground hcol
  by_cases hn : n = 0
  · rw [Command.sequence, move, if_pos hn, run_nil, hn, Nat.zero_min]
  · have letter : 0x40 ≤ ('C').toNat ∧ ('C').toNat ≤ 0x7e := by decide
    rw [Command.sequence, move, if_neg hn, run_control rfl (isParameter_decimal _) letter, control,
      count_decimal hn, Nat.zero_add]

theorem run_startOfLine (ground : t.mode = .ground) :
    t.run Command.startOfLine.sequence = { t with col := 0 } := by
  change t.feed '\r' = _
  rw [feed, ground]
  rfl

/-- The commands of a move, from one row of a canvas to another. -/
theorem run_moveTo (ground : t.mode = .ground) {start : Nat} (hrow : t.row = origin + start)
    (target col : Nat) :
    t.run (sequences [if start < target then .down (target - start) else .up (start - target),
      .startOfLine, .right col]) =
        { t with row := origin + target, col := min col (t.width - 1) } := by
  obtain ⟨col', hvertical⟩ := run_vertical ground hrow target
  have hstart := run_startOfLine (t := { t with row := origin + target, col := col' }) ground
  have hright := run_right (t := { t with row := origin + target, col := 0 }) ground rfl col
  rw [sequences, List.flatMap_cons, List.flatMap_cons, List.flatMap_cons, List.flatMap_nil,
    List.append_nil, run_append, hvertical, run_append, hstart, hright]

theorem run_clearLine (ground : t.mode = .ground) :
    t.run Command.clearLine.sequence = { t.eraseRow with col := 0 } := by
  obtain ⟨width, cells, row, col, mode⟩ := t
  change mode = .ground at ground
  subst ground
  rfl

theorem run_upOne (ground : t.mode = .ground) (hcol : t.col = 0) :
    t.run (Command.up 1).sequence = { t with row := t.row - 1 } := by
  obtain ⟨width, cells, row, col, mode⟩ := t
  change mode = .ground at ground
  change col = 0 at hcol
  subst ground hcol
  have letter : 0x40 ≤ ('A').toNat ∧ ('A').toNat ≤ 0x7e := by decide
  rw [Command.sequence, move, if_neg Nat.one_ne_zero,
    run_control rfl (isParameter_decimal _) letter, control, count_decimal Nat.one_ne_zero,
    Nat.zero_min]

/-- The commands of an erasure blank the row of the cursor and as many above it as they say. -/
theorem run_clearRows (ground : t.mode = .ground) {rows : Nat} (hrow : t.row = origin + rows) :
    t.run (sequences (Printer.clearRows rows)) =
      { t with
        cells := fun row col => if origin ≤ row ∧ row ≤ origin + rows then ' ' else t.cells row col
        row := origin
        col := 0 } := by
  induction rows generalizing t with
  | zero =>
      have hcells : Function.update t.cells t.row (fun _ => ' ') = fun row col =>
          if origin ≤ row ∧ row ≤ origin + 0 then ' ' else t.cells row col := by
        funext row col
        by_cases heq : row = t.row
        · rw [heq, Function.update_self, if_pos (by omega)]
        · rw [Function.update_of_ne heq, if_neg (by omega)]
      change t.run (Command.clearLine.sequence ++ []) = _
      rw [List.append_nil, run_clearLine ground, eraseRow, hcells, hrow]
      rfl
  | succ rows ih =>
      have hcells : (fun row col => if origin ≤ row ∧ row ≤ origin + rows then ' '
            else Function.update t.cells t.row (fun _ => ' ') row col) =
          fun row col => if origin ≤ row ∧ row ≤ origin + (rows + 1) then ' '
            else t.cells row col := by
        funext row col
        by_cases heq : row = t.row
        · rw [heq, Function.update_self, ite_self, if_pos (by omega)]
        · rw [Function.update_of_ne heq]
          by_cases hin : origin ≤ row ∧ row ≤ origin + rows
          · rw [if_pos hin, if_pos (by omega)]
          · rw [if_neg hin, if_neg (by omega)]
      have hup := run_upOne (t := { t.eraseRow with col := 0 }) ground rfl
      have hrest := ih (t := { t.eraseRow with row := t.row - 1, col := 0 }) ground
        (show t.row - 1 = origin + rows by omega)
      change t.run (Command.clearLine.sequence ++
        ((Command.up 1).sequence ++ sequences (Printer.clearRows rows))) = _
      rw [run_append, run_clearLine ground, run_append, hup]
      refine hrest.trans ?_
      rw [eraseRow]
      dsimp only
      rw [hcells]

end Terminal

end Inlay
