import Inlay.Proofs.Screen.Display
/-!
What a text looks like on a terminal: its lines, each broken into rows of the terminal's width. A
sheet is such a picture with more to come on its last row.
-/

namespace Inlay

namespace Text

/-- A line in rows of `w` characters. A line that fills its last row does not begin another. -/
def wrap (w : Nat) (line : Text) : List Text :=
  if w = 0 ∨ line.length ≤ w then [line]
  else line.take w :: wrap w (line.drop w)
termination_by line.length
decreasing_by
  rw [List.length_drop]
  omega

def layout (w : Nat) (text : Text) : List Text := (allLines text).flatMap (wrap w)

theorem wrap_ne_nil (w : Nat) (line : Text) : wrap w line ≠ [] := by
  rw [wrap]
  split
  · exact List.cons_ne_nil _ _
  · exact List.cons_ne_nil _ _

/-- Even the empty text has a row. -/
theorem layout_ne_nil (w : Nat) (text : Text) : layout w text ≠ [] := by
  intro hempty
  have hfirst := List.flatMap_eq_nil_iff.mp hempty _ List.mem_cons_self
  exact wrap_ne_nil w _ hfirst

theorem wrap_of_le {w : Nat} {line : Text} (h : line.length ≤ w) : wrap w line = [line] := by
  rw [wrap, if_pos (Or.inr h)]

theorem wrap_append {w : Nat} {row line : Text} (positive : 1 ≤ w) (full : row.length = w)
    (more : line ≠ []) : wrap w (row ++ line) = row :: wrap w line := by
  have hlength : 0 < line.length := List.length_pos_iff.mpr more
  have hlong : ¬ (w = 0 ∨ (row ++ line).length ≤ w) := by
    rw [List.length_append]
    omega
  rw [wrap, if_neg hlong, ← full, List.take_left, List.drop_left]

namespace Measure

theorem wrapRows_of_le {n w : Nat} (h : n ≤ w) : wrapRows n w = 0 := by
  rw [wrapRows]
  split
  · rfl
  · rename_i hne
    rw [not_or] at hne
    have : (n + w - 1) / w = 1 := by
      apply Nat.div_eq_of_lt_le
      · omega
      · omega
    omega

theorem wrapRows_add {n w : Nat} (hn : 0 < n) (hw : 1 ≤ w) :
    wrapRows (w + n) w = wrapRows n w + 1 := by
  have hsum : ¬ (w = 0 ∨ w + n = 0) := by omega
  have hpart : ¬ (w = 0 ∨ n = 0) := by omega
  have hdiv : (w + n + w - 1) / w = (n + w - 1) / w + 1 := by
    rw [show w + n + w - 1 = n + w - 1 + w by omega]
    exact Nat.add_div_right _ hw
  have hge : 1 ≤ (n + w - 1) / w := (Nat.one_le_div_iff hw).mpr (by omega)
  rw [wrapRows, if_neg hsum, wrapRows, if_neg hpart, hdiv]
  omega

/-- Rows that were wrapped before do not count again. -/
theorem wrapRows_add_mul {n w : Nat} (rows : Nat) (hn : 0 < n) (hw : 1 ≤ w) :
    wrapRows (n + rows * w) w = rows + wrapRows n w := by
  induction rows with
  | zero => rw [Nat.zero_mul, Nat.add_zero, Nat.zero_add]
  | succ rows ih =>
      rw [show n + (rows + 1) * w = w + (n + rows * w) by rw [Nat.succ_mul]; omega,
        wrapRows_add (by omega) hw, ih]
      omega

end Measure

end Text

open Text Text.Measure

/-- Rows that take no more, and the row that is being written. -/
structure Sheet where
  above : List Text := []
  last : Text := []

namespace Sheet

variable {w : Nat} {s : Sheet}

def rows (s : Sheet) : List Text := s.above ++ [s.last]

def cell (s : Sheet) (row col : Nat) : Char := ((s.rows[row]?).bind (·[col]?)).getD ' '

def pen (w : Nat) (s : Sheet) (c : Char) : Sheet :=
  if c = '\n' then ⟨s.rows, []⟩
  else if s.last.length < w then { s with last := s.last ++ [c] }
  else ⟨s.rows, [c]⟩

def write (w : Nat) (s : Sheet) (text : Text) : Sheet := text.foldl (pen w) s

@[simp] theorem write_nil (w : Nat) (s : Sheet) : s.write w [] = s := rfl

@[simp] theorem write_cons (w : Nat) (s : Sheet) (c : Char) (rest : Text) :
    s.write w (c :: rest) = (s.pen w c).write w rest :=
  rfl

theorem write_append (w : Nat) (s : Sheet) (text text' : Text) :
    s.write w (text ++ text') = (s.write w text).write w text' :=
  List.foldl_append

theorem pen_lineFeed (w : Nat) (s : Sheet) : s.pen w '\n' = ⟨s.rows, []⟩ := rfl

theorem pen_of_lt {c : Char} (hc : c ≠ '\n') (h : s.last.length < w) :
    s.pen w c = { s with last := s.last ++ [c] } := by
  rw [pen, if_neg hc, if_pos h]

theorem pen_of_le {c : Char} (hc : c ≠ '\n') (h : w ≤ s.last.length) :
    s.pen w c = ⟨s.rows, [c]⟩ := by
  rw [pen, if_neg hc, if_neg (Nat.not_lt.mpr h)]

/-- A text continues the last row of a sheet with its first line. -/
theorem rows_write (positive : 1 ≤ w) (fits : s.last.length ≤ w) (text : Text) :
    (s.write w text).rows =
      s.above ++ wrap w (s.last ++ (lines text).1) ++ (lines text).2.flatMap (wrap w) := by
  induction text generalizing s with
  | nil =>
      rw [lines_nil, List.append_nil, wrap_of_le fits, List.flatMap_nil, List.append_nil]
      rfl
  | cons c rest ih =>
      rw [write_cons]
      by_cases hc : c = '\n'
      · subst hc
        rw [pen_lineFeed, ih (Nat.zero_le _), lines_lineFeed, List.append_nil, wrap_of_le fits,
          List.flatMap_cons, List.nil_append, List.append_assoc]
        rfl
      · rw [lines_cons rest hc]
        rcases Nat.lt_or_ge s.last.length w with hlt | hge
        · have fits' : (s.last ++ [c]).length ≤ w := by
            rw [List.length_append]
            exact hlt
          rw [pen_of_lt hc hlt, ih fits', List.append_assoc s.last, List.singleton_append]
        · have fits' : ([c] : Text).length ≤ w := positive
          rw [pen_of_le hc hge, ih fits',
            wrap_append positive (Nat.le_antisymm fits hge) (List.cons_ne_nil _ _)]
          simp [rows]

theorem rows_write_empty (positive : 1 ≤ w) (text : Text) :
    (write w {} text).rows = layout w text := by
  rw [rows_write positive (Nat.zero_le _), layout, allLines, List.flatMap_cons]
  rfl

/-- How a line adds to a sheet, in numbers. -/
theorem length_write (positive : 1 ≤ w) (fits : s.last.length ≤ w) {line : Text}
    (h : ∀ c ∈ line, c ≠ '\n') :
    (s.write w line).above.length =
        s.above.length + wrapRows (s.last.length + line.length) w ∧
      (s.write w line).last.length + wrapRows (s.last.length + line.length) w * w =
        s.last.length + line.length := by
  induction line generalizing s with
  | nil =>
      rw [write_nil, List.length_nil, Nat.add_zero, wrapRows_of_le fits]
      omega
  | cons c rest ih =>
      rw [List.forall_mem_cons] at h
      obtain ⟨hc, hrest⟩ := h
      rw [write_cons, List.length_cons]
      rcases Nat.lt_or_ge s.last.length w with hlt | hge
      · rw [pen_of_lt hc hlt]
        have hlast : (s.last ++ [c]).length = s.last.length + 1 := by simp
        obtain ⟨habove, hcols⟩ := ih (s := { s with last := s.last ++ [c] }) (hlast ▸ hlt) hrest
        rw [hlast, Nat.add_assoc, Nat.add_comm 1] at habove hcols
        exact ⟨habove, hcols⟩
      · rw [pen_of_le hc hge]
        obtain ⟨habove, hcols⟩ := ih (s := ⟨s.rows, [c]⟩) positive hrest
        have hfull : s.last.length = w := Nat.le_antisymm fits hge
        have hwrap := wrapRows_add (n := rest.length + 1) (Nat.succ_pos _) positive
        rw [List.length_singleton, Nat.add_comm 1] at habove hcols
        rw [hfull, hwrap, Nat.succ_mul]
        have hrows : s.rows.length = s.above.length + 1 := by simp [rows]
        dsimp only at habove
        constructor
        · omega
        · omega

end Sheet

end Inlay
