import Inlay.Cursor
import Inlay.Text.Utf8
import Mathlib.Logic.Function.Basic
/-!
A terminal, as the second side of what is written. A printable character fills one cell, and after
the last column of a row the wrap waits for the next character. Of the control sequences it follows
the cursor movements and the erasure of a row; all others and the strings that operating system
commands carry are read and have no effect. There is no last row.
-/

namespace Inlay

/-- Whether a terminal shows a character in a cell. -/
def Printable (c : Char) : Prop := 0x20 ≤ c.toNat ∧ ¬ (0x7f ≤ c.toNat ∧ c.toNat < 0xa0)

instance : DecidablePred Printable := fun c =>
  inferInstanceAs (Decidable (0x20 ≤ c.toNat ∧ ¬ (0x7f ≤ c.toNat ∧ c.toNat < 0xa0)))

/-- Where a terminal is in what it reads. -/
inductive Terminal.Mode where
  | ground
  | escape
  | control (parameters : Text)
  | string
  | stringEscape
deriving DecidableEq, Repr

/-- In the column `width`, behind the last, the cursor waits for the wrap. -/
structure Terminal where
  width : Nat
  cells : Nat → Nat → Char
  row : Nat
  col : Nat
  mode : Terminal.Mode := .ground

namespace Terminal

def setCell (t : Terminal) (row col : Nat) (c : Char) : Terminal :=
  { t with cells := Function.update t.cells row (Function.update (t.cells row) col c) }

def put (t : Terminal) (c : Char) : Terminal :=
  if t.col < t.width then { t.setCell t.row t.col c with col := t.col + 1 }
  else
    { t.setCell (t.row + 1) 0 c with
      row := t.row + 1
      col := 1 }

def eraseRow (t : Terminal) : Terminal :=
  { t with cells := Function.update t.cells t.row fun _ => ' ' }

/-- A count in the parameters of a control sequence; none and zero stand for one. -/
def count (parameters : Text) : Nat := max 1 (Nat.ofDigitChars 10 parameters 0)

def control (t : Terminal) (parameters : Text) (final : Char) : Terminal :=
  match final with
  | 'A' => { t with row := t.row - count parameters, col := min t.col (t.width - 1) }
  | 'B' => { t with row := t.row + count parameters, col := min t.col (t.width - 1) }
  | 'C' => { t with col := min (t.col + count parameters) (t.width - 1) }
  | 'K' => if parameters = ['2'] then t.eraseRow else t
  | _ => t

def feed (t : Terminal) (c : Char) : Terminal :=
  match t.mode with
  | .ground =>
      if c = '\n' then { t with row := t.row + 1, col := 0 }
      else if c = '\r' then { t with col := 0 }
      else if c = '\x1b' then { t with mode := .escape }
      else if Printable c then t.put c
      else t
  | .escape =>
      if c = '[' then { t with mode := .control [] }
      else if c = ']' then { t with mode := .string }
      else { t with mode := .ground }
  | .control parameters =>
      if 0x40 ≤ c.toNat ∧ c.toNat ≤ 0x7e then { t.control parameters c with mode := .ground }
      else { t with mode := .control (parameters ++ [c]) }
  | .string =>
      if c = '\x07' then { t with mode := .ground }
      else if c = '\x1b' then { t with mode := .stringEscape }
      else t
  | .stringEscape =>
      if c = '\\' then { t with mode := .ground }
      else if c = '\x1b' then t
      else { t with mode := .string }

def run (t : Terminal) (text : Text) : Terminal := text.foldl feed t

def receive (t : Terminal) (bytes : List UInt8) : Terminal :=
  match bytes.toByteArray.utf8Decode? with
  | some characters => t.run characters.toList
  | none => t

@[simp] theorem run_nil (t : Terminal) : t.run [] = t := rfl

@[simp] theorem run_cons (t : Terminal) (c : Char) (rest : Text) :
    t.run (c :: rest) = (t.feed c).run rest :=
  rfl

theorem run_append (t : Terminal) (text text' : Text) :
    t.run (text ++ text') = (t.run text).run text' :=
  List.foldl_append

theorem receive_encode (t : Terminal) (text : Text) :
    t.receive (Text.Utf8.encode text) = t.run text := by
  have encoded : (Text.Utf8.encode text).toByteArray = text.utf8Encode := rfl
  rw [receive, encoded, List.utf8Decode?_utf8Encode]

theorem receive_append (t : Terminal) (sent text : Text) :
    t.receive (Text.Utf8.encode sent ++ Text.Utf8.encode text) =
      (t.receive (Text.Utf8.encode sent)).run text := by
  rw [← Text.Utf8.encode_append, receive_encode, receive_encode, run_append]

variable {t : Terminal}

/-- Characters that may stand in the parameters of a control sequence. -/
def IsParameter (c : Char) : Prop := 0x30 ≤ c.toNat ∧ c.toNat < 0x40

instance : DecidablePred IsParameter := fun c =>
  inferInstanceAs (Decidable (0x30 ≤ c.toNat ∧ c.toNat < 0x40))

theorem run_parameters {parameters before : Text} (h : ∀ c ∈ parameters, IsParameter c) :
    ({ t with mode := .control before }).run parameters =
      { t with mode := .control (before ++ parameters) } := by
  induction parameters generalizing before with
  | nil => rw [List.append_nil, run_nil]
  | cons c rest ih =>
      rw [List.forall_mem_cons] at h
      obtain ⟨hc, hrest⟩ := h
      have hfinal : ¬ (0x40 ≤ c.toNat ∧ c.toNat ≤ 0x7e) := by
        rintro ⟨hle, -⟩
        exact Nat.not_lt.mpr hle hc.2
      rw [run_cons, feed]
      dsimp only
      rw [if_neg hfinal, ih hrest, List.append_assoc, List.singleton_append]

/-- A whole control sequence. -/
theorem run_control (ground : t.mode = .ground) {parameters : Text}
    (h : ∀ c ∈ parameters, IsParameter c) {final : Char}
    (hfinal : 0x40 ≤ final.toNat ∧ final.toNat ≤ 0x7e) :
    t.run ("\x1b[" ++ parameters ++ [final]) =
      { t.control parameters final with mode := .ground } := by
  have opened : t.run "\x1b[" = { t with mode := .control [] } := by
    obtain ⟨width, cells, row, col, mode⟩ := t
    change mode = .ground at ground
    rw [ground]
    rfl
  rw [run_append, run_append, opened, run_parameters h, run_cons, run_nil, feed]
  dsimp only
  rw [if_pos hfinal, List.nil_append]
  obtain ⟨width, cells, row, col, mode⟩ := t
  unfold control
  split
  · rfl
  · rfl
  · rfl
  · split
    · rfl
    · rfl
  · rfl

theorem isParameter_decimal (n : Nat) : ∀ c ∈ Text.decimal n, IsParameter c := by
  intro c hc
  have digit := Nat.isDigit_of_mem_toDigits (by decide) (by decide) hc
  rw [Char.isDigit_iff_toNat] at digit
  obtain ⟨hle, hge⟩ := digit
  constructor
  · exact hle
  · exact Nat.lt_of_le_of_lt hge (by decide)

theorem count_decimal {n : Nat} (positive : n ≠ 0) : count (Text.decimal n) = n := by
  rw [count, Text.decimal, Nat.ofDigitChars_ten_toDigits]
  exact Nat.max_eq_right (Nat.one_le_iff_ne_zero.mpr positive)

end Terminal

end Inlay
