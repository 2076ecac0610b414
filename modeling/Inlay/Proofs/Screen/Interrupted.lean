import Inlay.Proofs.Screen.Showing
import Inlay.Proofs.Utf8
/-!
A terminal that reads what may break off anywhere, inside a sequence and even inside a character.
An escape character begins a sequence wherever it comes, so that a frame is read from its first
command on whatever the one before left unfinished.
-/

namespace Inlay

namespace Terminal

open Text Cursor

/-- Reads a character. An escape breaks off the sequence that it comes in. -/
def next (t : Terminal) (c : Char) : Terminal :=
  if c = '\x1b' then { t with mode := .escape } else t.feed c

def follow (t : Terminal) (text : Text) : Terminal := text.foldl next t

/-- Reads bytes of which some may be missing. -/
def read (t : Terminal) (bytes : List UInt8) : Terminal := t.follow (Utf8.lossy bytes)

variable {t : Terminal}

@[simp] theorem follow_nil (t : Terminal) : t.follow [] = t := rfl

@[simp] theorem follow_cons (t : Terminal) (c : Char) (rest : Text) :
    t.follow (c :: rest) = (t.next c).follow rest :=
  rfl

theorem follow_append (t : Terminal) (text text' : Text) :
    t.follow (text ++ text') = (t.follow text).follow text' :=
  List.foldl_append

theorem next_escape (t : Terminal) : t.next '\x1b' = { t with mode := .escape } := rfl

theorem next_of_ne {c : Char} (h : c ≠ '\x1b') : t.next c = t.feed c := if_neg h

theorem follow_of_notMem {text : Text} (h : '\x1b' ∉ text) : t.follow text = t.run text := by
  induction text generalizing t with
  | nil => rfl
  | cons c rest ih =>
      rw [List.mem_cons, not_or] at h
      rw [follow_cons, next_of_ne (Ne.symm h.1), ih h.2, run_cons]

theorem read_append {bytes bytes' : List UInt8} (h : Utf8.StartsAfresh bytes') :
    t.read (bytes ++ bytes') = (t.read bytes).read bytes' := by
  rw [read, Utf8.lossy_append bytes h, follow_append]
  rfl

theorem read_encode (t : Terminal) (text : Text) : t.read (Utf8.encode text) = t.follow text := by
  rw [read, Utf8.lossy_encode]

theorem width_next (t : Terminal) (c : Char) : (t.next c).width = t.width := by
  unfold next feed put control setCell eraseRow
  grind

theorem width_follow (t : Terminal) (text : Text) : (t.follow text).width = t.width := by
  induction text generalizing t with
  | nil => rfl
  | cons c rest ih => exact (ih _).trans (t.width_next c)

/-- The cursor has not come above the row `top`: above it the cells are as they were, and below the
cursor there is nothing. -/
structure Within (t : Terminal) (before : Nat → Nat → Char) (top : Nat) : Prop where
  inside : top ≤ t.row
  above : ∀ row col, row < top → t.cells row col = before row col
  below : ∀ row col, t.row < row → t.cells row col = ' '

variable {before : Nat → Nat → Char} {top : Nat}

theorem Within.place (h : t.Within before top) (col : Nat) (mode : Mode) :
    ({ t with col := col, mode := mode } : Terminal).Within before top :=
  ⟨h.inside, h.above, h.below⟩

theorem Within.down (h : t.Within before top) (rows col : Nat) (mode : Mode) :
    ({ t with row := t.row + rows, col := col, mode := mode } : Terminal).Within before top :=
  ⟨Nat.le_add_right_of_le h.inside, h.above, fun row col hrow =>
    h.below row col (Nat.lt_of_le_of_lt (Nat.le_add_right _ _) hrow)⟩

theorem Within.put (h : t.Within before top) (c : Char) : (t.put c).Within before top := by
  have htop := h.inside
  rw [Terminal.put]
  split
  · refine ⟨h.inside, ?_, ?_⟩
    · intro row col hrow
      change (t.setCell t.row t.col c).cells row col = _
      rw [cells_setCell, if_neg (by omega), h.above row col hrow]
    · intro row col hrow
      change t.row < row at hrow
      change (t.setCell t.row t.col c).cells row col = _
      rw [cells_setCell, if_neg (by omega), h.below row col hrow]
  · refine ⟨Nat.le_succ_of_le h.inside, ?_, ?_⟩
    · intro row col hrow
      change (t.setCell (t.row + 1) 0 c).cells row col = _
      rw [cells_setCell, if_neg (by omega), h.above row col hrow]
    · intro row col hrow
      change t.row + 1 < row at hrow
      change (t.setCell (t.row + 1) 0 c).cells row col = _
      rw [cells_setCell, if_neg (by omega), h.below row col (by omega)]

theorem Within.eraseRow (h : t.Within before top) : t.eraseRow.Within before top := by
  refine ⟨h.inside, ?_, ?_⟩
  · intro row col hrow
    change Function.update t.cells t.row _ row col = _
    rw [Function.update_of_ne (Nat.ne_of_lt (Nat.lt_of_lt_of_le hrow h.inside)),
      h.above row col hrow]
  · intro row col hrow
    change t.row < row at hrow
    change Function.update t.cells t.row _ row col = _
    rw [Function.update_of_ne (Nat.ne_of_gt hrow), h.below row col hrow]

theorem Within.control (h : t.Within before top) (parameters : Text) {final : Char}
    (down : final ≠ 'A') : (t.control parameters final).Within before top := by
  unfold Terminal.control
  split
  · exact absurd rfl down
  · exact h.down _ _ t.mode
  · exact h.place _ t.mode
  · split
    · exact h.eraseRow
    · exact h
  · exact h

/-- Only the final character of a move up takes the cursor up. -/
theorem Within.next (h : t.Within before top) {c : Char}
    (down : ∀ parameters, t.mode = .control parameters → c ≠ 'A') :
    (t.next c).Within before top := by
  by_cases hescape : c = '\x1b'
  · rw [hescape, next_escape]
    exact h.place t.col _
  rw [next_of_ne hescape, feed]
  cases hmode : t.mode with
  | ground =>
      dsimp only
      rw [if_neg hescape]
      split
      · exact h.down 1 0 _
      split
      · exact h.place 0 _
      split
      · exact h.put c
      · exact h
  | escape =>
      dsimp only
      split
      · exact h.place t.col _
      split
      · exact h.place t.col _
      · exact h.place t.col _
  | control parameters =>
      dsimp only
      split
      · exact (h.control parameters (down parameters hmode)).place _ _
      · exact h.place t.col _
  | string =>
      dsimp only
      rw [if_neg hescape]
      split
      · exact h.place t.col _
      · exact h
  | stringEscape =>
      dsimp only
      rw [if_neg hescape]
      split
      · exact h.place t.col _
      · exact h.place t.col _

/-- A property of a terminal that it has before a text and after each of its characters. -/
def AllAlong (P : Terminal → Prop) (t : Terminal) : Text → Prop
  | [] => P t
  | c :: rest => P t ∧ AllAlong P (t.next c) rest

variable {P : Terminal → Prop}

theorem AllAlong.append {text text' : Text} (h : AllAlong P t text)
    (h' : AllAlong P (t.follow text) text') : AllAlong P t (text ++ text') := by
  induction text generalizing t with
  | nil => exact h'
  | cons c rest ih => exact ⟨h.1, ih h.2 h'⟩

/-- However a text breaks off, the property holds. -/
theorem AllAlong.of_isPrefix {text kept : Text} (h : AllAlong P t text) (hkept : kept <+: text) :
    P (t.follow kept) := by
  induction text generalizing t kept with
  | nil =>
      rw [List.prefix_nil.mp hkept]
      exact h
  | cons c rest ih =>
      rcases List.prefix_cons_iff.mp hkept with rfl | ⟨kept', rfl, hkept'⟩
      · exact h.1
      · have hrest := ih h.2 hkept'
        exact hrest

theorem AllAlong.last {text : Text} (h : AllAlong P t text) : P (t.follow text) :=
  h.of_isPrefix (List.prefix_refl _)

theorem allAlong_of_notMem {text : Text} (h : t.Within before top) (down : 'A' ∉ text) :
    AllAlong (·.Within before top) t text := by
  induction text generalizing t with
  | nil => exact h
  | cons c rest ih =>
      rw [List.mem_cons, not_or] at down
      exact ⟨h, ih (h.next fun _ _ => Ne.symm down.1) down.2⟩

theorem follow_clearLine (t : Terminal) :
    t.follow Command.clearLine.sequence = { t.eraseRow with col := 0, mode := .ground } := rfl

theorem follow_upOne (t : Terminal) :
    t.follow (Command.up 1).sequence =
      { t with row := t.row - 1, col := min t.col (t.width - 1), mode := .ground } := rfl

/-- Cells of which whole rows were erased. -/
def erased (cells : Nat → Nat → Char) (first last : Nat) : Nat → Nat → Char := fun row col =>
  if first ≤ row ∧ row ≤ last then ' ' else cells row col

theorem erased_self (t : Terminal) : erased t.cells t.row t.row = t.eraseRow.cells := by
  funext row col
  change _ = Function.update t.cells t.row _ row col
  by_cases heq : row = t.row
  · rw [heq, Function.update_self, erased, if_pos ⟨Nat.le_refl _, Nat.le_refl _⟩]
  · rw [Function.update_of_ne heq, erased, if_neg (by omega)]

theorem erased_eraseRow (t : Terminal) (rows : Nat) :
    erased t.eraseRow.cells (t.row - 1 - rows) (t.row - 1) =
      erased t.cells (t.row - (rows + 1)) t.row := by
  funext row col
  change (if _ then _ else Function.update t.cells t.row _ row col) = _
  rw [erased]
  by_cases heq : row = t.row
  · rw [heq, Function.update_self, ite_self, if_pos (by omega)]
  · rw [Function.update_of_ne heq]
    by_cases hin : t.row - 1 - rows ≤ row ∧ row ≤ t.row - 1
    · rw [if_pos hin, if_pos (by omega)]
    · rw [if_neg hin, if_neg (by omega)]

/-- The commands of an erasure are followed in any mode. They blank the row of the cursor and as
many above it as they say, or as there are. -/
theorem follow_clearRows (t : Terminal) (rows : Nat) :
    t.follow (sequences (Printer.clearRows rows)) =
      { t with
        cells := erased t.cells (t.row - rows) t.row
        row := t.row - rows
        col := 0
        mode := .ground } := by
  induction rows generalizing t with
  | zero =>
      change t.follow (Command.clearLine.sequence ++ []) = _
      rw [List.append_nil, follow_clearLine, Nat.sub_zero, erased_self]
      rfl
  | succ rows ih =>
      have hrow : t.row - (rows + 1) = t.row - 1 - rows := by omega
      change t.follow (Command.clearLine.sequence ++
        ((Command.up 1).sequence ++ sequences (Printer.clearRows rows))) = _
      rw [follow_append, follow_clearLine, follow_append, follow_upOne, ih, ← erased_eraseRow,
        hrow]
      rfl

theorem mode_follow_clearRows (t : Terminal) (rows : Nat) :
    (t.follow (sequences (Printer.clearRows rows))).mode = .ground := by
  rw [follow_clearRows]

/-- A row that is blank may be left upwards. -/
theorem Within.upOne (h : t.Within before top) (blank : ∀ col, t.cells t.row col = ' ')
    (room : top ≤ t.row - 1) (col : Nat) (mode : Mode) :
    ({ t with row := t.row - 1, col := col, mode := mode } : Terminal).Within before top := by
  refine ⟨room, h.above, ?_⟩
  intro row col hrow
  change t.row - 1 < row at hrow
  rcases Nat.lt_or_ge t.row row with hlt | hge
  · exact h.below row col hlt
  · rw [show row = t.row by omega]
    exact blank col

theorem allAlong_upOne (h : t.Within before top) (blank : ∀ col, t.cells t.row col = ' ')
    (room : top ≤ t.row - 1) :
    AllAlong (·.Within before top) t (Command.up 1).sequence := by
  have opened : AllAlong (·.Within before top) t "\x1b[1" := allAlong_of_notMem h (by decide)
  have ended : AllAlong (·.Within before top) (t.follow "\x1b[1") "A" :=
    ⟨opened.last, h.upOne blank room _ _⟩
  exact opened.append ended

theorem allAlong_clearRows (h : t.Within before top) (rows : Nat) (room : top ≤ t.row - rows) :
    AllAlong (·.Within before top) t (sequences (Printer.clearRows rows)) := by
  induction rows generalizing t with
  | zero => exact allAlong_of_notMem h (by decide)
  | succ rows ih =>
      have cleared : AllAlong (·.Within before top) t Command.clearLine.sequence :=
        allAlong_of_notMem h (by decide)
      have within := cleared.last
      rw [follow_clearLine] at within
      have blank : ∀ col, ({ t.eraseRow with col := 0, mode := .ground } : Terminal).cells
          t.eraseRow.row col = ' ' := by
        intro col
        exact congrFun (Function.update_self t.row (fun _ => ' ') t.cells) col
      have up := allAlong_upOne within blank (by change top ≤ t.row - 1; omega)
      change AllAlong _ t (Command.clearLine.sequence ++
        ((Command.up 1).sequence ++ sequences (Printer.clearRows rows)))
      refine cleared.append (AllAlong.append ?_ ?_)
      · rw [follow_clearLine]
        exact up
      · apply ih
        · rw [follow_clearLine]
          exact up.last
        · rw [follow_clearLine, follow_upOne]
          change top ≤ t.row - 1 - rows
          omega

theorem next_link (string : t.mode = .string) {c : Char} (h : Printable c) : t.next c = t := by
  rw [next_of_ne (h.ne_of_lt (by decide)), feed, string]
  dsimp only
  rw [if_neg (h.ne_of_lt (by decide)), if_neg (h.ne_of_lt (by decide))]

theorem follow_link (string : t.mode = .string) {body : Text} (h : ∀ c ∈ body, Printable c) :
    t.follow body = t := by
  induction body with
  | nil => rfl
  | cons c rest ih =>
      rw [List.forall_mem_cons] at h
      rw [follow_cons, next_link string h.1, ih h.2]

/-- Styling sequences have no effect, but that nothing before them is left unfinished. -/
theorem follow_styling (t : Terminal) {sequence : Text} (h : Styling sequence) :
    t.follow sequence = { t with mode := .ground } := by
  cases h with
  | rendition parameters h =>
      have opened : t.follow "\x1b[" = { t with mode := .control [] } := rfl
      have hescape : '\x1b' ∉ parameters := fun hmem => absurd (h _ hmem).1 (by decide)
      rw [follow_append, follow_append, opened, follow_of_notMem hescape, run_parameters h]
      rfl
  | link body terminator h ends =>
      have opened : t.follow "\x1b]8;" = { t with mode := .string } := rfl
      rw [follow_append, follow_append, opened, follow_link rfl h]
      rcases ends with rfl | rfl
      · rfl
      · rfl

/-- A displayed text is read as a terminal reads it that nothing was kept from. -/
theorem follow_displays (ground : t.mode = .ground) {text plain : Text} (h : Displays text plain) :
    t.follow text = t.run text := by
  induction h generalizing t with
  | nil => rfl
  | @glyph c text plain hc rest ih =>
      rw [follow_cons, run_cons, next_of_ne (hc.ne_of_lt (by decide)), feed_of_printable ground hc]
      exact ih ((t.mode_put c).trans ground)
  | @lineFeed text plain rest ih =>
      rw [follow_cons, run_cons, next_of_ne (by decide), feed_lineFeed ground]
      exact ih ground
  | @styling sequence text plain hs rest ih =>
      rw [follow_append, run_append, follow_styling t hs, run_styling ground hs, ← ground]
      exact ih ground

theorem allAlong_link (string : t.mode = .string) {body : Text} (h : ∀ c ∈ body, Printable c)
    (hP : P t) : AllAlong P t body := by
  induction body with
  | nil => exact hP
  | cons c rest ih =>
      rw [List.forall_mem_cons] at h
      refine ⟨hP, ?_⟩
      rw [next_link string h.1]
      exact ih h.2

theorem allAlong_styling (within : t.Within before top) {sequence : Text} (h : Styling sequence) :
    AllAlong (·.Within before top) t sequence := by
  cases h with
  | rendition parameters h =>
      apply allAlong_of_notMem within
      have hparameters : 'A' ∉ parameters := fun hmem => absurd (h _ hmem).2 (by decide)
      rw [List.mem_append, List.mem_append, not_or, not_or]
      exact ⟨⟨by decide, hparameters⟩, by decide⟩
  | link body terminator h ends =>
      have opened : AllAlong (·.Within before top) t "\x1b]8;" :=
        allAlong_of_notMem within (by decide)
      have linked := opened.append (allAlong_link rfl h opened.last)
      refine linked.append (allAlong_of_notMem linked.last ?_)
      rcases ends with rfl | rfl
      · decide
      · decide

/-- A displayed text takes the cursor down only. -/
theorem allAlong_displays (ground : t.mode = .ground) (within : t.Within before top)
    {text plain : Text} (h : Displays text plain) :
    AllAlong (·.Within before top) t text := by
  have plainly : ∀ {t : Terminal} {c : Char}, t.mode = .ground → t.Within before top →
      (t.next c).Within before top := by
    intro t c ground within
    apply within.next
    intro parameters hmode
    rw [ground] at hmode
    cases hmode
  induction h generalizing t with
  | nil => exact within
  | @glyph c text plain hc rest ih =>
      refine ⟨within, ih ?_ (plainly ground within)⟩
      rw [next_of_ne (hc.ne_of_lt (by decide)), feed_of_printable ground hc]
      exact (t.mode_put c).trans ground
  | @lineFeed text plain rest ih =>
      refine ⟨within, ih ?_ (plainly ground within)⟩
      rw [next_of_ne (by decide), feed_lineFeed ground]
      exact ground
  | @styling sequence text plain hs rest ih =>
      have styled := allAlong_styling within hs
      refine styled.append (ih ?_ styled.last)
      rw [follow_styling t hs]

/-- What is left of a character that broke off is no command. -/
theorem allAlong_high (within : t.Within before top) {text : Text}
    (high : ∀ c ∈ text, 0x80 ≤ c.toNat) : AllAlong (·.Within before top) t text :=
  allAlong_of_notMem within fun hmem => absurd (high _ hmem) (by decide)

variable {rows : Nat} {text plain : Text}

theorem within_self (below : ∀ row col, t.row < row → t.cells row col = ' ') (rows : Nat) :
    t.Within t.cells (t.row - rows) :=
  ⟨Nat.sub_le _ _, fun _ _ _ => rfl, below⟩

/-- A frame that breaks off anywhere has changed nothing above the rows that it set out to erase. -/
theorem within_frame (below : ∀ row col, t.row < row → t.cells row col = ' ')
    (hd : Displays text plain) {taken : List UInt8}
    (h : taken <+: Utf8.encode (sequences (Printer.clearRows rows) ++ text)) :
    (t.read taken).Within t.cells (t.row - rows) := by
  have cleared := allAlong_clearRows (within_self below rows) rows (Nat.le_refl _)
  have whole :=
    cleared.append (allAlong_displays (t.mode_follow_clearRows rows) cleared.last hd)
  obtain ⟨kept, broken, hread, hkept, hbroken⟩ := Utf8.lossy_of_isPrefix h
  rw [read, hread, follow_append]
  exact (allAlong_high (whole.of_isPrefix hkept) hbroken).last

/-- A frame that arrives whole stands from the first of the rows on that it erased. -/
theorem shows_frame (rows : Nat) (below : ∀ row col, t.row < row → t.cells row col = ' ')
    (hd : Displays text plain) :
    let t' := t.read (Utf8.encode (sequences (Printer.clearRows rows) ++ text))
    let sheet := Sheet.write t.width {} plain
    t'.Shows t.width t.cells (t.row - rows) sheet ∧ t'.AtEnd (t.row - rows) sheet := by
  intro t' sheet
  have ht' : t' = (t.follow (sequences (Printer.clearRows rows))).run text := by
    rw [← follow_displays (t.mode_follow_clearRows rows) hd, ← follow_append]
    exact read_encode t _
  rw [ht', follow_clearRows]
  refine Shows.run hd ⟨rfl, rfl, ?_⟩ ⟨rfl, rfl⟩
  intro row col
  rw [Sheet.cell_empty]
  change (if _ then _ else _) = _
  by_cases habove : row < t.row - rows
  · rw [if_neg (by omega), if_pos habove]
  · rw [if_neg habove]
    split
    · rfl
    · exact below row col (by omega)

end Terminal

end Inlay
