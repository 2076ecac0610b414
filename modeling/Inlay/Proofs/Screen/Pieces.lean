import Inlay.Proofs.Screen.Display

namespace Inlay.Text

namespace Escape

variable {α : Type} {code : α → Nat}

theorem finalLength?_append {text : List α} {n : Nat} (h : finalLength? code text = some n)
    (more : List α) : finalLength? code (text ++ more) = some n ∧ n ≤ text.length := by
  induction text generalizing n with
  | nil => cases h
  | cons a rest ih =>
      rw [finalLength?] at h
      rw [List.cons_append, finalLength?]
      split at h
      · rename_i final
        rw [if_pos final]
        exact ⟨h, Option.some.inj h ▸ Nat.succ_pos _⟩
      · rename_i inner
        obtain ⟨m, hm, rfl⟩ := Option.map_eq_some_iff.mp h
        obtain ⟨happend, hle⟩ := ih hm
        rw [if_neg inner, happend]
        exact ⟨rfl, Nat.succ_le_succ hle⟩

theorem terminatedLength?_append {text : List α} {n : Nat}
    (h : terminatedLength? code text = some n) (more : List α) :
    terminatedLength? code (text ++ more) = some n ∧ n ≤ text.length := by
  induction text generalizing n with
  | nil => cases h
  | cons a rest ih =>
      rw [terminatedLength?] at h
      rw [List.cons_append, terminatedLength?]
      split at h
      · rename_i bell
        rw [if_pos bell]
        exact ⟨h, Option.some.inj h ▸ Nat.succ_pos _⟩
      · rename_i noBell
        rw [if_neg noBell]
        cases rest with
        -- an ESC at the end of a text may be the first half of a terminator
        | nil =>
            rw [if_neg fun hends => Option.some_ne_none _ hends.2.symm] at h
            cases h
        | cons b rest =>
            rw [List.cons_append] at ih ⊢
            rw [List.head?_cons] at h ⊢
            split at h
            · rename_i ends
              rw [if_pos ends]
              exact ⟨h, Option.some.inj h ▸ Nat.succ_le_succ (Nat.succ_pos _)⟩
            · rename_i inner
              obtain ⟨m, hm, rfl⟩ := Option.map_eq_some_iff.mp h
              obtain ⟨happend, hle⟩ := ih hm
              rw [if_neg inner, happend]
              exact ⟨rfl, Nat.succ_le_succ hle⟩

theorem bodyLength?_append {body : List α} {kind : Kind} {n : Nat}
    (h : bodyLength? code body kind = some n) (more : List α) :
    bodyLength? code (body ++ more) kind = some n ∧ n ≤ body.length := by
  cases kind with
  | csi => exact finalLength?_append h more
  | osc | apc | dcs => exact terminatedLength?_append h more
  | ss3 =>
      cases body with
      | nil => cases h
      | cons a rest =>
          simp only [bodyLength?, List.cons_append, List.head?_cons] at h ⊢
          refine ⟨h, ?_⟩
          have hlength : n = 1 := by
            by_contra hne
            simp [Ne.symm hne] at h
          rw [hlength]
          exact Nat.succ_pos _

theorem sequence?_append {text : List α} {found : Sequence}
    (h : sequence? code text = some found) (more : List α) :
    sequence? code (text ++ more) = some found ∧ 1 ≤ found.length ∧
      found.length ≤ text.length := by
  match text with
  | [] | [_] => cases h
  | escape :: opener :: body =>
      rw [sequence?] at h
      rw [List.cons_append, List.cons_append, sequence?]
      split at h
      · rename_i opens
        obtain ⟨kind, hkind, h⟩ := Option.bind_eq_some_iff.mp h
        obtain ⟨length, hlength, h⟩ := Option.bind_eq_some_iff.mp h
        obtain rfl := Option.some.inj h
        obtain ⟨happend, hle⟩ := bodyLength?_append hlength more
        rw [if_pos opens, hkind, Option.bind_eq_bind, Option.bind_some, happend]
        exact ⟨rfl, Nat.succ_pos _, Nat.succ_le_succ (Nat.succ_le_succ hle)⟩
      · cases h

theorem covered_append {text : Text} {n : Nat} (h : covered text = n + 1) (more : Text) :
    covered (text ++ more) = n + 1 ∧ n + 1 ≤ text.length := by
  rw [covered] at h
  split at h
  · rename_i found hfound
    obtain ⟨happend, -, hle⟩ := sequence?_append hfound more
    rw [covered, happend]
    exact ⟨h, h ▸ hle⟩
  · cases h

theorem stripFrom_append {text : Text} {skip : Nat} (inside : skip ≤ text.length)
    (whole : '\x1b' ∉ stripFrom skip text) (more : Text) :
    stripFrom skip (text ++ more) = stripFrom skip text ++ stripFrom 0 more := by
  induction text generalizing skip with
  | nil =>
      obtain rfl := Nat.le_zero.mp inside
      rfl
  | cons c rest ih =>
      cases skip with
      | succ skip => exact ih (Nat.le_of_succ_le_succ inside) whole
      | zero =>
          rw [stripFrom] at whole
          rw [List.cons_append, stripFrom, stripFrom]
          cases hcovered : covered (c :: rest) with
          | zero =>
              rw [hcovered] at whole
              obtain ⟨hc, hrest⟩ := not_or.mp (mt List.mem_cons.mpr whole)
              have hne : c.toNat ≠ 0x1b := fun heq => hc (Char.toNat_inj.mp heq.symm)
              rw [covered_of_ne_escape hne]
              exact congrArg (c :: ·) (ih (Nat.zero_le _) hrest)
          | succ n =>
              rw [hcovered] at whole
              obtain ⟨happend, hle⟩ := covered_append hcovered more
              rw [← List.cons_append, happend]
              exact ih (Nat.le_of_succ_le_succ hle) whole

/-- Every ESC of a text belongs to a sequence that is recognised in the text. -/
def Whole (text : Text) : Prop := '\x1b' ∉ strip text

instance : DecidablePred Whole := fun text => inferInstanceAs (Decidable (¬ ('\x1b' ∈ strip text)))

theorem Whole.strip_append {text : Text} (whole : Whole text) (more : Text) :
    strip (text ++ more) = strip text ++ strip more := by
  unfold Whole at whole
  rw [strip_eq_stripFrom] at whole
  rw [strip_eq_stripFrom, strip_eq_stripFrom, strip_eq_stripFrom,
    stripFrom_append (Nat.zero_le _) whole]

theorem Whole.append {text more : Text} (whole : Whole text) (whole' : Whole more) :
    Whole (text ++ more) := by
  rw [Whole, whole.strip_append, List.mem_append, not_or]
  exact ⟨whole, whole'⟩

theorem whole_nil : Whole [] := List.not_mem_nil

theorem whole_of_notMem {text : Text} (h : '\x1b' ∉ text) : Whole text := by
  rwa [Whole, strip_of_notMem h]

end Escape

namespace Measure

theorem visibleLength_append_of_whole {text : Text} (whole : Escape.Whole text) (more : Text) :
    visibleLength (text ++ more) = visibleLength text + visibleLength more := by
  rw [visibleLength_eq, whole.strip_append, List.length_append, visibleLength_eq, visibleLength_eq]

/-- A line that takes more room does not take fewer rows. -/
theorem wrapRows_mono {n m : Nat} (h : n ≤ m) (w : Nat) : wrapRows n w ≤ wrapRows m w := by
  unfold wrapRows
  split
  · exact Nat.zero_le _
  · rename_i hne
    rw [if_neg (by omega)]
    exact Nat.sub_le_sub_right (Nat.div_le_div_right (by omega)) 1

end Measure

theorem allLines_lineFeed (rest : Text) : allLines ('\n' :: rest) = [] :: allLines rest := by
  rw [allLines, lines_lineFeed, allLines]

theorem allLines_cons {c : Char} {rest first : Text} {others : List Text} (hc : c ≠ '\n')
    (h : allLines rest = first :: others) : allLines (c :: rest) = (c :: first) :: others := by
  obtain ⟨hfirst, hothers⟩ := List.cons.inj h
  rw [allLines, lines_cons rest hc, hfirst, hothers]

/-- The line that a text ends in. -/
def lastLine (text : Text) : Text := (lines text).2.getLastD (lines text).1

theorem lastLine_of_allLines {text last : Text} {before : List Text}
    (h : allLines text = before ++ [last]) : lastLine text = last := by
  have hlast : lastLine text = (allLines text).getLastD [] := List.getLastD_cons.symm
  rw [hlast, h, List.getLastD_concat]

/-- What follows a text continues its last line. -/
theorem exists_allLines_append (text : Text) : ∃ before,
    allLines text = before ++ [lastLine text] ∧
      ∀ more, allLines (text ++ more) =
        before ++ (lastLine text ++ (lines more).1) :: (lines more).2 := by
  suffices h : ∃ before last, allLines text = before ++ [last] ∧
      ∀ more, allLines (text ++ more) = before ++ (last ++ (lines more).1) :: (lines more).2 by
    obtain ⟨before, last, htext, happend⟩ := h
    rw [lastLine_of_allLines htext]
    exact ⟨before, htext, happend⟩
  induction text with
  | nil => exact ⟨[], [], rfl, fun more => rfl⟩
  | cons c rest ih =>
      obtain ⟨before, last, hrest, happend⟩ := ih
      by_cases hc : c = '\n'
      · refine ⟨[] :: before, last, ?_, fun more => ?_⟩
        · rw [hc, allLines_lineFeed, hrest, List.cons_append]
        · rw [hc, List.cons_append, allLines_lineFeed, happend more, List.cons_append]
      · cases before with
        | nil => exact ⟨[], c :: last, allLines_cons hc hrest, fun more =>
            allLines_cons hc (happend more)⟩
        | cons line before => exact ⟨(c :: line) :: before, last, allLines_cons hc hrest,
            fun more => allLines_cons hc (happend more)⟩

theorem allLines_append_lineFeed (text rest : Text) :
    allLines (text ++ '\n' :: rest) = allLines text ++ allLines rest := by
  obtain ⟨before, htext, happend⟩ := exists_allLines_append text
  rw [happend, htext, lines_lineFeed, List.append_nil, List.append_assoc]
  rfl

theorem lastLine_append (text more : Text) :
    lastLine (text ++ more) = (lines more).2.getLastD (lastLine text ++ (lines more).1) := by
  obtain ⟨before, -, happend⟩ := exists_allLines_append text
  have hlast : lastLine (text ++ more) = (allLines (text ++ more)).getLastD [] :=
    List.getLastD_cons.symm
  rw [hlast, happend, List.getLastD_eq_getLast?, List.getLastD_eq_getLast?,
    List.getLast?_append_of_ne_nil _ (List.cons_ne_nil _ _), List.getLast?_cons, Option.getD_some]

theorem length_allLines (text : Text) : (allLines text).length = 1 + text.count '\n' := by
  induction text with
  | nil => rfl
  | cons c rest ih =>
      by_cases hc : c = '\n'
      · rw [hc, allLines_lineFeed, List.length_cons, ih, List.count_cons_self]
        omega
      · rw [allLines_cons hc rfl, List.count_cons_of_ne hc, ← ih]
        rfl

end Inlay.Text

namespace Inlay

open Text

theorem Displays.notMem_escape {text plain : Text} (h : Displays text plain) : '\x1b' ∉ plain := by
  induction h with
  | nil => exact List.not_mem_nil
  | glyph printable _ ih =>
      rw [List.mem_cons, not_or]
      exact ⟨(printable.ne_of_lt (by decide)).symm, ih⟩
  | lineFeed _ ih =>
      rw [List.mem_cons, not_or]
      exact ⟨by decide, ih⟩
  | styling _ _ ih => exact ih

theorem Displays.mem_lineFeed {text plain : Text} (h : Displays text plain) (hmem : '\n' ∈ text) :
    '\n' ∈ plain := by
  induction h with
  | nil => exact hmem
  | glyph printable _ ih =>
      rcases List.mem_cons.mp hmem with heq | hrest
      · exact absurd heq.symm (printable.ne_of_lt (by decide))
      · exact List.mem_cons_of_mem _ (ih hrest)
  | lineFeed _ _ => exact List.mem_cons_self
  | styling styles _ ih =>
      rcases List.mem_append.mp hmem with hsequence | hrest
      · exact absurd rfl (styles.ne_lineFeed _ hsequence)
      · exact ih hrest

theorem Displays.whole {text plain : Text} (h : Displays text plain) : Escape.Whole text := by
  rw [Escape.Whole, Escape.strip_of_displays h]
  exact h.notMem_escape

theorem Displays.whole_lines {text plain : Text} (h : Displays text plain) :
    ∀ line ∈ allLines text, Escape.Whole line := by
  have hlines {texts plains : List Text} (h : List.Forall₂ Displays texts plains) :
      ∀ line ∈ texts, Escape.Whole line := by
    induction h with
    | nil => exact List.forall_mem_nil _
    | cons hline _ ih => exact List.forall_mem_cons.mpr ⟨hline.whole, ih⟩
  exact hlines (.cons h.lines.1 h.lines.2)

/-- A text ends in a line that displays the last line of what it displays. -/
theorem Displays.lastLine {text plain : Text} (h : Displays text plain) :
    Displays (lastLine text) (lastLine plain) := by
  have hlast {texts plains : List Text} (h : List.Forall₂ Displays texts plains)
      {first first' : Text} (hfirst : Displays first first') :
      Displays (texts.getLastD first) (plains.getLastD first') := by
    induction h generalizing first first' with
    | nil => exact hfirst
    | cons hline _ ih =>
        rw [List.getLastD_cons, List.getLastD_cons]
        exact ih hline
  exact hlast h.lines.2 h.lines.1

end Inlay
