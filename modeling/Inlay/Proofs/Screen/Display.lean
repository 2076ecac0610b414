import Inlay.Proofs.Screen.Terminal
import Inlay.Text.Measure
import Mathlib.Data.List.Forall2

namespace Inlay

/-- A sequence that selects a rendition, or opens or closes a link. -/
inductive Styling : Text → Prop
  | rendition (parameters : Text) (h : ∀ c ∈ parameters, Terminal.IsParameter c) :
      Styling ("\x1b[" ++ parameters ++ "m")
  | link (body terminator : Text) (h : ∀ c ∈ body, Printable c)
      (ends : terminator = ['\x07'] ∨ terminator = ['\x1b', '\\']) :
      Styling ("\x1b]8;" ++ body ++ terminator)

/-- A text and the plain text that it displays. -/
inductive Displays : Text → Text → Prop
  | nil : Displays [] []
  | glyph {c : Char} {text plain : Text} (h : Printable c) (rest : Displays text plain) :
      Displays (c :: text) (c :: plain)
  | lineFeed {text plain : Text} (rest : Displays text plain) :
      Displays ('\n' :: text) ('\n' :: plain)
  | styling {sequence text plain : Text} (h : Styling sequence) (rest : Displays text plain) :
      Displays (sequence ++ text) plain

def Displayable (text : Text) : Prop := ∃ plain, Displays text plain

theorem Displays.append {text text' plain plain' : Text} (h : Displays text plain)
    (h' : Displays text' plain') : Displays (text ++ text') (plain ++ plain') := by
  induction h with
  | nil => exact h'
  | glyph hc _ ih => exact .glyph hc ih
  | lineFeed _ ih => exact .lineFeed ih
  | styling hs _ ih =>
      rw [List.append_assoc]
      exact .styling hs ih

theorem Displays.of_plain {text : Text} (h : text.all (fun c => Printable c ∨ c = '\n')) :
    Displays text text := by
  induction text with
  | nil => exact .nil
  | cons c rest ih =>
      rw [List.all_cons, Bool.and_eq_true, decide_eq_true_eq] at h
      obtain ⟨hc | rfl, hrest⟩ := h
      · exact .glyph hc (ih hrest)
      · exact .lineFeed (ih hrest)

theorem Printable.ne_of_lt {c c' : Char} (h : Printable c) (h' : c'.toNat < 0x20) : c ≠ c' := by
  rintro rfl
  exact Nat.not_lt.mpr h.1 h'

namespace Text.Escape

theorem covered_of_ne_escape {c : Char} (h : c.toNat ≠ 0x1b) (rest : Text) :
    covered (c :: rest) = 0 := by
  cases rest with
  | nil => rfl
  | cons c' rest =>
      rw [covered, sequence?, if_neg h]

theorem finalLength?_parameters {parameters : Text}
    (h : ∀ c ∈ parameters, Terminal.IsParameter c) {final : Char}
    (hfinal : 0x40 ≤ final.toNat ∧ final.toNat ≤ 0x7e) (rest : Text) :
    finalLength? Char.toNat (parameters ++ final :: rest) = some (parameters.length + 1) := by
  induction parameters with
  | nil => rw [List.nil_append, finalLength?, if_pos hfinal, List.length_nil]
  | cons c parameters ih =>
      rw [List.forall_mem_cons] at h
      obtain ⟨hc, hparameters⟩ := h
      have hnot : ¬ (0x40 ≤ c.toNat ∧ c.toNat ≤ 0x7e) := by
        rintro ⟨hle, -⟩
        exact Nat.not_lt.mpr hle hc.2
      rw [List.cons_append, finalLength?, if_neg hnot, ih hparameters]
      rfl

theorem terminatedLength?_body {body : Text} (h : ∀ c ∈ body, c ≠ '\x07' ∧ c ≠ '\x1b')
    {rest : Text} {n : Nat} (hrest : terminatedLength? Char.toNat rest = some n) :
    terminatedLength? Char.toNat (body ++ rest) = some (body.length + n) := by
  induction body with
  | nil => rw [List.nil_append, hrest, List.length_nil, Nat.zero_add]
  | cons c body ih =>
      rw [List.forall_mem_cons] at h
      obtain ⟨hc, hbody⟩ := h
      have hbell : c.toNat ≠ 0x07 := fun heq => hc.1 (Char.toNat_inj.mp heq)
      have hescape : c.toNat ≠ 0x1b := fun heq => hc.2 (Char.toNat_inj.mp heq)
      rw [List.cons_append, terminatedLength?, if_neg hbell, if_neg fun h => hescape h.1,
        ih hbody, Option.map_some, List.length_cons]
      congr 1
      omega

/-- A link goes on to its end, whatever it leads to. -/
theorem covered_link {body terminator : Text} (h : ∀ c ∈ body, c ≠ '\x07' ∧ c ≠ '\x1b')
    (ends : terminator = ['\x07'] ∨ terminator = ['\x1b', '\\']) (rest : Text) :
    covered ("\x1b]8;" ++ body ++ terminator ++ rest) =
      ("\x1b]8;" ++ body ++ terminator).length := by
  have hend : terminatedLength? Char.toNat (terminator ++ rest) = some terminator.length := by
    rcases ends with rfl | rfl
    · rfl
    · rfl
  have hbody : ∀ c ∈ '8' :: ';' :: body, c ≠ '\x07' ∧ c ≠ '\x1b' := by
    rw [List.forall_mem_cons, List.forall_mem_cons]
    exact ⟨by decide, by decide, h⟩
  have final := terminatedLength?_body hbody hend
  have recognised : sequence? Char.toNat ("\x1b]8;" ++ body ++ terminator ++ rest) =
      some ⟨body.length + 2 + terminator.length + 2, .osc⟩ := by
    rw [List.append_assoc, List.append_assoc]
    change ((terminatedLength? Char.toNat
      ('8' :: ';' :: body ++ (terminator ++ rest))).bind fun n =>
        some (⟨n + 2, .osc⟩ : Sequence)) = _
    rw [final]
    rfl
  rw [covered, recognised]
  simp
  omega

/-- A whole styling sequence is recognised as far as it goes, whatever follows. -/
theorem covered_styling {sequence : Text} (h : Styling sequence) (rest : Text) :
    covered (sequence ++ rest) = sequence.length := by
  cases h with
  | rendition parameters h =>
      have letter : 0x40 ≤ ('m').toNat ∧ ('m').toNat ≤ 0x7e := by decide
      have final := finalLength?_parameters h letter rest
      have recognised : sequence? Char.toNat ("\x1b[" ++ parameters ++ "m" ++ rest) =
          some ⟨parameters.length + 1 + 2, .csi⟩ := by
        rw [List.append_assoc, List.append_assoc]
        change ((finalLength? Char.toNat (parameters ++ 'm' :: rest)).bind fun n =>
          some (⟨n + 2, .csi⟩ : Sequence)) = _
        rw [final]
        rfl
      rw [covered, recognised]
      simp
  | link body terminator h ends =>
      refine covered_link (fun c hc => ?_) ends rest
      exact ⟨(h c hc).ne_of_lt (by decide), (h c hc).ne_of_lt (by decide)⟩

theorem stripFrom_length (skipped rest : Text) :
    stripFrom skipped.length (skipped ++ rest) = stripFrom 0 rest := by
  induction skipped with
  | nil => rfl
  | cons c skipped ih => exact ih

theorem stripFrom_of_ne_escape {c : Char} (h : c.toNat ≠ 0x1b) (rest : Text) :
    stripFrom 0 (c :: rest) = c :: stripFrom 0 rest := by
  rw [stripFrom, covered_of_ne_escape h]

theorem stripFrom_of_covered {sequence rest : Text}
    (h : covered (sequence ++ rest) = sequence.length) :
    stripFrom 0 (sequence ++ rest) = stripFrom 0 rest := by
  cases sequence with
  | nil => rfl
  | cons c sequence =>
      rw [List.cons_append] at h ⊢
      rw [stripFrom, h, List.length_cons]
      exact stripFrom_length sequence rest

theorem stripFrom_styling {sequence : Text} (h : Styling sequence) (rest : Text) :
    stripFrom 0 (sequence ++ rest) = stripFrom 0 rest :=
  stripFrom_of_covered (covered_styling h rest)

theorem stripFrom_of_notMem {text : Text} (h : '\x1b' ∉ text) : stripFrom 0 text = text := by
  induction text with
  | nil => rfl
  | cons c rest ih =>
      rw [List.mem_cons, not_or] at h
      have hne : c.toNat ≠ 0x1b := by
        intro heq
        exact h.1 (Char.toNat_inj.mp heq.symm)
      rw [stripFrom_of_ne_escape hne, ih h.2]

theorem strip_eq_stripFrom (text : Text) : strip text = stripFrom 0 text := by
  rw [strip]
  split
  · rfl
  · rename_i hcontains
    rw [List.contains_iff_mem] at hcontains
    exact (stripFrom_of_notMem hcontains).symm

theorem strip_of_notMem {text : Text} (h : '\x1b' ∉ text) : strip text = text := by
  rw [strip_eq_stripFrom, stripFrom_of_notMem h]

theorem strip_of_displays {text plain : Text} (h : Displays text plain) : strip text = plain := by
  rw [strip_eq_stripFrom]
  induction h with
  | nil => rfl
  | @glyph c text plain hc rest ih =>
      have hne : c.toNat ≠ 0x1b := by
        have := hc.1
        omega
      rw [stripFrom_of_ne_escape hne, ih]
  | lineFeed rest ih => rw [stripFrom_of_ne_escape (by decide), ih]
  | styling h rest ih => rw [stripFrom_styling h, ih]

end Text.Escape

namespace Text.Measure

open Text.Escape

theorem visibleFrom_eq (skip : Nat) (text : Text) :
    visibleFrom skip text = (stripFrom skip text).length := by
  induction text generalizing skip with
  | nil => rw [visibleFrom, stripFrom, List.length_nil]
  | cons c rest ih =>
      cases skip with
      | succ skip => exact ih skip
      | zero =>
          cases hcovered : covered (c :: rest) with
          | zero =>
              rw [visibleFrom, stripFrom, hcovered]
              exact congrArg (· + 1) (ih 0)
          | succ n =>
              rw [visibleFrom, stripFrom, hcovered]
              exact ih n

/-- A text takes as much room as there are characters left without its sequences. -/
theorem visibleLength_eq (text : Text) : visibleLength text = (strip text).length := by
  rw [visibleLength, visibleFrom_eq, strip_eq_stripFrom]

end Text.Measure

theorem Text.lines_append {first : Text} (h : ∀ c ∈ first, c ≠ '\n') (rest : Text) :
    lines (first ++ rest) = (first ++ (lines rest).1, (lines rest).2) := by
  induction first with
  | nil => rfl
  | cons c first ih =>
      rw [List.forall_mem_cons] at h
      rw [List.cons_append, lines_cons _ h.1, ih h.2]
      rfl

theorem Styling.ne_lineFeed {sequence : Text} (h : Styling sequence) :
    ∀ c ∈ sequence, c ≠ '\n' := by
  have opener : '\n' ∉ ("\x1b[" : Text) := by decide
  have linkOpener : '\n' ∉ ("\x1b]8;" : Text) := by decide
  have escapeTerminator : '\n' ∉ ['\x1b', '\\'] := by decide
  cases h with
  | rendition parameters h =>
      intro c hc
      rcases List.mem_append.mp hc with hc | hc
      · rcases List.mem_append.mp hc with hc | hc
        · rintro rfl
          exact opener hc
        · rintro rfl
          exact absurd (h _ hc).1 (by decide)
      · rw [List.mem_singleton.mp hc]
        decide
  | link body terminator h ends =>
      intro c hc
      rcases List.mem_append.mp hc with hc | hc
      · rcases List.mem_append.mp hc with hc | hc
        · rintro rfl
          exact linkOpener hc
        · exact (h c hc).ne_of_lt (by decide)
      · rcases ends with rfl | rfl
        · rw [List.mem_singleton.mp hc]
          decide
        · rintro rfl
          exact escapeTerminator hc

/-- The lines of a text display the lines of what it displays. -/
theorem Displays.lines {text plain : Text} (h : Displays text plain) :
    Displays (Text.lines text).1 (Text.lines plain).1 ∧
      List.Forall₂ Displays (Text.lines text).2 (Text.lines plain).2 := by
  induction h with
  | nil => exact ⟨.nil, .nil⟩
  | @glyph c text plain hc rest ih =>
      have hne : c ≠ '\n' := hc.ne_of_lt (by decide)
      rw [Text.lines_cons text hne, Text.lines_cons plain hne]
      exact ⟨.glyph hc ih.1, ih.2⟩
  | @lineFeed text plain rest ih =>
      rw [Text.lines_lineFeed, Text.lines_lineFeed]
      exact ⟨.nil, .cons ih.1 ih.2⟩
  | @styling sequence text plain hs rest ih =>
      rw [Text.lines_append hs.ne_lineFeed]
      exact ⟨.styling hs ih.1, ih.2⟩

namespace Terminal

variable {t : Terminal}

theorem feed_of_printable (ground : t.mode = .ground) {c : Char} (h : Printable c) :
    t.feed c = t.put c := by
  rw [feed, ground]
  dsimp only
  rw [if_neg (h.ne_of_lt (by decide)), if_neg (h.ne_of_lt (by decide)),
    if_neg (h.ne_of_lt (by decide)), if_pos h]

theorem feed_lineFeed (ground : t.mode = .ground) :
    t.feed '\n' = { t with row := t.row + 1, col := 0 } := by
  rw [feed, ground]
  rfl

theorem mode_put (t : Terminal) (c : Char) : (t.put c).mode = t.mode := by
  unfold put
  split
  · rfl
  · rfl

theorem run_link {body : Text} (h : ∀ c ∈ body, Printable c) (string : t.mode = .string) :
    t.run body = t := by
  induction body with
  | nil => rfl
  | cons c rest ih =>
      rw [List.forall_mem_cons] at h
      have hfeed : t.feed c = t := by
        rw [feed, string]
        dsimp only
        rw [if_neg (h.1.ne_of_lt (by decide)), if_neg (h.1.ne_of_lt (by decide))]
      rw [run_cons, hfeed, ih h.2]

/-- Styling sequences have no effect. -/
theorem run_styling (ground : t.mode = .ground) {sequence : Text} (h : Styling sequence) :
    t.run sequence = t := by
  obtain ⟨width, cells, row, col, mode⟩ := t
  change mode = .ground at ground
  subst ground
  cases h with
  | rendition parameters h =>
      have letter : 0x40 ≤ ('m').toNat ∧ ('m').toNat ≤ 0x7e := by decide
      exact run_control rfl h letter
  | link body terminator h ends =>
      have opened : run ⟨width, cells, row, col, .ground⟩ "\x1b]8;" =
          ⟨width, cells, row, col, .string⟩ := rfl
      rw [run_append, run_append, opened, run_link h rfl]
      rcases ends with rfl | rfl
      · rfl
      · rfl

end Terminal

end Inlay
