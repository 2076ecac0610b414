import Inlay.Proofs.Prompts.Underlining
import Inlay.Scene

namespace Inlay

open Text

def Text.MadeOf (q : Char → Prop) (text : Text) : Prop := ∀ c ∈ text, q c

theorem Text.madeOf_of_all {q : Char → Prop} [DecidablePred q] {text : Text}
    (h : text.all (fun c => q c) = true) : MadeOf q text := by
  intro c hc
  exact of_decide_eq_true (List.all_eq_true.mp h c hc)

/-- A character of the words that widgets bring along. -/
def Plain (c : Char) : Prop := Printable c ∨ c = '\n'

instance : DecidablePred Plain := fun c => inferInstanceAs (Decidable (Printable c ∨ c = '\n'))

/-- A class of texts that no picture leaves if all texts that the widget is given are made of the
characters of another class. -/
structure Wording (q : Char → Prop) (P : Text → Prop) : Prop where
  own : ∀ c, Plain c → q c
  given : ∀ {text}, MadeOf q text → P text
  append : ∀ {text text'}, P text → P text' → P (text ++ text')
  tint : ∀ {style : Style} {tone text}, P text → P (style.tint tone text)
  underline : ∀ {style : Style} {text}, P text → P (style.underline text)

namespace Wording

theorem any : Wording (fun _ => True) fun _ => True :=
  ⟨fun _ _ => trivial, fun _ => trivial, fun _ _ => trivial, fun _ => trivial, fun _ => trivial⟩

theorem word {q : Char → Prop} {P : Text → Prop} (h : Wording q P) {text : Text}
    (plain : text.all (fun c => Plain c) = true) : P text :=
  h.given fun c hc => h.own c (Text.madeOf_of_all plain c hc)

end Wording

theorem Text.MadeOf.append {q : Char → Prop} {text text' : Text} (h : MadeOf q text)
    (h' : MadeOf q text') : MadeOf q (text ++ text') := by
  intro c hc
  rcases List.mem_append.mp hc with hc | hc
  · exact h c hc
  · exact h' c hc

/-- A stroke that prints a text of a class or, where that is allowed, remembers the position. -/
def Stroke.Says (P : Text → Prop) (remembers : Prop) : Stroke → Prop
  | .print text | .printLine text => P text
  | .savePosition => remembers
  | _ => False

namespace Painting

variable {P : Text → Prop} {remembers : Prop} {painting painting' : Painting}

def Says (P : Text → Prop) (remembers : Prop) (painting : Painting) : Prop :=
  ∀ s ∈ painting, s.Says P remembers

theorem Says.nil : Says P remembers [] := nofun

theorem Says.cons {s : Stroke} (hs : s.Says P remembers) (h : Says P remembers painting) :
    Says P remembers (s :: painting) :=
  List.forall_mem_cons.mpr ⟨hs, h⟩

theorem Says.single {s : Stroke} (hs : s.Says P remembers) : Says P remembers [s] :=
  .cons hs .nil

theorem Says.append (h : Says P remembers painting) (h' : Says P remembers painting') :
    Says P remembers (painting ++ painting') :=
  List.forall_mem_append.mpr ⟨h, h'⟩

theorem Says.ite {c : Prop} [Decidable c] (h : c → Says P remembers painting)
    (h' : ¬ c → Says P remembers painting') :
    Says P remembers (if c then painting else painting') := by
  split
  · rename_i hc
    exact h hc
  · rename_i hc
    exact h' hc

theorem says_printLines {α : Type} {text : α → Text} {as : List α} (h : ∀ a ∈ as, P (text a)) :
    Says P remembers (as.map fun a => .printLine (text a)) := by
  intro s hs
  obtain ⟨a, ha, rfl⟩ := List.mem_map.mp hs
  exact h a ha

theorem says_flatMap {α : Type} {f : α → Painting} {as : List α}
    (h : ∀ a ∈ as, Says P remembers (f a)) : Says P remembers (as.flatMap f) := by
  intro s hs
  obtain ⟨a, ha, hs⟩ := List.mem_flatMap.mp hs
  exact h a ha s hs

end Painting

open Painting

namespace Prompt

structure Confirm.MadeOf (q : Char → Prop) (c : Confirm) : Prop where
  message : c.message.MadeOf q
  help : c.help.MadeOf q
  hint : c.hint.MadeOf q
  value : c.value.MadeOf q

structure Line.MadeOf (q : Char → Prop) (l : Line) : Prop where
  message : l.message.MadeOf q
  placeholder : l.placeholder.MadeOf q
  help : l.help.MadeOf q
  hint : l.hint.MadeOf q
  value : l.value.MadeOf q
  error : ∀ message, l.error = some message → message.MadeOf q
  objection : ∀ validate value message, l.validator = some validate →
    validate value = some message → message.MadeOf q

structure Choices.MadeOf (q : Char → Prop) (cs : Choices) : Prop where
  labels : ∀ entry ∈ cs.entries, entry.label.MadeOf q
  filter : cs.filter.MadeOf q

structure Select.MadeOf (q : Char → Prop) (s : Select) : Prop where
  message : s.message.MadeOf q
  help : s.help.MadeOf q
  list : s.list.MadeOf q

structure MultiSelect.MadeOf (q : Char → Prop) (m : MultiSelect) : Prop where
  message : m.message.MadeOf q
  help : m.help.MadeOf q
  list : m.list.MadeOf q

def MadeOf (q : Char → Prop) : Prompt → Prop
  | .confirm c => c.MadeOf q
  | .line l => l.MadeOf q
  | .select s => s.MadeOf q
  | .multiSelect m => m.MadeOf q

/-- Whether the picture of a prompt ends with the cursor where text is typed. -/
def placesCursor (p : Prompt) : Bool := !p.phase.isFinished && !p.hidesCursor

/-- A picture that prints texts of a class, and that may end by going back to a remembered place. -/
def Pictured (P : Text → Prop) (places : Bool) (painting : Painting) : Prop :=
  ∃ body, Says P (places = true) body ∧
    (painting = body ∨ painting = body ++ [.restorePosition])

theorem Pictured.whole {P : Text → Prop} {places : Bool} {painting : Painting}
    (h : Says P (places = true) painting) : Pictured P places painting :=
  ⟨painting, h, Or.inl rfl⟩

theorem Pictured.returning {P : Text → Prop} {places : Bool} {first body : Painting}
    (h : Says P (places = true) first) (h' : Says P (places = true) body) :
    Pictured P places (first ++ (body ++ [.restorePosition])) :=
  ⟨first ++ body, h.append h', Or.inr (List.append_assoc _ _ _).symm⟩

section

variable {q : Char → Prop} {P : Text → Prop} (h : Wording q P) (style : Style)

include h

theorem says_question {message : Text} (hmessage : message.MadeOf q) {remembers : Prop} :
    Says P remembers (paintQuestion style message) := by
  have hprompt : P (style.highlight "? ") := h.tint (h.word (by decide))
  have hbold : P (style.bold (message ++ ": ")) :=
    h.tint (h.append (h.given hmessage) (h.word (by decide)))
  exact .cons hprompt (.single hbold)

theorem says_help {help : Text} (hhelp : help.MadeOf q) {remembers : Prop} :
    Says P remembers (paintHelp style help) := by
  have hnil : P [] := h.word rfl
  have hwhole : P (style.hint (style.bold "  Hint:") ++ " " ++ style.hint help ++ "\n") := by
    refine h.append (h.append (h.append ?_ ?_) ?_) (h.word (by decide))
    · exact h.tint (h.tint (h.word (by decide)))
    · exact h.word (by decide)
    · exact h.tint (h.given hhelp)
  exact .ite (fun _ => .nil) fun _ => .cons hnil (.single hwhole)

theorem says_hintCall {help hint : Text} (hhint : hint.MadeOf q) {remembers : Prop} :
    Says P remembers (paintHintCall style help hint) := by
  have hcall : P (style.gray (hint ++ " ")) :=
    h.tint (h.append (h.given hhint) (h.word (by decide)))
  exact .ite (fun _ => .nil) fun _ => .single hcall

theorem says_footer {lines : List Text}
    (hlines : lines.all (fun line => line.all fun c => Plain c) = true) {remembers : Prop} :
    Says P remembers (paintFooter style lines) := by
  have hnil : P [] := h.word rfl
  have hrule : P (style.gray (List.replicate ((lines.map List.length).foldl max 0) '─')) := by
    refine h.tint (h.given fun c hc => h.own c ?_)
    rw [List.eq_of_mem_replicate hc]
    decide
  refine .cons hnil (.cons hrule (says_printLines fun line hline => ?_))
  exact h.tint (h.word (List.all_eq_true.mp hlines line hline))

theorem says_filter {filter : Text} (hfilter : filter.MadeOf q) {remembers : Prop}
    (allowed : remembers) : Says P remembers (paintFilter style filter) := by
  have hnil : P [] := h.word rfl
  have hlabel : P "  Filter: " := h.word (by decide)
  have hcue : P (style.gray "Type to filter list") := h.tint (h.word (by decide))
  have htyped : Says P remembers (if filter.isEmpty then
      [.savePosition, .print (style.gray "Type to filter list")]
      else [.print filter, .savePosition]) :=
    .ite (fun _ => .cons allowed (.single hcue)) fun _ =>
      .cons (h.given hfilter) (.single allowed)
  exact .append (.append (.cons hnil (.single hlabel)) htyped) (.cons hnil (.single hnil))

theorem noted {phase : Phase} {note : Text} (hnote : calledOffNote? phase = some note) :
    P (style.error note) := by
  cases phase with
  | cancelled => exact Option.some.inj hnote ▸ h.tint (h.word (by decide))
  | timedOut => exact Option.some.inj hnote ▸ h.tint (h.word (by decide))
  | pending | interacting | complete => cases hnote

theorem underlined {label filter : Text} (hlabel : label.MadeOf q) :
    P (Choices.underlineMatch style label filter) := by
  rcases Choices.underlineMatch_cases label filter with
    unmarked | ⟨first, found, last, hunderlines, hmatch⟩
  · rw [unmarked]
    exact h.given hlabel
  · rw [hmatch]
    rw [← hunderlines.parts] at hlabel
    have hfirst : P first := h.given fun c hc => hlabel c (by simp [hc])
    have hfound : P found := h.given fun c hc => hlabel c (by simp [hc])
    have hlast : P last := h.given fun c hc => hlabel c (by simp [hc])
    exact h.append (h.append hfirst (h.underline hfound)) hlast

theorem numbered (width n : Nat) : P (paddedDecimal width n ++ ". ") := by
  refine h.append (h.given fun c hc => h.own c ?_) (h.word (by decide))
  rcases List.mem_append.mp hc with hc | hc
  · rw [List.eq_of_mem_replicate hc]
    decide
  · obtain ⟨hle, hlt⟩ := Terminal.isParameter_decimal n c hc
    exact Or.inl ⟨by omega, by omega⟩

theorem says_rowsFrom {cs : Choices} (hcs : cs.MadeOf q) (place : Nat) (indexes : List Nat) :
    ∀ row ∈ cs.rowsFrom style place indexes, P row.label ∧ P row.number := by
  induction indexes generalizing place with
  | nil => exact nofun
  | cons index rest ih =>
      intro row hrow
      rcases List.mem_cons.mp hrow with rfl | hrow
      · constructor
        · refine underlined h style ?_
          cases hentry : cs.entries[index]? with
          | none => exact nofun
          | some entry => exact hcs.labels entry (List.mem_of_getElem? hentry)
        · dsimp only
          split
          · exact numbered h _ _
          · exact h.word rfl
      · exact ih (place + 1) row hrow

theorem says_choices {cs : Choices} (hcs : cs.MadeOf q) {paintRow : Choices.Row → Painting}
    {remembers : Prop}
    (hrow : ∀ row, P row.label → P row.number → Says P remembers (paintRow row)) :
    Says P remembers (cs.painting style paintRow) := by
  have hrows : Says P remembers ((cs.rows style).flatMap paintRow) := by
    apply says_flatMap
    intro row hmem
    obtain ⟨hlabel, hnumber⟩ := says_rowsFrom h style hcs _ _ row hmem
    exact hrow row hlabel hnumber
  refine .append (.append (.ite (fun _ => .single (h.word (by decide))) fun _ => .nil) hrows)
    (.ite (fun _ => .single ?_) fun _ => .nil)
  split
  · exact h.word (by decide)
  · exact h.word (by decide)

omit h in
theorem isFinished_of_open {phase : Phase} (hnote : calledOffNote? phase = none)
    (hcomplete : phase ≠ .complete) : phase.isFinished = false := by
  cases phase with
  | pending | interacting => rfl
  | complete => exact absurd rfl hcomplete
  | cancelled | timedOut => cases hnote

theorem pictured_confirm {c : Confirm} (hc : c.MadeOf q) :
    Pictured P (Prompt.confirm c).placesCursor (c.painting style) := by
  have hquestion {remembers : Prop} : Says P remembers (paintQuestion style c.message) :=
    says_question h style hc.message
  unfold Confirm.painting
  split
  · rename_i note hnote
    exact .whole (hquestion.append (.single (noted h style hnote)))
  rename_i hnote
  split
  · refine .whole (hquestion.append (.single (h.tint ?_)))
    split
    · exact h.word (by decide)
    · exact h.word (by decide)
  rename_i hcomplete
  have hplaces : (Prompt.confirm c).placesCursor = true := by
    rw [placesCursor, phase, isFinished_of_open hnote hcomplete]
    rfl
  have hcue : P (style.gray (Confirm.cue c.default ++ " ")) := by
    refine h.tint (h.append ?_ (h.word (by decide)))
    cases c.default with
    | none => exact h.word (by decide)
    | some yes => cases yes <;> exact h.word (by decide)
  have hnil : P [] := h.word rfl
  rw [hplaces]
  refine .returning hquestion (.append (.append (.append (says_hintCall h style hc.hint) ?_) ?_) ?_)
  · exact .cons hcue (.cons (h.given hc.value) (.cons rfl (.single hnil)))
  · exact .ite (fun _ => .single (h.tint (h.word (by decide)))) fun _ => .nil
  · exact .ite (fun _ => says_help h style hc.help) fun _ => .nil

theorem pictured_line {l : Line} (hl : l.MadeOf q) :
    Pictured P (Prompt.line l).placesCursor (l.painting style) := by
  have hquestion {remembers : Prop} : Says P remembers (paintQuestion style l.message) :=
    says_question h style hl.message
  have hshown : P l.shown := by
    unfold Line.shown
    split
    · refine h.given fun c hc => h.own c ?_
      rw [List.eq_of_mem_replicate hc]
      decide
    · exact h.given hl.value
  unfold Line.painting
  split
  · rename_i note hnote
    exact .whole (hquestion.append (.single (noted h style hnote)))
  rename_i hnote
  split
  · exact .whole (hquestion.append (.single (h.tint hshown)))
  rename_i hcomplete
  have hplaces : (Prompt.line l).placesCursor = true := by
    rw [placesCursor, phase, isFinished_of_open hnote hcomplete]
    rfl
  have hnil : P [] := h.word rfl
  rw [hplaces]
  refine .returning hquestion (.append (.append (.append (.append
    (says_hintCall h style hl.hint) ?_) (.single hnil)) ?_) ?_)
  · exact .ite (fun _ => .cons rfl (.single (h.tint (h.given hl.placeholder))))
      fun _ => .cons hshown (.single rfl)
  · split
    · rename_i message hmessage
      exact .ite (fun _ => .nil) fun _ =>
        .single (h.tint (h.append (h.word (by decide)) (h.given (hl.error _ hmessage))))
    · exact .nil
  · exact .ite (fun _ => says_help h style hl.help) fun _ => .nil

theorem says_selectAnswer {s : Select} (hs : s.MadeOf q) {remembers : Prop} :
    Says P remembers (s.paintAnswer style) := by
  unfold Select.paintAnswer
  split
  · rename_i note hnote
    exact .single (noted h style hnote)
  split
  · rename_i choice hchoice
    obtain ⟨index, -, hindex⟩ := Option.bind_eq_some_iff.mp hchoice
    exact .single (h.tint (h.given (hs.list.labels _ (List.mem_of_getElem? hindex))))
  · exact .nil

theorem says_selectRow (row : Choices.Row) (hlabel : P row.label) (hnumber : P row.number)
    {remembers : Prop} : Says P remembers (Select.paintRow style row) := by
  have hpointer : P ("  " ++ style.highlight ">" ++ " ") :=
    h.append (h.append (h.word (by decide)) (h.tint (h.word (by decide)))) (h.word (by decide))
  refine .ite (fun _ => .single ?_) fun _ => .single ?_
  · exact h.append (h.append (h.append hpointer (h.tint hnumber)) (h.tint hlabel))
      (h.word (by decide))
  · exact h.append (h.append (h.append (h.word (by decide)) hnumber) hlabel) (h.word (by decide))

theorem pictured_select {s : Select} (hs : s.MadeOf q) :
    Pictured P (Prompt.select s).placesCursor (s.painting style) := by
  have hnil : P [] := h.word rfl
  have hfirst {remembers : Prop} : Says P remembers
      (paintQuestion style s.message ++ s.paintAnswer style ++ [.printLine []]) :=
    .append (.append (says_question h style hs.message) (says_selectAnswer h style hs))
      (.single hnil)
  unfold Select.painting
  split
  · rw [List.append_nil]
    exact .whole hfirst
  rename_i hopen
  refine .returning hfirst (.append (.append (.append (.append ?_ (says_choices h style hs.list
    fun row hlabel hnumber => says_selectRow h style row hlabel hnumber)) ?_) ?_)
    (says_footer h style (by decide)))
  · refine .ite (fun hfiltering => says_filter h style hs.list.filter ?_) fun _ => .nil
    simp [placesCursor, phase, hidesCursor, hopen, hfiltering]
  · exact .ite (fun _ => .single (h.tint (h.word (by decide)))) fun _ => .nil
  · exact .ite (fun _ => says_help h style hs.help) fun _ => .nil

theorem joined {labels : List Text} (hlabels : ∀ label ∈ labels, P label) :
    P (join ", " labels) := by
  fun_induction join ", " labels with
  | case1 => exact h.word rfl
  | case2 label => exact hlabels label (by simp)
  | case3 label rest hrest ih =>
      refine h.append (h.append (hlabels label (by simp)) (h.word (by decide))) (ih ?_)
      intro other hother
      exact hlabels other (List.mem_cons_of_mem _ hother)

theorem says_multiSelectAnswer {m : MultiSelect} (hm : m.MadeOf q) {remembers : Prop} :
    Says P remembers (m.paintAnswer style) := by
  unfold MultiSelect.paintAnswer
  split
  · rename_i note hnote
    exact .single (noted h style hnote)
  refine .single (h.tint (joined h fun label hlabel => ?_))
  obtain ⟨choice, hchoice, rfl⟩ := List.mem_map.mp hlabel
  obtain ⟨pair, hpair, rfl⟩ := List.mem_map.mp hchoice
  exact h.given (hm.list.labels _ (List.of_mem_zip (List.mem_filter.mp hpair).1).1)

theorem says_multiSelectRow (m : MultiSelect) (row : Choices.Row) (hlabel : P row.label)
    (hnumber : P row.number) {remembers : Prop} : Says P remembers (m.paintRow style row) := by
  have hmark : P (if m.checks[row.index]? = some true then style.success "✔" else " ") := by
    split
    · exact h.tint (h.word (by decide))
    · exact h.word (by decide)
  have hpointer : P ("  " ++ style.highlight ">" ++ " " ++ style.highlight "[") :=
    h.append (h.append (h.append (h.word (by decide)) (h.tint (h.word (by decide))))
      (h.word (by decide))) (h.tint (h.word (by decide)))
  refine .ite (fun _ => .single ?_) fun _ => .single ?_
  · exact h.append (h.append (h.append (h.append (h.append (h.append hpointer (h.tint hmark))
      (h.tint (h.word (by decide)))) (h.word (by decide))) (h.tint hnumber)) (h.tint hlabel))
      (h.word (by decide))
  · exact h.append (h.append (h.append (h.append (h.append (h.word (by decide)) hmark)
      (h.word (by decide))) hnumber) hlabel) (h.word (by decide))

theorem objected {m : MultiSelect} {message : Text} (hmessage : m.objection? = some message) :
    P message := by
  unfold MultiSelect.objection? at hmessage
  split at hmessage
  · exact Option.some.inj hmessage ▸ h.word (by decide)
  split at hmessage
  · exact Option.some.inj hmessage ▸ h.word (by decide)
  · cases hmessage

theorem pictured_multiSelect {m : MultiSelect} (hm : m.MadeOf q) :
    Pictured P (Prompt.multiSelect m).placesCursor (m.painting style) := by
  have hnil : P [] := h.word rfl
  have hfirst {remembers : Prop} : Says P remembers
      (paintQuestion style m.message ++ m.paintAnswer style ++ [.printLine []]) :=
    .append (.append (says_question h style hm.message) (says_multiSelectAnswer h style hm))
      (.single hnil)
  unfold MultiSelect.painting
  split
  · rw [List.append_nil]
    exact .whole hfirst
  rename_i hopen
  refine .returning hfirst (.append (.append (.append (.append ?_ (says_choices h style hm.list
    fun row hlabel hnumber => says_multiSelectRow h style m row hlabel hnumber)) ?_) ?_)
    (says_footer h style (by decide)))
  · refine .ite (fun hfiltering => says_filter h style hm.list.filter ?_) fun _ => .nil
    simp [placesCursor, phase, hidesCursor, hopen, hfiltering]
  · split
    · rename_i message hmessage
      exact .ite (fun _ => .nil) fun _ => .cons hnil
        (.single (h.tint (h.append (h.word (by decide)) (objected h hmessage))))
    · exact .nil
  · exact .ite (fun _ => says_help h style hm.help) fun _ => .nil

theorem pictured (p : Prompt) (hp : p.MadeOf q) :
    Pictured P p.placesCursor (p.painting style) := by
  cases p with
  | confirm c => exact pictured_confirm h style hp
  | line l => exact pictured_line h style hp
  | select s => exact pictured_select h style hp
  | multiSelect m => exact pictured_multiSelect h style hp

end

theorem madeOf_any (p : Prompt) : p.MadeOf fun _ => True := by
  cases p with
  | confirm c =>
      exact ⟨fun _ _ => trivial, fun _ _ => trivial, fun _ _ => trivial, fun _ _ => trivial⟩
  | line l =>
      exact ⟨fun _ _ => trivial, fun _ _ => trivial, fun _ _ => trivial, fun _ _ => trivial,
        fun _ _ => trivial, fun _ _ _ _ => trivial, fun _ _ _ _ _ _ _ => trivial⟩
  | select s =>
      exact ⟨fun _ _ => trivial, fun _ _ => trivial, ⟨fun _ _ _ _ => trivial, fun _ _ => trivial⟩⟩
  | multiSelect m =>
      exact ⟨fun _ _ => trivial, fun _ _ => trivial, ⟨fun _ _ _ _ => trivial, fun _ _ => trivial⟩⟩

end Prompt

/-- The picture of a widget, whatever it is given. -/
theorem Widget.pictured_any (widget : Widget) (now : Instant) (style : Style) :
    ∃ places, Prompt.Pictured (fun _ => True) places (widget.painting now style) := by
  cases widget with
  | dialog d => exact ⟨_, d.prompt.pictured .any style d.prompt.madeOf_any⟩
  | spinner s => exact ⟨false, .whole (.single trivial)⟩
  | tasks l =>
      have hrows : Says (fun _ => True) (false = true)
          (l.ordered.map fun r => .printLine (r.row l.labels style now)) :=
        says_printLines fun _ _ => trivial
      have hlast : Says (fun _ => True) (false = true) [.printLine []] := .single trivial
      exact ⟨false, .whole (.cons trivial (hrows.append hlast))⟩

end Inlay
