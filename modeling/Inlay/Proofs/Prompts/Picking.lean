import Inlay.Proofs.Prompts.Matching
import Inlay.Proofs.Prompts.Submitting

namespace Inlay

open Text Keyboard

namespace Prompt

variable {p : Prompt} {keys : List Key} {index : Nat}

namespace Select

variable {s : Select} {entries : List Choice} {numbers filtering : Bool} {event event' : KeyEvent}

/-- A list in the middle of an asking, as the last event has left it. -/
structure Stands (entries : List Choice) (numbers filtering : Bool) (event : KeyEvent)
    (s : Select) : Prop where
  filters : s.filtering = filtering
  lists : s.list.Lists entries numbers (if filtering then event.value else [])
  helps : s.showHelp = event.hint
  pictured : 1 ≤ s.list.displayCount

theorem stands_ofChoices (message help : Text) (filtering : Bool) (entries : List Choice)
    (displayCount : Nat) (numbers : Bool) (index : Option Nat) :
    Stands entries numbers filtering {}
      { ofChoices message (.ofEntries entries displayCount numbers) index with
        help := help, filtering := filtering } := by
  have lists : (Choices.ofEntries entries displayCount numbers).Lists entries numbers
      (if filtering then [] else []) :=
    (ite_self (c := (filtering = true)) ([] : Text)).symm ▸ Choices.lists_ofEntries _ _ _
  unfold ofChoices
  dsimp only
  generalize index.filter _ = selected
  cases selected with
  | none => exact ⟨rfl, lists, rfl, Nat.le_max_right displayCount 1⟩
  | some index => exact ⟨rfl, lists.highlight index, rfl, Nat.le_max_right displayCount 1⟩

theorem Stands.withPhase (h : s.Stands entries numbers filtering event) (phase : Phase) :
    Stands entries numbers filtering event { s with phase := phase } :=
  ⟨h.filters, h.lists, h.helps, h.pictured⟩

theorem Stands.fresh (h : s.Stands entries numbers filtering {}) : (select s).Fresh := by
  refine ⟨rfl, ?_, fun _ => ?_⟩
  · rintro _ ⟨⟩
    exact h.pictured
  · change (if s.filtering then s.list.filter else []) = []
    rw [h.lists.filter_eq_nil, ite_self]

theorem Stands.press (h : s.Stands entries numbers filtering event)
    (calm : event'.isCalm = true) : (s.press event').2.Stands entries numbers filtering event' := by
  refine ⟨(s.filtering_press event').trans h.filters, ?_,
    showsHelp_press calm (.select s), (displayCount_press calm s).symm ▸ h.pictured⟩
  rw [list_press calm, h.filters]
  exact (h.lists.narrowed event'.value).move event'.key

/-- Enter does nothing to a list in which no row is highlighted. -/
theorem Stands.press_unhighlighted (h : s.Stands entries numbers filtering event)
    (unhighlighted : s.list.highlighted? = none) (calm : event'.isCalm = true)
    (enter : event'.key = some .enter) (value : event'.value = event.value)
    (hint : event'.hint = event.hint) : s.press event' = (true, s) := by
  have hlist : narrowed s.filtering s.list event'.value = s.list := by
    refine narrowed_of_kept fun filters => ?_
    rw [h.lists.filter, ← h.filters, filters, value]
    rfl
  have moved : move (narrowed s.filtering s.list event'.value) event'.key = s.list := by
    rw [hlist, enter]
    rfl
  rw [press_of_calm calm]
  dsimp only
  rw [moved, unhighlighted, if_neg (fun submits => Bool.false_ne_true submits.2), hint, ← h.helps]
  rfl

theorem stands_after (h : s.Stands entries numbers filtering {}) (keys : List Key) :
    ∃ s', (Prompt.select s).after keys = .select s' ∧
      s'.Stands entries numbers filtering ((Prompt.select s).eventAfter keys) := by
  induction keys using List.reverseRecOn with
  | nil => exact ⟨s, rfl, h⟩
  | append_singleton keys key ih =>
      obtain ⟨s', after, stands⟩ := ih
      rw [after_concat, after]
      exact ⟨_, rfl, stands.press (isCalm_eventAfter _ _)⟩

/-- The picture of an open list marks one row with an arrow, the row of an entry. -/
def PointsAt (index : Nat) (s : Select) : Prop :=
  ∀ style, ∃ above row below, s.list.Marks style index above row below ∧
    above.flatMap (paintRow style) ++
      printWhole ("  " ++ style.highlight ">" ++ " " ++ style.highlight row.number ++
        style.highlight row.label) :: below.flatMap (paintRow style) <:+: s.painting style

theorem rows_infix_painting (opened : s.phase = .interacting) (style : Style) :
    (s.list.rows style).flatMap (paintRow style) <:+: s.painting style := by
  have listed : (s.list.rows style).flatMap (paintRow style) <:+:
      s.list.painting style (paintRow style) := ⟨_, _, rfl⟩
  refine listed.trans ?_
  rw [painting, opened, if_neg (by decide), paintOpen]
  refine List.IsInfix.trans ?_ (List.suffix_append _ _).isInfix
  refine ⟨if s.filtering then paintFilter style s.list.filter else [], ?_⟩
  simp only [List.append_assoc]
  exact ⟨_, rfl⟩

theorem pointsAt (opened : s.phase = .interacting) (pictured : 1 ≤ s.list.displayCount)
    (highlighted : s.list.highlighted? = some index) : s.PointsAt index := by
  intro style
  obtain ⟨above, row, below, marks⟩ := Choices.exists_marks pictured highlighted style
  have shown := rows_infix_painting opened style
  have hrow : paintRow style row = [printWhole ("  " ++ style.highlight ">" ++ " " ++
      style.highlight row.number ++ style.highlight row.label)] := if_pos marks.marked
  rw [marks.rows, List.flatMap_append, List.flatMap_cons, hrow] at shown
  exact ⟨above, row, below, marks, shown⟩

end Select

/-- What Enter after some keys gives, if a row is highlighted then. -/
def Picks (p : Prompt) (keys : List Key) (answer : Answer) : Prop :=
  ∃ index, (p.after keys).highlighted? = some index ∧ answer = .index index

theorem not_picks_iff : (∀ answer, ¬ p.Picks keys answer) ↔ (p.after keys).highlighted? = none := by
  rw [Option.eq_none_iff_forall_ne_some]
  constructor
  · exact fun unpicked index highlighted => unpicked _ ⟨index, highlighted, rfl⟩
  · rintro unhighlighted _ ⟨index, highlighted, rfl⟩
    exact unhighlighted index highlighted

namespace Select

variable {s : Select} {entries : List Choice} {numbers filtering : Bool}
  (h : s.Stands entries numbers filtering {})
include h

/-- What an open list offers is the entry that is highlighted. -/
theorem gives_of_stands : (select s).Gives (select s).Picks := by
  intro keys answer
  obtain ⟨s', after, stands⟩ := stands_after h keys
  rw [Picks, after]
  change s'.list.pointedAt?.map Answer.index = some answer ↔
    ∃ index, s'.list.highlighted? = some index ∧ answer = .index index
  rw [Choices.pointedAt?_eq stands.pictured, Option.map_eq_some_iff]
  simp only [eq_comm]

/-- Enter without a highlighted row changes nothing. -/
theorem press_enter_unhighlighted
    (unhighlighted : ((select s).after keys).highlighted? = none) :
    (((select s).after keys).press ((select s).eventAfter (keys ++ [.enter]))).2 =
      (select s).after keys := by
  obtain ⟨s', after, stands⟩ := stands_after h keys
  rw [after] at unhighlighted ⊢
  have calm := (select s).isCalm_eventAfter (keys ++ [.enter])
  rw [eventAfter_concat] at calm ⊢
  have unchanged := stands.press_unhighlighted unhighlighted calm rfl rfl rfl
  rw [Prompt.press, unchanged]
  rfl

end Select

end Prompt

namespace Scene

variable {w : Nat} {c : CanvasRef} {s : Scene} {d : Dialog}

/-- A prompt that an event leaves as it is leaves nothing to do but to paint it again. -/
theorem follow_of_unchanged (hd : s.dialog? w = some d) (c : CanvasRef) {event : KeyEvent}
    (unchanged : (d.prompt.press event).2 = d.prompt) :
    (promptListener w c event s).2 = (s.update c).2 := by
  have same : (s.modifyDialog w fun d' => { d' with prompt := (d.prompt.press event).2 }) = s := by
    obtain ⟨bound, hwidget⟩ := Array.getElem?_eq_some_iff.mp (widget_of_dialog? hd)
    have kept : s.widgets.setIfInBounds w (.dialog d) = s.widgets := by
      rw [← hwidget, Array.setIfInBounds, dif_pos bound, Array.set_getElem_self]
    rw [modifyDialog, hd, unchanged]
    change { s with widgets := s.widgets.setIfInBounds w (.dialog d) } = s
    rw [kept]
  rw [promptListener, hd]
  dsimp only
  rw [same]

/-- Asked afresh, a list gives the index of the entry that is highlighted at the first Enter at
which one is. The entry is one that matches the text in force, and while the list reads on its
picture marks the row of that entry and no other. An Enter without a highlighted row changes
nothing, and the canvas is painted again. -/
theorem ask_select (h : s.dialog? w = some d) {message help : Text} {filtering : Bool}
    {entries : List Prompt.Choice} {displayCount : Nat} {numbers : Bool} {initial : Option Nat}
    (hprompt : d.prompt = .select
      { Prompt.Select.ofChoices message (.ofEntries entries displayCount numbers) initial with
        help := help, filtering := filtering }) :
    s.GivesFirst w d d.asked.Picks ∧
    ∀ keys, Prompt.Unanswered d.asked.Picks keys → s.Attends w d keys ∧
      (∀ index, (d.asked.after keys).highlighted? = some index →
        (∃ entry, entries[index]? = some entry ∧ Prompt.Choices.isMatch numbers
          (if filtering then d.asked.edited keys else []) index entry = true) ∧
        ∃ select, d.asked.after keys = .select select ∧ select.PointsAt index) ∧
      ((d.asked.after keys).highlighted? = none →
        d.asked.goesOn keys .enter = true ∧
        d.asked.after (keys ++ [.enter]) = d.asked.after keys ∧
        s.attended w d (keys ++ [.enter]) =
          ((s.attended w d keys).update (s.interaction w d).canvas).2) := by
  -- What is asked differs from the prompt in its phase alone.
  obtain ⟨first, hasked, stands, opened⟩ : ∃ first : Prompt.Select, d.asked = .select first ∧
      first.Stands entries numbers filtering {} ∧ first.phase = .interacting := by
    rw [Dialog.asked, hprompt]
    exact ⟨_, rfl, (Prompt.Select.stands_ofChoices ..).withPhase _, rfl⟩
  have fresh : d.prompt.Fresh := by
    rw [hprompt]
    exact (Prompt.Select.stands_ofChoices ..).fresh
  have gives : d.asked.Gives d.asked.Picks := by
    rw [hasked]
    exact Prompt.Select.gives_of_stands stands
  have asked := Dialog.fresh_asked fresh
  refine ⟨givesFirst h fresh gives, fun keys unpicked => ?_⟩
  have attends := attends h keys
  obtain ⟨d', hd, hfollowed⟩ := attends.holds
  refine ⟨attends, fun index highlighted => ?_, fun unhighlighted => ?_⟩
  · have opened' := Prompt.phase_of_unanswered asked gives unpicked
    obtain ⟨s', after, stands'⟩ := Prompt.Select.stands_after stands keys
    rw [hasked] at highlighted opened' ⊢
    rw [after] at highlighted opened' ⊢
    exact ⟨stands'.lists.of_highlighted highlighted, s', rfl,
      Prompt.Select.pointsAt (opened'.trans opened) stands'.pictured highlighted⟩
  · refine ⟨Prompt.goesOn_of_unanswered asked gives
      (unpicked.concat fun _ => Prompt.not_picks_iff.mpr unhighlighted), ?_⟩
    rw [hasked] at hfollowed unhighlighted ⊢
    have unchanged := Prompt.Select.press_enter_unhighlighted stands unhighlighted
    constructor
    · rw [Prompt.after_concat]
      exact unchanged
    · rw [attended_concat, hasked]
      refine follow_of_unchanged hd _ ?_
      rw [hfollowed]
      exact unchanged

/-- Nothing is picked where the filter leaves nothing. -/
theorem ask_select_filtered :
    let s := twice fruit [.char 'z', .enter, .backspace, .char 'b', .enter]
    ∃ d, s.dialog? 0 = some d ∧ d.prompt = fruit ∧ s.Undisturbed d ⟨0, none⟩ ∧
      id d.reader.load.read.1 = [Key.char 'z', .enter, .backspace, .char 'b'].map Occurrence.key ++
        .key .enter :: [.closed] ∧
      Prompt.FirstAnswered d.asked.Picks [.char 'z', .enter, .backspace, .char 'b'] (.index 1) ∧
      (s.ask 0 ⟨0, none⟩).1 = .ok (.index 1) ∧
      Prompt.Unanswered d.asked.Picks [.char 'z'] ∧
      d.asked.after [.char 'z', .enter] = d.asked.after [.char 'z'] := by
  intro s
  obtain ⟨d, hd, hprompt, undisturbed, hkeyboard⟩ :=
    undisturbed_twice fruit [.char 'z', .enter, .backspace, .char 'b', .enter]
  have hasked : d.asked = fruit.withPhase .interacting := by rw [Dialog.asked, hprompt]
  have occurs : id d.reader.load.read.1 =
      [Key.char 'z', .enter, .backspace, .char 'b'].map Occurrence.key ++
        .key .enter :: [.closed] := by
    rw [Dialog.reader, hkeyboard]
    decide +kernel
  have unhighlighted : (d.asked.after [.char 'z']).highlighted? = none := by
    rw [hasked]
    decide +kernel
  have unpicked : Prompt.Unanswered d.asked.Picks ([] ++ [.char 'z']) :=
    (Prompt.unanswered_nil _).concat_of_ne (by decide)
  have stayed : Prompt.Unanswered d.asked.Picks ([.char 'z'] ++ [.enter]) :=
    unpicked.concat fun _ => Prompt.not_picks_iff.mpr unhighlighted
  have erased : Prompt.Unanswered d.asked.Picks ([.char 'z', .enter] ++ [.backspace]) :=
    stayed.concat_of_ne (by decide)
  have picks : Prompt.FirstAnswered d.asked.Picks [.char 'z', .enter, .backspace, .char 'b']
      (.index 1) := by
    refine ⟨by decide, ⟨1, ?_, rfl⟩, erased.concat_of_ne (by decide)⟩
    rw [hasked]
    decide +kernel
  have chosen : d.prompt = .select
      { Prompt.Select.ofChoices "Pick"
          (.ofEntries [⟨"apple", "apple"⟩, ⟨"banana", "banana"⟩] 6 false) (some 0) with
        help := [], filtering := true } := hprompt
  obtain ⟨first, stays⟩ := ask_select hd chosen
  exact ⟨d, hd, hprompt, undisturbed, occurs, picks,
    first.gives ⟨0, none⟩ id _ _ _ undisturbed occurs picks, unpicked,
    ((stays _ unpicked).2.2 unhighlighted).2.1⟩

end Scene

end Inlay
