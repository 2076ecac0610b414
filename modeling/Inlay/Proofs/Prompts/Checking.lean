import Inlay.Proofs.Prompts.Matching
import Inlay.Proofs.Prompts.Submitting

namespace Inlay

open Text Keyboard

theorem Text.Blank.trim_concat_blank (text : Text) :
    Blank.trim (text ++ [' ']) = Blank.trim text := by
  have blank : Blank.isBlank ' ' = true := by decide
  unfold Blank.trim
  rw [List.dropWhile_append]
  cases hrest : text.dropWhile Blank.isBlank with
  | nil => rfl
  | cons c rest =>
      rw [List.isEmpty_cons, if_neg Bool.false_ne_true, List.reverse_concat,
        List.dropWhile_cons_of_pos blank]

namespace Prompt

variable {p : Prompt} {keys : List Key} {key : Key} {entries : List Choice}
  {numbers filtering : Bool} {text : Text}

theorem edited_blank (p : Prompt) (keys : List Key) :
    p.edited (keys ++ [.char ' ']) = p.edited keys ++ [' '] := by
  rw [edited, eventAfter_concat]
  rfl

namespace Choices

variable {cs : Choices}

/-- A list without a highlighted row is empty. -/
def IsAwake (cs : Choices) : Prop := cs.current = none → cs.filtered = []

namespace IsAwake

theorem moveUp (h : cs.IsAwake) : cs.moveUp.IsAwake := by
  unfold Choices.moveUp
  dsimp only
  split
  · exact h
  · nofun

theorem moveDown (h : cs.IsAwake) : cs.moveDown.IsAwake := by
  unfold Choices.moveDown
  dsimp only
  split
  · exact h
  · nofun

theorem move (h : cs.IsAwake) (key : Option Key) : (Select.move cs key).IsAwake := by
  unfold Select.move
  split
  · exact h.moveUp
  · exact h.moveDown
  · exact h

theorem setFilter (h : cs.IsAwake) (text : Text) : (cs.setFilter text).IsAwake := by
  unfold Choices.setFilter
  split
  · exact h
  · intro hnone
    dsimp only at hnone ⊢
    split at hnone
    · rename_i hempty
      exact List.isEmpty_iff.mp hempty
    · split at hnone
      · split at hnone
        · cases hnone
        · cases hnone
      · cases hnone

theorem narrowed (h : cs.IsAwake) (filtering : Bool) (text : Text) :
    (narrowed filtering cs text).IsAwake := by
  cases filtering with
  | false => exact h
  | true => exact h.setFilter text

theorem awake_eq (h : cs.IsAwake) (lists : cs.Lists entries numbers text) : cs.awake = cs := by
  unfold awake
  rw [if_neg]
  intro asleep
  rw [Bool.and_eq_true, Option.isNone_iff_eq_none, Bool.not_eq_true'] at asleep
  obtain ⟨unhighlighted, filled⟩ := asleep
  cases hcurrent : cs.current with
  | none =>
      rw [isEmpty, h hcurrent] at filled
      cases filled
  | some place =>
      rw [highlighted?, hcurrent, Option.bind_some,
        List.getElem?_eq_getElem (lists.inside place hcurrent)] at unhighlighted
      cases unhighlighted

end IsAwake

theorem isAwake_highlight_zero (entries : List Choice) (displayCount : Nat) (numbers : Bool) :
    ((ofEntries entries displayCount numbers).highlight 0).IsAwake := by
  intro hnone
  change (List.range entries.length).idxOf? 0 = none at hnone
  rw [List.idxOf?_eq_none_iff, List.mem_range, Nat.not_lt, Nat.le_zero] at hnone
  change List.range entries.length = []
  rw [hnone]
  rfl

end Choices

/-- The checks of a list prompt, entry by entry. -/
def checks : Prompt → List Bool
  | multiSelect m => m.checks
  | _ => []

/-- The list of a list prompt. -/
def list? : Prompt → Option Choices
  | select s => some s.list
  | multiSelect m => some m.list
  | _ => none

namespace MultiSelect

variable {m : MultiSelect} {event event' : KeyEvent}

/-- The entries that are checked, in order. -/
def checkedOf (entries : List Choice) (checks : List Bool) : List Choice :=
  ((entries.zip checks).filter Prod.snd).map Prod.fst

theorem mem_checkedOf {choice : Choice} {checks : List Bool} : choice ∈ checkedOf entries checks ↔
    ∃ index : Nat, entries[index]? = some choice ∧ checks[index]? = some true := by
  unfold checkedOf
  constructor
  · intro h
    obtain ⟨⟨choice, checked⟩, hmem, rfl⟩ := List.mem_map.mp h
    obtain ⟨hzip, rfl⟩ := List.mem_filter.mp hmem
    obtain ⟨index, hindex⟩ := List.mem_iff_getElem?.mp hzip
    exact ⟨index, List.getElem?_zip_eq_some.mp hindex⟩
  · rintro ⟨index, found⟩
    have hpair : (entries.zip checks)[index]? = some (choice, true) :=
      List.getElem?_zip_eq_some.mpr found
    exact List.mem_map.mpr ⟨_, List.mem_filter.mpr ⟨List.mem_of_getElem? hpair, rfl⟩, rfl⟩

theorem checkedOf_ne_nil {checks : List Bool} (counted : checks.length = entries.length)
    (checked : true ∈ checks) : checkedOf entries checks ≠ [] := by
  obtain ⟨index, bound, hindex⟩ := List.mem_iff_getElem.mp checked
  have found : entries[index]? = some entries[index] := List.getElem?_eq_getElem (counted ▸ bound)
  exact List.ne_nil_of_mem (mem_checkedOf.mpr
    ⟨index, found, (List.getElem?_eq_getElem bound).trans (congrArg some hindex)⟩)

/-- Only a blank heeds the highlight. -/
theorem flagged_of_ne {key : Option Key} (other : key ≠ some (.char ' '))
    (highlighted? highlighted?' : Option Nat) (checks : List Bool) :
    flagged key highlighted? checks = flagged key highlighted?' checks := by
  unfold flagged
  split
  · exact absurd rfl other
  · rfl
  · rfl
  · rfl

theorem length_flagged (key : Option Key) (highlighted? : Option Nat) (checks : List Bool) :
    (flagged key highlighted? checks).length = checks.length := by
  unfold flagged
  split
  · split
    · exact List.length_modify ..
    · rfl
  · exact List.length_map _
  · exact List.length_map _
  · rfl

/-- A list in the middle of an asking, as the last event has left it. -/
structure Stands (entries : List Choice) (numbers filtering : Bool) (event : KeyEvent)
    (m : MultiSelect) : Prop where
  filters : m.filtering = filtering
  lists : m.list.Lists entries numbers (if filtering then Blank.trim event.value else [])
  awake : m.list.IsAwake
  counted : m.checks.length = entries.length

theorem stands_ofChoices (message help : Text) (filtering : Bool) (choices : List CheckedChoice)
    (displayCount : Nat) (numbers : Bool) :
    Stands (choices.map CheckedChoice.choice) numbers filtering {}
      { ofChoices message choices displayCount numbers with
        help := help, filtering := filtering } := by
  have lists := (Choices.lists_ofEntries (choices.map CheckedChoice.choice) displayCount
    numbers).highlight 0
  refine ⟨rfl, ?_, Choices.isAwake_highlight_zero _ _ _, ?_⟩
  · cases filtering with
    | false | true => exact lists
  · exact (List.length_map _).trans (List.length_map _).symm

theorem Stands.withPhase (h : m.Stands entries numbers filtering event) (phase : Phase) :
    Stands entries numbers filtering event { m with phase := phase } :=
  ⟨h.filters, h.lists, h.awake, h.counted⟩

theorem Stands.fresh (h : m.Stands entries numbers filtering {}) : (multiSelect m).Fresh := by
  refine ⟨rfl, by rintro _ ⟨⟩, fun _ => ?_⟩
  change (if m.filtering then m.list.filter else []) = []
  rw [h.lists.filter_eq_nil, ite_self]

/-- What a key does to a list that highlights a row where it has any. -/
theorem Stands.snd_press (h : m.Stands entries numbers filtering event)
    (calm : event'.isCalm = true) : ∃ submitted phase, (m.press event').2 =
      { m with
        showHelp := event'.hint
        list := Select.move (narrowed filtering m.list (Blank.trim event'.value)) event'.key
        checks := flagged event'.key
          (narrowed filtering m.list (Blank.trim event'.value)).highlighted? m.checks
        submitted := submitted
        phase := phase } := by
  have awake := (h.awake.narrowed filtering (Blank.trim event'.value)).awake_eq
    (h.lists.narrowed (Blank.trim event'.value))
  rw [press_of_calm calm, h.filters]
  dsimp only
  rw [awake]
  exact snd_pressKey _ _

theorem Stands.press (h : m.Stands entries numbers filtering event)
    (calm : event'.isCalm = true) : (m.press event').2.Stands entries numbers filtering event' := by
  obtain ⟨submitted, phase, hpressed⟩ := h.snd_press calm
  rw [hpressed]
  exact ⟨h.filters, (h.lists.narrowed _).move event'.key,
    (h.awake.narrowed filtering _).move event'.key, (length_flagged ..).trans h.counted⟩

/-- A blank at the end of the text does not filter. -/
theorem Stands.narrowed_blank (h : m.Stands entries numbers filtering event) :
    narrowed filtering m.list (Blank.trim (event.value ++ [' '])) = m.list := by
  rw [Blank.trim_concat_blank]
  refine narrowed_of_kept fun filters => ?_
  rw [h.lists.filter, if_pos filters]

section

variable (h : m.Stands entries numbers filtering event) (calm : event'.isCalm = true)
  (typed : event'.key = some (.char ' ') → event'.value = event.value ++ [' '])
include h calm typed

/-- A key follows what was highlighted before it. -/
theorem Stands.checks_press :
    (m.press event').2.checks = flagged event'.key m.list.highlighted? m.checks := by
  obtain ⟨submitted, phase, hpressed⟩ := h.snd_press calm
  rw [hpressed]
  dsimp only
  by_cases blank : event'.key = some (.char ' ')
  · rw [typed blank, h.narrowed_blank]
  · exact flagged_of_ne blank _ _ _

/-- The key that flips a check leaves the list as it was. -/
theorem Stands.list_press_blank (blank : event'.key = some (.char ' ')) :
    (m.press event').2.list = m.list := by
  obtain ⟨submitted, phase, hpressed⟩ := h.snd_press calm
  rw [hpressed]
  dsimp only
  rw [typed blank, h.narrowed_blank, blank]
  rfl

end

theorem stands_after (h : m.Stands entries numbers filtering {}) (keys : List Key) :
    ∃ m', (Prompt.multiSelect m).after keys = .multiSelect m' ∧
      m'.Stands entries numbers filtering ((Prompt.multiSelect m).eventAfter keys) := by
  induction keys using List.reverseRecOn with
  | nil => exact ⟨m, rfl, h⟩
  | append_singleton keys key ih =>
      obtain ⟨m', after, stands⟩ := ih
      rw [after_concat, after]
      exact ⟨_, rfl, stands.press (isCalm_eventAfter _ _)⟩

/-- One key more flips, sets or clears checks, and the key that flips one leaves the list alone. -/
theorem follows_after (h : m.Stands entries numbers filtering {}) (keys : List Key) (key : Key) :
    ((multiSelect m).after (keys ++ [key])).checks = flagged (some key)
      ((multiSelect m).after keys).highlighted? ((multiSelect m).after keys).checks ∧
    (key = .char ' ' →
      ((multiSelect m).after (keys ++ [key])).list? = ((multiSelect m).after keys).list?) := by
  obtain ⟨m', after, stands⟩ := stands_after h keys
  have calm := (multiSelect m).isCalm_eventAfter (keys ++ [key])
  have pressed := (multiSelect m).key_eventAfter keys key
  -- The key that flips a check is also typed, at the end of the text where it is trimmed away.
  have typed : ((multiSelect m).eventAfter (keys ++ [key])).key = some (.char ' ') →
      ((multiSelect m).eventAfter (keys ++ [key])).value =
        ((multiSelect m).eventAfter keys).value ++ [' '] := by
    rw [pressed]
    rintro ⟨⟩
    exact edited_blank _ keys
  have followed := stands.checks_press calm typed
  have left := stands.list_press_blank calm typed
  rw [pressed] at followed left
  rw [after_concat, after]
  exact ⟨followed, fun blank => congrArg some (left (congrArg some blank))⟩

end MultiSelect

/-- What Enter asks of a list: an entry that matches the text, and one that is checked. -/
structure Submittable (entries : List Choice) (numbers filtering : Bool) (p : Prompt)
    (keys : List Key) : Prop where
  matched : ∃ index entry, entries[index]? = some entry ∧ Choices.isMatch numbers
    (if filtering then Blank.trim (p.edited keys) else []) index entry = true
  checked : true ∈ (p.after keys).checks

/-- What Enter after some keys gives, if it may: the entries that are checked. -/
def GivesChecked (entries : List Choice) (numbers filtering : Bool) (p : Prompt) (keys : List Key)
    (answer : Answer) : Prop :=
  p.Submittable entries numbers filtering keys ∧
    answer = .choices (MultiSelect.checkedOf entries (p.after keys).checks)

namespace MultiSelect

variable {m : MultiSelect}

theorem offered?_eq_some_iff (m : MultiSelect) (answer : Answer) :
    (multiSelect m).offered? = some answer ↔ (m.list.isEmpty = false ∧ true ∈ m.checks) ∧
      answer = .choices (checkedOf m.list.entries m.checks) := by
  rw [offered?]
  split
  · rename_i refused
    constructor
    · intro none
      cases none
    · rintro ⟨⟨filled, checked⟩, -⟩
      rw [filled, List.contains_iff_mem.mpr checked] at refused
      cases refused
  · rename_i accepted
    rw [Bool.not_eq_true, Bool.or_eq_false_iff, Bool.not_eq_false', List.contains_iff_mem]
      at accepted
    constructor
    · intro given
      exact ⟨accepted, (Option.some.inj given).symm⟩
    · rintro ⟨-, rfl⟩
      rfl

section

variable (h : m.Stands entries numbers filtering {})
include h

theorem gives_of_stands :
    (multiSelect m).Gives ((multiSelect m).GivesChecked entries numbers filtering) := by
  intro keys answer
  obtain ⟨m', after, stands⟩ := stands_after h keys
  have hsubmittable : (multiSelect m).Submittable entries numbers filtering keys ↔
      m'.list.isEmpty = false ∧ true ∈ m'.checks := by
    rw [stands.lists.isEmpty_eq_false_iff]
    constructor
    · rintro ⟨matched, checked⟩
      rw [after] at checked
      exact ⟨matched, checked⟩
    · rintro ⟨matched, checked⟩
      refine ⟨matched, ?_⟩
      rw [after]
      exact checked
  rw [GivesChecked, hsubmittable, after, offered?_eq_some_iff, stands.lists.listed]
  rfl

theorem length_checks_after (keys : List Key) :
    ((multiSelect m).after keys).checks.length = entries.length := by
  obtain ⟨m', after, stands⟩ := stands_after h keys
  rw [after]
  exact stands.counted

/-- Wherever a row is highlighted there is a check to flip. -/
theorem counted_after (keys : List Key) {index : Nat}
    (highlighted : ((multiSelect m).after keys).highlighted? = some index) :
    index < ((multiSelect m).after keys).checks.length := by
  obtain ⟨m', after, stands⟩ := stands_after h keys
  rw [after] at highlighted
  obtain ⟨entry, hentry, -⟩ := stands.lists.of_highlighted highlighted
  obtain ⟨bound, -⟩ := List.getElem?_eq_some_iff.mp hentry
  rwa [length_checks_after h]

end

end MultiSelect

end Prompt

namespace Scene

variable {w : Nat} {s : Scene} {d : Dialog}

/-- Asked afresh, a list gives the checked entries in order, at the first Enter at which one is
checked and the filter matches any. The checks are those of the start, and a blank flips the one
that is highlighted, right sets all and left none, and no other key changes any. A blank leaves the
list alone. -/
theorem ask_multiSelect (h : s.dialog? w = some d) {message help : Text} {filtering : Bool}
    {choices : List Prompt.CheckedChoice} {displayCount : Nat} {numbers : Bool}
    (hprompt : d.prompt = .multiSelect
      { Prompt.MultiSelect.ofChoices message choices displayCount numbers with
        help := help, filtering := filtering }) :
    let given := d.asked.GivesChecked (choices.map Prompt.CheckedChoice.choice) numbers filtering
    s.GivesFirst w d given ∧
    d.asked.checks = choices.map Prompt.CheckedChoice.checked ∧
    ∀ keys, s.Attends w d keys ∧ ¬ given keys (.choices []) ∧
      (∀ index, (d.asked.after keys).highlighted? = some index →
        index < (d.asked.after keys).checks.length) ∧
      ∀ key, (d.asked.after (keys ++ [key])).checks = Prompt.MultiSelect.flagged (some key)
          (d.asked.after keys).highlighted? (d.asked.after keys).checks ∧
        (key = .char ' ' →
          (d.asked.after (keys ++ [key])).list? = (d.asked.after keys).list?) := by
  intro given
  obtain ⟨first, hasked, stands, hchecks⟩ : ∃ first : Prompt.MultiSelect,
      d.asked = .multiSelect first ∧
        first.Stands (choices.map Prompt.CheckedChoice.choice) numbers filtering {} ∧
        first.checks = choices.map Prompt.CheckedChoice.checked := by
    rw [Dialog.asked, hprompt]
    exact ⟨_, rfl, (Prompt.MultiSelect.stands_ofChoices ..).withPhase _, rfl⟩
  have fresh : d.prompt.Fresh := by
    rw [hprompt]
    exact (Prompt.MultiSelect.stands_ofChoices ..).fresh
  have gives : d.asked.Gives given := by
    unfold given
    rw [hasked]
    exact Prompt.MultiSelect.gives_of_stands stands
  refine ⟨givesFirst h fresh gives, ?_, fun keys => ?_⟩
  · rw [hasked]
    exact hchecks
  · refine ⟨attends h keys, ?_, ?_, fun key => ?_⟩
    · rintro ⟨⟨-, checked⟩, empty⟩
      refine Prompt.MultiSelect.checkedOf_ne_nil ?_ checked (Prompt.Answer.choices.inj empty).symm
      rw [hasked]
      exact Prompt.MultiSelect.length_checks_after stands keys
    · rw [hasked]
      exact fun index => Prompt.MultiSelect.counted_after stands keys
    · rw [hasked]
      exact Prompt.MultiSelect.follows_after stands keys key

def basket : Prompt :=
  .multiSelect (Prompt.MultiSelect.ofChoices "Pick"
    [⟨⟨"apple", "apple"⟩, false⟩, ⟨⟨"banana", "banana"⟩, false⟩] 6 false)

/-- Nothing is given before something is checked, which a filter helps to find. -/
theorem ask_multiSelect_filtered :
    let s := twice basket [.enter, .char 'b', .char ' ', .enter]
    ∃ d, s.dialog? 0 = some d ∧ d.prompt = basket ∧ s.Undisturbed d ⟨0, none⟩ ∧
      id d.reader.load.read.1 =
        [Key.enter, .char 'b', .char ' '].map Occurrence.key ++ .key .enter :: [.closed] ∧
      Prompt.FirstAnswered
        (d.asked.GivesChecked [⟨"apple", "apple"⟩, ⟨"banana", "banana"⟩] false true)
        [.enter, .char 'b', .char ' '] (.choices [⟨"banana", "banana"⟩]) ∧
      (s.ask 0 ⟨0, none⟩).1 = .ok (.choices [⟨"banana", "banana"⟩]) := by
  intro s
  obtain ⟨d, hd, hprompt, undisturbed, hkeyboard⟩ :=
    undisturbed_twice basket [.enter, .char 'b', .char ' ', .enter]
  have hasked : d.asked = basket.withPhase .interacting := by rw [Dialog.asked, hprompt]
  have occurs : id d.reader.load.read.1 =
      [Key.enter, .char 'b', .char ' '].map Occurrence.key ++ .key .enter :: [.closed] := by
    rw [Dialog.reader, hkeyboard]
    decide +kernel
  have unchecked : true ∉ (d.asked.after []).checks := by
    rw [hasked]
    decide +kernel
  let given := d.asked.GivesChecked [⟨"apple", "apple"⟩, ⟨"banana", "banana"⟩] false true
  have rejected : Prompt.Unanswered given ([] ++ [.enter]) :=
    (Prompt.unanswered_nil _).concat fun _ _ submitted => unchecked submitted.1.checked
  have found : Prompt.Unanswered given ([.enter] ++ [.char 'b']) :=
    rejected.concat_of_ne (by decide)
  have first : Prompt.FirstAnswered given [.enter, .char 'b', .char ' ']
      (.choices [⟨"banana", "banana"⟩]) := by
    refine ⟨by decide, ?_, found.concat_of_ne (by decide)⟩
    unfold given
    rw [hasked]
    exact ⟨⟨⟨1, ⟨"banana", "banana"⟩, rfl, by decide +kernel⟩, by decide +kernel⟩,
      by decide +kernel⟩
  have chosen : d.prompt = .multiSelect
      { Prompt.MultiSelect.ofChoices "Pick"
          [⟨⟨"apple", "apple"⟩, false⟩, ⟨⟨"banana", "banana"⟩, false⟩] 6 false with
        help := [], filtering := true } := hprompt
  obtain ⟨first', -⟩ := ask_multiSelect hd chosen
  exact ⟨d, hd, hprompt, undisturbed, occurs, first,
    first'.gives ⟨0, none⟩ id _ _ _ undisturbed occurs first⟩

end Scene

end Inlay
