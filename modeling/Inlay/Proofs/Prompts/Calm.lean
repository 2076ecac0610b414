import Inlay.Proofs.Keyboard.Transcript
import Inlay.Prompt

namespace Inlay.Prompt

open Text Keyboard

variable {event : KeyEvent}

/-- The list of a list prompt once a text filters it. -/
def narrowed (filtering : Bool) (list : Choices) (text : Text) : Choices :=
  if filtering then list.setFilter text else list

/-- A list with a row highlighted, if it has any. -/
def Choices.awake (cs : Choices) : Choices :=
  if cs.highlighted?.isNone && !cs.isEmpty then cs.moveDown else cs

theorem Confirm.snd_press (c : Confirm) (event : KeyEvent) : ∃ showHelp value invalid answer phase,
    (c.press event).2 = { c with
      showHelp := showHelp, value := value, invalid := invalid, answer := answer,
      phase := phase } := by
  unfold press
  split
  · exact ⟨_, _, _, _, _, rfl⟩
  split
  · exact ⟨_, _, _, _, _, rfl⟩
  dsimp only
  split
  · split
    · exact ⟨_, _, _, _, _, rfl⟩
    · exact ⟨_, _, _, _, _, rfl⟩
  · exact ⟨_, _, _, _, _, rfl⟩

theorem Line.snd_press (l : Line) (event : KeyEvent) : ∃ showHelp value error phase,
    (l.press event).2 =
      { l with showHelp := showHelp, value := value, error := error, phase := phase } := by
  unfold press
  split
  · exact ⟨_, _, _, _, rfl⟩
  split
  · exact ⟨_, _, _, _, rfl⟩
  dsimp only
  split
  · split
    · exact ⟨_, _, _, _, rfl⟩
    · exact ⟨_, _, _, _, rfl⟩
  · exact ⟨_, _, _, _, rfl⟩

theorem Confirm.press_of_calm (calm : event.isCalm = true) (c : Confirm) :
    c.press event =
      let c := { c with showHelp := event.hint, value := event.value, invalid := false }
      if event.key = some .enter then
        match c.denoted? event.value with
        | some answer => (false, { c with answer := some answer, phase := .complete })
        | none => (true, { c with invalid := true })
      else (true, c) := by
  have hcancelled : event.cancelled = false := Summons.marks_of_calm calm .cancelled
  have htimedOut : event.timedOut = false := Summons.marks_of_calm calm .timedOut
  rw [press, hcancelled, htimedOut]
  rfl

theorem Line.press_of_calm (calm : event.isCalm = true) (l : Line) :
    l.press event =
      let l := { l with showHelp := event.hint, value := event.value, error := none }
      if event.key = some .enter then
        match l.objection? event.value with
        | none => (false, { l with phase := .complete })
        | some message => (true, { l with error := some message })
      else (true, l) := by
  have hcancelled : event.cancelled = false := Summons.marks_of_calm calm .cancelled
  have htimedOut : event.timedOut = false := Summons.marks_of_calm calm .timedOut
  rw [press, hcancelled, htimedOut]
  rfl

theorem Select.press_of_calm (calm : event.isCalm = true) (s : Select) :
    s.press event =
      let list := Select.move (narrowed s.filtering s.list event.value) event.key
      let s :=
        { s with
          showHelp := event.hint
          list := list
          selected := list.highlighted?.or s.selected }
      if event.key = some .enter ∧ list.highlighted?.isSome then
        (false, { s with phase := .complete })
      else (true, s) := by
  have hcancelled : event.cancelled = false := Summons.marks_of_calm calm .cancelled
  have htimedOut : event.timedOut = false := Summons.marks_of_calm calm .timedOut
  rw [press, hcancelled, htimedOut]
  rfl

theorem MultiSelect.press_of_calm (calm : event.isCalm = true) (m : MultiSelect) :
    m.press event =
      let list := (narrowed m.filtering m.list (Blank.trim event.value)).awake
      { m with showHelp := event.hint, list := list }.pressKey event.key := by
  have hcancelled : event.cancelled = false := Summons.marks_of_calm calm .cancelled
  have htimedOut : event.timedOut = false := Summons.marks_of_calm calm .timedOut
  rw [press, hcancelled, htimedOut]
  rfl

namespace MultiSelect

/-- The checks after a key, with the index that is highlighted: a blank flips the check there, right
sets all and left none. -/
def flagged (key : Option Key) (highlighted? : Option Nat) (checks : List Bool) : List Bool :=
  match key with
  | some (.char ' ') =>
      match highlighted? with
      | some index => checks.modify index not
      | none => checks
  | some .right => checks.map fun _ => true
  | some .left => checks.map fun _ => false
  | _ => checks

/-- What a key does, whether or not it submits. -/
theorem snd_pressKey (m : MultiSelect) (key : Option Key) : ∃ submitted phase,
    (m.pressKey key).2 = { m with
      list := Select.move m.list key
      checks := flagged key m.list.highlighted? m.checks
      submitted := submitted
      phase := phase } := by
  cases key with
  | none => exact ⟨m.submitted, m.phase, rfl⟩
  | some key =>
      cases key with
      | char c =>
          refine ⟨m.submitted, m.phase, ?_⟩
          rcases eq_or_ne c ' ' with rfl | other
          · cases hhighlighted : m.list.highlighted? with
            | none | some index => simp [pressKey, flagged, Select.move, hhighlighted]
          · simp [pressKey, flagged, Select.move, other]
      | enter =>
          unfold pressKey
          dsimp only
          split
          · exact ⟨true, .complete, rfl⟩
          · exact ⟨true, m.phase, rfl⟩
      | _ => exact ⟨m.submitted, m.phase, rfl⟩

end MultiSelect

def showsHelp : Prompt → Bool
  | confirm c => c.showHelp
  | line l => l.showHelp
  | select s => s.showHelp
  | multiSelect m => m.showHelp

theorem showsHelp_press (calm : event.isCalm = true) (p : Prompt) :
    (p.press event).2.showsHelp = event.hint := by
  cases p with
  | confirm c =>
      change (c.press event).2.showHelp = event.hint
      rw [Confirm.press_of_calm calm]
      dsimp only
      split
      · split
        · rfl
        · rfl
      · rfl
  | line l =>
      change (l.press event).2.showHelp = event.hint
      rw [Line.press_of_calm calm]
      dsimp only
      split
      · split
        · rfl
        · rfl
      · rfl
  | select s =>
      change (s.press event).2.showHelp = event.hint
      rw [Select.press_of_calm calm]
      dsimp only
      split
      · rfl
      · rfl
  | multiSelect m =>
      change (m.press event).2.showHelp = event.hint
      rw [MultiSelect.press_of_calm calm]
      dsimp only
      obtain ⟨submitted, phase, hpressed⟩ := MultiSelect.snd_pressKey
        { m with
          showHelp := event.hint
          list := (narrowed m.filtering m.list (Blank.trim event.value)).awake } event.key
      rw [hpressed]

end Inlay.Prompt
