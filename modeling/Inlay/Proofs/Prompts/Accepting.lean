import Inlay.Proofs.Prompts.Submitting

namespace Inlay

open Text Keyboard

namespace Prompt

variable {p : Prompt} {event : KeyEvent} {text : Text} {answer : Answer} {keys : List Key}
  {key : Key}

def isWritten : Prompt → Bool
  | confirm _ | line _ => true
  | _ => false

/-- The words for yes and for no. -/
def Confirm.words : Bool → List Text
  | true => [↑"y", ↑"yes"]
  | false => [↑"n", ↑"no"]

/-- The answer of a text. A line takes a text as it is, if that is not blank where one is required
and the validator has nothing against it. A yes-or-no question takes a blank text for its default
and reads the words for yes and no, case and white space around them aside. -/
def Accepts (text : Text) (answer : Answer) : Prompt → Prop
  | line l => answer = .text text ∧ (l.required = true → Blank.trim text ≠ []) ∧
      ∀ validate, l.validator = some validate → validate text = none
  | confirm c => ∃ yes, answer = .yesNo yes ∧
      (Blank.trim text = [] ∧ c.default = some yes ∨
        asciiLowercase (Blank.trim text) ∈ Confirm.words yes)
  | _ => False

def Confirm.invalidMessage : Text := "Enter a valid value"

/-- What a prompt has against a text that it does not accept. -/
def complaint? (text : Text) : Prompt → Option Text
  | confirm c => if (c.denoted? text).isNone then some Confirm.invalidMessage else none
  | line l => l.objection? text
  | _ => none

theorem Line.objection?_eq_none_iff (l : Line) (text : Text) :
    l.objection? text = none ↔ (l.required = true → Blank.trim text ≠ []) ∧
      ∀ validate, l.validator = some validate → validate text = none := by
  unfold objection?
  cases hrequired : l.required && (Blank.trim text).isEmpty with
  | true =>
      obtain ⟨required, hblank⟩ := Bool.and_eq_true_iff.mp hrequired
      rw [if_pos rfl]
      constructor
      · nofun
      · rintro ⟨filled, -⟩
        exact absurd (List.isEmpty_iff.mp hblank) (filled required)
  | false =>
      have filled : l.required = true → Blank.trim text ≠ [] := by
        intro required hblank
        rw [required, hblank] at hrequired
        cases hrequired
      rw [if_neg Bool.false_ne_true, Option.bind_eq_none_iff]
      exact ⟨fun valid => ⟨filled, valid⟩, And.right⟩

theorem Confirm.parseAnswer?_eq_some_iff (text : Text) (yes : Bool) :
    parseAnswer? text = some yes ↔ asciiLowercase (Blank.trim text) ∈ words yes := by
  unfold parseAnswer?
  dsimp only
  generalize asciiLowercase (Blank.trim text) = word
  split
  · rename_i affirmed
    rcases affirmed with rfl | rfl <;> cases yes <;> decide
  split
  · rename_i denied
    rcases denied with rfl | rfl <;> cases yes <;> decide
  · rename_i unaffirmed undenied
    constructor
    · nofun
    · intro hword
      cases yes with
      | true => exact absurd (by simpa [words] using hword) unaffirmed
      | false => exact absurd (by simpa [words] using hword) undenied

theorem Confirm.denoted?_eq_some_iff (c : Confirm) (text : Text) (yes : Bool) :
    c.denoted? text = some yes ↔ Blank.trim text = [] ∧ c.default = some yes ∨
      asciiLowercase (Blank.trim text) ∈ words yes := by
  unfold denoted?
  split
  · rename_i hempty
    have hblank : Blank.trim text = [] := List.isEmpty_iff.mp hempty
    have wordless : asciiLowercase [] ∉ words yes := by cases yes <;> decide
    rw [hblank]
    simp [wordless]
  · rename_i hfilled
    have hword : Blank.trim text ≠ [] := fun hblank => hfilled (List.isEmpty_iff.mpr hblank)
    rw [parseAnswer?_eq_some_iff]
    simp [hword]

theorem submission?_eq_some_iff (written : p.isWritten = true) :
    p.submission? text = some answer ↔ p.Accepts text answer := by
  cases p with
  | select s | multiSelect m => cases written
  | line l =>
      rw [submission?, Accepts, ← l.objection?_eq_none_iff]
      cases l.objection? text with
      | none => simp [eq_comm]
      | some message => simp
  | confirm c =>
      rw [submission?, Accepts, Option.map_eq_some_iff]
      simp only [c.denoted?_eq_some_iff]
      constructor
      · rintro ⟨yes, denoted, rfl⟩
        exact ⟨yes, rfl, denoted⟩
      · rintro ⟨yes, rfl, denoted⟩
        exact ⟨yes, denoted, rfl⟩

theorem complaint?_eq_none_iff (written : p.isWritten = true) :
    p.complaint? text = none ↔ ∃ answer, p.Accepts text answer := by
  simp only [← submission?_eq_some_iff written]
  cases p with
  | select s | multiSelect m => cases written
  | line l =>
      rw [submission?, complaint?]
      cases l.objection? text with
      | none => simp
      | some message => simp
  | confirm c =>
      rw [submission?, complaint?]
      cases c.denoted? text with
      | none => simp
      | some yes => simp

theorem isWritten_withPhase (p : Prompt) (phase : Phase) :
    (p.withPhase phase).isWritten = p.isWritten := by
  cases p with
  | confirm c | line l | select s | multiSelect m => rfl

theorem isWritten_press (p : Prompt) (event : KeyEvent) :
    (p.press event).2.isWritten = p.isWritten := by
  cases p with
  | confirm c | line l | select s | multiSelect m => rfl

/-- What the keys do to a question does not change what it accepts. -/
theorem judges_press (written : p.isWritten = true) (event : KeyEvent) (text : Text) :
    (p.press event).2.submission? text = p.submission? text ∧
      (p.press event).2.complaint? text = p.complaint? text := by
  cases p with
  | select s | multiSelect m => cases written
  | line l =>
      obtain ⟨showHelp, value, error, phase, hpressed⟩ := l.snd_press event
      change (line (l.press event).2).submission? text = _ ∧
        (line (l.press event).2).complaint? text = _
      rw [hpressed]
      exact ⟨rfl, rfl⟩
  | confirm c =>
      obtain ⟨showHelp, value, invalid, answer, phase, hpressed⟩ := c.snd_press event
      change (confirm (c.press event).2).submission? text = _ ∧
        (confirm (c.press event).2).complaint? text = _
      rw [hpressed]
      exact ⟨rfl, rfl⟩

theorem judges_after (written : p.isWritten = true) (keys : List Key) :
    (p.after keys).isWritten = true ∧
      ∀ text, (p.after keys).submission? text = p.submission? text ∧
        (p.after keys).complaint? text = p.complaint? text := by
  induction keys using List.reverseRecOn with
  | nil => exact ⟨written, fun _ => ⟨rfl, rfl⟩⟩
  | append_singleton keys key ih =>
      obtain ⟨written', judges⟩ := ih
      rw [after_concat]
      refine ⟨(isWritten_press _ _).trans written', fun text => ?_⟩
      obtain ⟨hsubmission, hcomplaint⟩ := judges_press written' (p.eventAfter (keys ++ [key])) text
      exact ⟨hsubmission.trans (judges text).1, hcomplaint.trans (judges text).2⟩

/-- The message of a question that rejected what was submitted last. -/
def message? : Prompt → Option Text
  | confirm c => if c.invalid then some Confirm.invalidMessage else none
  | line l => l.error
  | _ => none

/-- Enter on a text that is not accepted leaves a message, and any other key none. -/
theorem message?_press (calm : event.isCalm = true) (p : Prompt) :
    (p.press event).2.message? =
      if event.key = some .enter then p.complaint? event.value else none := by
  cases p with
  | select s | multiSelect m => exact (ite_self _).symm
  | line l =>
      change (l.press event).2.error = if event.key = some .enter then l.objection? event.value
        else none
      rw [Line.press_of_calm calm]
      dsimp only
      split
      · split
        · rename_i accepted
          exact accepted.symm
        · rename_i message raised
          exact raised.symm
      · rfl
  | confirm c =>
      change (if (c.press event).2.invalid then some Confirm.invalidMessage else none) =
        if event.key = some .enter then
          if (c.denoted? event.value).isNone then some Confirm.invalidMessage else none
        else none
      rw [Confirm.press_of_calm calm]
      dsimp only
      split
      · split
        · rename_i yes denoted
          have hdenoted : c.denoted? event.value = some yes := denoted
          rw [hdenoted]
          rfl
        · rename_i undenoted
          have hundenoted : c.denoted? event.value = none := undenoted
          rw [hundenoted]
          rfl
      · rfl

/-- The message is shown below an open question, unless the help is shown there. -/
theorem message_mem_painting (opened : p.phase = .interacting) {message : Text}
    (said : p.message? = some message) (unhelped : p.showsHelp = false) (style : Style) :
    .printLine (style.warning ("  " ++ message)) ∈ p.painting style := by
  cases p with
  | select s | multiSelect m => cases said
  | line l =>
      change l.phase = .interacting at opened
      change l.error = some message at said
      change l.showHelp = false at unhelped
      rw [painting, Line.painting, Line.paintOpen, opened, said, unhelped]
      simp [calledOffNote?]
  | confirm c =>
      change c.phase = .interacting at opened
      change c.showHelp = false at unhelped
      obtain ⟨hinvalid, rfl⟩ : c.invalid = true ∧ message = Confirm.invalidMessage := by
        rw [message?] at said
        split at said
        · rename_i hinvalid
          exact ⟨hinvalid, (Option.some.inj said).symm⟩
        · cases said
      rw [painting, Confirm.painting, Confirm.paintOpen, opened, unhelped, hinvalid]
      have hmessage : ("  Enter a valid value" : Text) = "  " ++ Confirm.invalidMessage := by decide
      rw [hmessage]
      simp [calledOffNote?]

/-- What Enter after some keys gives, if the text is accepted as the keys have edited it. -/
def AcceptsAfter (p : Prompt) (keys : List Key) (answer : Answer) : Prop :=
  p.Accepts (p.edited keys) answer

/-- A question that reads on after a key. At Enter it says what it has against the text, and after
any other key nothing. -/
structure Remarks (p : Prompt) (keys : List Key) (key : Key) : Prop where
  goesOn : p.goesOn keys key = true
  said : key = .enter → ∃ message, p.complaint? (p.edited keys) = some message ∧
    (p.after (keys ++ [key])).message? = some message ∧
    ((p.after (keys ++ [key])).showsHelp = false → ∀ style : Style,
      .printLine (style.warning ("  " ++ message)) ∈ (p.after (keys ++ [key])).painting style)
  unsaid : key ≠ .enter → (p.after (keys ++ [key])).message? = none

theorem gives_of_written (fresh : p.Fresh) (written : p.isWritten = true) :
    p.Gives p.AcceptsAfter := by
  intro keys answer
  rw [offered?_eq (kept_after fresh keys) (keeps_after fresh keys).pictured,
    ((judges_after written keys).2 (p.edited keys)).1]
  exact submission?_eq_some_iff written

/-- What a question says after a key depends on the text as the keys have edited it. -/
theorem message?_after (written : p.isWritten = true) (keys : List Key) (key : Key) :
    (p.after (keys ++ [key])).message? =
      if key = .enter then p.complaint? (p.edited keys) else none := by
  rw [after_concat, message?_press (p.isCalm_eventAfter _), key_eventAfter]
  rcases eq_or_ne key .enter with rfl | other
  · rw [if_pos rfl, if_pos rfl, edited_enter]
    exact ((judges_after written keys).2 _).2
  · rw [if_neg other, if_neg fun h => other (Option.some.inj h)]

theorem remarks (opened : p.phase = .interacting) (fresh : p.Fresh) (written : p.isWritten = true)
    (unaccepted : Unanswered p.AcceptsAfter (keys ++ [key])) : p.Remarks keys key := by
  have gives := gives_of_written fresh written
  have message := message?_after written keys key
  refine ⟨goesOn_of_unanswered fresh gives unaccepted, ?_, ?_⟩
  · rintro rfl
    -- The message is part of the picture only while the question is open.
    have open' := (phase_of_unanswered fresh gives unaccepted).trans opened
    have complained : p.complaint? (p.edited keys) ≠ none := by
      intro accepted
      obtain ⟨answer, accepts⟩ := (complaint?_eq_none_iff written).mp accepted
      exact unaccepted keys (List.prefix_refl _) answer accepts
    obtain ⟨complaint, hcomplaint⟩ := Option.ne_none_iff_exists'.mp complained
    rw [if_pos rfl, hcomplaint] at message
    exact ⟨complaint, hcomplaint, message, message_mem_painting open' message⟩
  · intro other
    rw [message, if_neg other]

end Prompt

namespace Scene

variable {w : Nat} {s : Scene} {d : Dialog}

/-- Asked afresh, a line or a yes-or-no question gives the answer of the first text that it accepts
at Enter. Until then it reads on and is painted anew after each key. It has a message after an Enter
that it does not accept, which any other key removes. -/
theorem ask_written (h : s.dialog? w = some d) (written : d.prompt.isWritten = true)
    (fresh : d.prompt.Fresh) :
    s.GivesFirst w d d.asked.AcceptsAfter ∧
    (∀ keys key, Prompt.Unanswered d.asked.AcceptsAfter (keys ++ [key]) →
      d.asked.Remarks keys key ∧ s.Attends w d (keys ++ [key])) ∧
    ∀ token amid answer, (s.ask w token amid).1 = .ok answer →
      (s.ask w token amid).2.Holds w fun p => p.message? = none := by
  have asked := Dialog.fresh_asked fresh
  have written' : d.asked.isWritten = true := (d.prompt.isWritten_withPhase _).trans written
  have given := Prompt.gives_of_written asked written'
  refine ⟨givesFirst h fresh given,
    fun keys key unaccepted => ⟨?_, attends h (keys ++ [key])⟩,
    fun token amid answer answered => ?_⟩
  · exact Prompt.remarks (d.prompt.phase_withPhase _) asked written' unaccepted
  · obtain ⟨keys, -, first, ends⟩ := answered_of_ask h fresh given answered
    obtain ⟨d', hd, hprompt⟩ := ends.holds h
    refine ⟨d', hd, ?_⟩
    rw [hprompt]
    change (d.asked.after (keys ++ [.enter])).message? = none
    rw [Prompt.message?_after written', if_pos rfl, Prompt.complaint?_eq_none_iff written']
    exact ⟨answer, first.answered⟩

/-- A name that is required, in a line that begins with a blank. -/
def requiredName : Prompt := .line { message := "Name", default := " ", required := true }

/-- Enter is not accepted before there is a name. -/
theorem ask_written_secondEnter :
    let s := twice requiredName [.enter, .char 'A', .enter]
    ∃ d, s.dialog? 0 = some d ∧ d.prompt.isWritten = true ∧ d.prompt.Fresh ∧
      s.Undisturbed d ⟨0, none⟩ ∧
      id d.reader.load.read.1 =
        [Key.enter, .char 'A'].map Occurrence.key ++ .key .enter :: [.closed] ∧
      Prompt.FirstAnswered d.asked.AcceptsAfter [.enter, .char 'A'] (.text " A") ∧
      (s.ask 0 ⟨0, none⟩).1 = .ok (.text " A") ∧
      Prompt.Unanswered d.asked.AcceptsAfter [.enter] ∧ d.asked.Remarks [] .enter := by
  intro s
  obtain ⟨d, hd, hprompt, undisturbed, hkeyboard⟩ :=
    undisturbed_twice requiredName [.enter, .char 'A', .enter]
  have written : d.prompt.isWritten = true := by rw [hprompt]; rfl
  have fresh : d.prompt.Fresh := by
    rw [hprompt]
    exact ⟨rfl, nofun, fun _ => rfl⟩
  have hasked : d.asked = requiredName.withPhase .interacting := by rw [Dialog.asked, hprompt]
  have occurs : id d.reader.load.read.1 =
      [Key.enter, .char 'A'].map Occurrence.key ++ .key .enter :: [.closed] := by
    rw [Dialog.reader, hkeyboard]
    decide +kernel
  have rejected : ∀ answer, ¬ d.asked.AcceptsAfter [] answer := by
    intro answer accepts
    rw [hasked] at accepts
    obtain ⟨-, filled, -⟩ := accepts
    exact filled rfl (by decide +kernel)
  have unaccepted : Prompt.Unanswered d.asked.AcceptsAfter ([] ++ [.enter]) :=
    (Prompt.unanswered_nil _).concat fun _ => rejected
  have first : Prompt.FirstAnswered d.asked.AcceptsAfter [.enter, .char 'A'] (.text " A") := by
    refine ⟨by decide, ?_, unaccepted.concat_of_ne (by decide)⟩
    rw [hasked]
    exact ⟨by decide +kernel, fun _ => by decide +kernel, by rintro _ ⟨⟩⟩
  obtain ⟨first', goesOn, -⟩ := ask_written hd written fresh
  exact ⟨d, hd, written, fresh, undisturbed, occurs, first,
    first'.gives ⟨0, none⟩ id _ _ _ undisturbed occurs first, unaccepted,
    (goesOn [] .enter unaccepted).1⟩

end Scene

end Inlay
