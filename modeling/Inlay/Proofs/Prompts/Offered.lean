import Inlay.Proofs.Prompts.Asked
import Inlay.Proofs.Prompts.Calm
/-!
What a prompt shows and what Enter submits as the first key. The text that is edited begins afresh
with every asking, while the prompt shows the text that it kept. So the two agree where the prompt
keeps the text that the keys begin from.
-/

namespace Inlay

open Text Keyboard

namespace Prompt

namespace Choices

/-- Index of the entry in the row that the picture of a list points at. -/
def pointedAt? (cs : Choices) : Option Nat :=
  ((cs.rows .plain).find? (·.isHighlighted)).map (·.index)

variable {cs : Choices}

theorem find?_rowsFrom (cs : Choices) (style : Style) (place : Nat) (indexes : List Nat) :
    ((cs.rowsFrom style place indexes).find? (·.isHighlighted)).map (·.index) =
      cs.current.bind fun current =>
        if place ≤ current then indexes[current - place]? else none := by
  induction indexes generalizing place with
  | nil => cases cs.current <;> simp [rowsFrom]
  | cons index rest ih =>
      rw [rowsFrom, List.find?_cons]
      by_cases hplace : cs.current = some place
      · simp [hplace]
      · simp only [hplace, decide_false]
        rw [ih (place + 1)]
        cases hcurrent : cs.current with
        | none => rfl
        | some current =>
            have hne : current ≠ place := fun heq => hplace (heq ▸ hcurrent)
            simp only [Option.bind_some]
            by_cases hle : place ≤ current
            · have hlt : place + 1 ≤ current := by omega
              rw [if_pos hlt, if_pos hle, show current - place = current - (place + 1) + 1 by omega,
                List.getElem?_cons_succ]
            · rw [if_neg hle, if_neg (by omega)]

/-- The window of a list holds the row at the selected place. -/
theorem mem_window {selected display total : Nat} (positive : 1 ≤ display)
    (bound : selected < total) :
    (window selected display total).1 ≤ selected ∧
      selected < (window selected display total).2 := by
  unfold window
  dsimp only
  split
  · constructor
    · exact Nat.zero_le _
    · dsimp only; omega
  · split
    · dsimp only; omega
    · dsimp only; omega

/-- The rows that are shown mark the highlighted entry, whatever part of the list they are. -/
theorem find?_rows (positive : 1 ≤ cs.displayCount) (style : Style) :
    ((cs.rows style).find? (·.isHighlighted)).map (·.index) = cs.highlighted? := by
  unfold rows
  dsimp only
  rw [find?_rowsFrom, highlighted?]
  cases hcurrent : cs.current with
  | none => rfl
  | some current =>
      have hwindow : cs.shownWindow = window current cs.displayCount cs.filtered.length := by
        rw [shownWindow, hcurrent]
        rfl
      rw [Option.bind_some, Option.bind_some, List.getElem?_drop, List.getElem?_take]
      by_cases hbound : current < cs.filtered.length
      · obtain ⟨hstart, hstop⟩ := mem_window positive hbound
        rw [← hwindow] at hstart hstop
        rw [if_pos hstart, Nat.add_sub_cancel' hstart, if_pos hstop]
      · have hnone : cs.filtered[current]? = none :=
          List.getElem?_eq_none (Nat.not_lt.mp hbound)
        rw [hnone]
        split
        · rename_i hstart
          rw [Nat.add_sub_cancel' hstart, hnone, ite_self]
        · rfl

theorem pointedAt?_eq (positive : 1 ≤ cs.displayCount) : cs.pointedAt? = cs.highlighted? :=
  find?_rows positive .plain

theorem moveUp_eq (cs : Choices) : ∃ current, cs.moveUp = { cs with current := current } := by
  unfold moveUp
  dsimp only
  split
  · exact ⟨cs.current, rfl⟩
  · exact ⟨_, rfl⟩

theorem moveDown_eq (cs : Choices) : ∃ current, cs.moveDown = { cs with current := current } := by
  unfold moveDown
  dsimp only
  split
  · exact ⟨cs.current, rfl⟩
  · exact ⟨_, rfl⟩

theorem entries_setFilter (cs : Choices) (filter : Text) :
    (cs.setFilter filter).entries = cs.entries := by
  unfold setFilter
  split
  · rfl
  · rfl

theorem filter_setFilter (cs : Choices) (filter : Text) :
    (cs.setFilter filter).filter = filter := by
  unfold setFilter
  split
  · rename_i h
    exact h.symm
  · rfl

theorem displayCount_setFilter (cs : Choices) (filter : Text) :
    (cs.setFilter filter).displayCount = cs.displayCount := by
  unfold setFilter
  split
  · rfl
  · rfl

end Choices

/-- The text that a prompt keeps of the keys that it followed. -/
def kept : Prompt → Text
  | confirm c => c.value
  | line l => l.value
  | select s => if s.filtering then s.list.filter else []
  | multiSelect m => if m.filtering then m.list.filter else []

/-- The answer that an open prompt shows, if it is one that it accepts: the text, the answer that
the text beside yes or no stands for, the entry that is pointed at, or the choices checked. -/
def offered? : Prompt → Option Answer
  | confirm c => (c.denoted? c.value).map .yesNo
  | line l => if (l.objection? l.value).isNone then some (.text l.value) else none
  | select s => s.list.pointedAt?.map .index
  | multiSelect m =>
      if m.list.isEmpty || !m.checks.contains true then none else some (.choices m.chosen)

/-- The event of a key that is the first of an asking. -/
def firstEvent (p : Prompt) (key : Key) : KeyEvent :=
  ({ value := p.inputConfig.initialValue } : KeyEvent).press p.inputConfig.ignoreHintKeys key

/-- The list of a list prompt once the text is gone that was typed to filter it. -/
def unfiltered (filtering : Bool) (list : Choices) : Choices :=
  if filtering then list.setFilter [] else list

/-- What Enter submits as the first key of an asking. -/
def submitted? : Prompt → Option Answer
  | confirm c => c.default.map .yesNo
  | line l => if (l.objection? l.default).isNone then some (.text l.default) else none
  | select s => (unfiltered s.filtering s.list).highlighted?.map .index
  | multiSelect m =>
      if (unfiltered m.filtering m.list).isEmpty || !m.checks.contains true then none
      else some (.choices m.chosen)

/-- What a prompt keeps of a text that was typed. -/
def taken (text : Text) : Prompt → Text
  | confirm _ | line _ => text
  | select s => if s.filtering then text else []
  | multiSelect m => if m.filtering then Blank.trim text else []

/-- What Enter submits where the keys have left a text. -/
def submission? (text : Text) : Prompt → Option Answer
  | confirm c => (c.denoted? text).map .yesNo
  | line l => if (l.objection? text).isNone then some (.text text) else none
  | select s => (narrowed s.filtering s.list text).highlighted?.map .index
  | multiSelect m =>
      if (narrowed m.filtering m.list (Blank.trim text)).isEmpty || !m.checks.contains true then
          none
      else some (.choices m.chosen)

theorem submitted?_eq (p : Prompt) : p.submitted? = p.submission? p.inputConfig.initialValue := by
  cases p with
  | confirm c | line l | select s | multiSelect m => rfl

/-- What comes of a key that submits an answer, or is refused. -/
inductive Submits : Option Answer → Bool × Prompt → Prop
  | taken {p : Prompt} {answer : Answer} (answered : p.answer = .ok answer) :
      Submits (some answer) (false, p)
  | refused {p : Prompt} : Submits none (true, p)

section

variable {event : KeyEvent}

theorem Choices.awake_eq (cs : Choices) : ∃ current, cs.awake = { cs with current := current } := by
  unfold awake
  split
  · exact cs.moveDown_eq
  · exact ⟨cs.current, rfl⟩

theorem entries_narrowed (filtering : Bool) (list : Choices) (text : Text) :
    (narrowed filtering list text).entries = list.entries := by
  unfold narrowed
  split
  · exact list.entries_setFilter text
  · rfl

theorem displayCount_narrowed (filtering : Bool) (list : Choices) (text : Text) :
    (narrowed filtering list text).displayCount = list.displayCount := by
  unfold narrowed
  split
  · exact list.displayCount_setFilter text
  · rfl

theorem filter_narrowed (filtering : Bool) (list : Choices) (text : Text) :
    (narrowed filtering list text).filter = if filtering then text else list.filter := by
  unfold narrowed
  split
  · exact list.filter_setFilter text
  · rfl

theorem narrowed_of_kept {filtering : Bool} {list : Choices} {text : Text}
    (h : filtering = true → list.filter = text) : narrowed filtering list text = list := by
  unfold narrowed
  split
  · rename_i hfiltering
    exact if_pos (h hfiltering).symm
  · rfl

section

variable (calm : event.isCalm = true) (enter : event.key = some .enter)
include calm enter

theorem submits_confirm (c : Confirm) :
    Submits ((Prompt.confirm c).submission? event.value) ((Prompt.confirm c).press event) := by
  rw [Prompt.press, Confirm.press_of_calm calm]
  dsimp only
  rw [if_pos enter]
  split
  · rename_i answer given
    have submitted : (Prompt.confirm c).submission? event.value = some (.yesNo answer) :=
      congrArg (Option.map Answer.yesNo) given
    rw [submitted]
    exact .taken rfl
  · rename_i unanswered
    have refused : (Prompt.confirm c).submission? event.value = none :=
      congrArg (Option.map Answer.yesNo) unanswered
    rw [refused]
    exact .refused

theorem submits_line (l : Line) :
    Submits ((Prompt.line l).submission? event.value) ((Prompt.line l).press event) := by
  rw [Prompt.press, Line.press_of_calm calm]
  dsimp only
  rw [if_pos enter]
  split
  · rename_i accepted
    have submitted : (Prompt.line l).submission? event.value = some (.text event.value) :=
      if_pos (congrArg Option.isNone accepted)
    rw [submitted]
    exact .taken rfl
  · rename_i message raised
    have refused : (Prompt.line l).submission? event.value = none :=
      if_neg (ne_true_of_eq_false (congrArg Option.isNone raised))
    rw [refused]
    exact .refused

theorem submits_select (s : Select) :
    Submits ((Prompt.select s).submission? event.value) ((Prompt.select s).press event) := by
  rw [Prompt.press, Select.press_of_calm calm, submission?, enter]
  change Submits ((narrowed s.filtering s.list event.value).highlighted?.map .index)
    ((if some Key.enter = some Key.enter ∧
        (narrowed s.filtering s.list event.value).highlighted?.isSome
      then _ else _ : Bool × Select).map id .select)
  generalize hlist : narrowed s.filtering s.list event.value = list
  cases hindex : list.highlighted? with
  | none => exact .refused
  | some index =>
      refine .taken ?_
      change Prompt.answer (.select { s with selected := list.highlighted?.or s.selected }) = _
      rw [hindex]
      rfl

theorem submits_multiSelect (m : MultiSelect) :
    Submits ((Prompt.multiSelect m).submission? event.value)
      ((Prompt.multiSelect m).press event) := by
  let list := narrowed m.filtering m.list (Blank.trim event.value)
  -- A list without a highlighted row highlights one first, which changes neither what it holds nor
  -- what is checked.
  obtain ⟨current, hawake⟩ := list.awake_eq
  have hempty : list.awake.isEmpty = list.isEmpty := (congrArg Choices.isEmpty hawake).trans rfl
  have hentries : list.awake.entries = m.list.entries :=
    (congrArg Choices.entries hawake).trans (entries_narrowed _ _ _)
  let pressed : MultiSelect :=
    { m with showHelp := event.hint, list := list.awake, submitted := true }
  have hchosen : pressed.chosen = m.chosen := congrArg
    (fun entries => ((entries.zip m.checks).filter Prod.snd).map Prod.fst) hentries
  rw [Prompt.press, MultiSelect.press_of_calm calm, enter]
  change Submits
    (if list.isEmpty || !m.checks.contains true then none else some (.choices m.chosen))
    ((if pressed.objection?.isNone then (false, { pressed with phase := .complete })
      else (true, pressed) : Bool × MultiSelect).map id .multiSelect)
  have hobjection : pressed.objection?.isNone = !(list.isEmpty || !m.checks.contains true) := by
    rw [← hempty]
    unfold MultiSelect.objection?
    change (if list.awake.isEmpty then some MultiSelect.noMatch
      else if true && !m.checks.contains true then some MultiSelect.noneChecked
      else none).isNone = _
    cases list.awake.isEmpty <;> cases m.checks.contains true <;> rfl
  rw [hobjection]
  cases list.isEmpty || !m.checks.contains true with
  | true => exact .refused
  | false => exact .taken (congrArg (Except.ok ∘ Answer.choices) hchosen)

/-- Enter submits what the text stands for, or nothing. -/
theorem submits_press (p : Prompt) : Submits (p.submission? event.value) (p.press event) := by
  cases p with
  | confirm c => exact submits_confirm calm enter c
  | line l => exact submits_line calm enter l
  | select s => exact submits_select calm enter s
  | multiSelect m => exact submits_multiSelect calm enter m

end

theorem submits_firstEvent (p : Prompt) :
    Submits p.submitted? (p.press (p.firstEvent .enter)) := by
  rw [submitted?_eq]
  have enter : (p.firstEvent .enter).key = some .enter := rfl
  exact submits_press rfl enter p

/-- Where a prompt keeps the text as it was typed, Enter submits what is shown. -/
theorem offered?_eq {p : Prompt} {text : Text} (h : p.kept = p.taken text)
    (pictured : ∀ s, p = .select s → 1 ≤ s.list.displayCount) :
    p.offered? = p.submission? text := by
  cases p with
  | confirm c =>
      change c.value = text at h
      rw [offered?, submission?, h]
  | line l =>
      change l.value = text at h
      rw [offered?, submission?, h]
  | select s =>
      change (if s.filtering then s.list.filter else []) = if s.filtering then text else [] at h
      have hlist : narrowed s.filtering s.list text = s.list :=
        narrowed_of_kept fun hfiltering => by rwa [if_pos hfiltering, if_pos hfiltering] at h
      rw [offered?, submission?, Choices.pointedAt?_eq (pictured s rfl), hlist]
  | multiSelect m =>
      change (if m.filtering then m.list.filter else []) =
        if m.filtering then Blank.trim text else [] at h
      have hlist : narrowed m.filtering m.list (Blank.trim text) = m.list :=
        narrowed_of_kept fun hfiltering => by rwa [if_pos hfiltering, if_pos hfiltering] at h
      rw [offered?, submission?, hlist]

/-- Moving the highlight changes nothing else. -/
theorem Select.move_eq (list : Choices) (key : Option Key) :
    ∃ current, Select.move list key = { list with current := current } := by
  unfold Select.move
  split
  · exact list.moveUp_eq
  · exact list.moveDown_eq
  · exact ⟨list.current, rfl⟩

/-- Where its list is filtered, a key puts the text for the filter. -/
theorem Select.list_press (calm : event.isCalm = true) (s : Select) :
    (s.press event).2.list =
      Select.move (narrowed s.filtering s.list event.value) event.key := by
  rw [Select.press_of_calm calm]
  dsimp only
  split
  · rfl
  · rfl

theorem MultiSelect.list_pressKey (m : MultiSelect) (key : Option Key) :
    ∃ current, (m.pressKey key).2.list = { m.list with current := current } := by
  obtain ⟨submitted, phase, hpressed⟩ := m.snd_pressKey key
  rw [hpressed]
  exact Select.move_eq m.list key

theorem MultiSelect.list_press (calm : event.isCalm = true) (m : MultiSelect) :
    ∃ current, (m.press event).2.list =
      { narrowed m.filtering m.list (Blank.trim event.value) with current := current } := by
  rw [MultiSelect.press_of_calm calm]
  dsimp only
  obtain ⟨moved, hmoved⟩ := (narrowed m.filtering m.list (Blank.trim event.value)).awake_eq
  obtain ⟨current, hlist⟩ := MultiSelect.list_pressKey
    { m with
      showHelp := event.hint
      list := (narrowed m.filtering m.list (Blank.trim event.value)).awake } event.key
  refine ⟨current, hlist.trans ?_⟩
  dsimp only
  rw [hmoved]

/-- An event that calls a prompt off leaves the rest of it alone. -/
theorem press_of_called (called : event.isCalm = false) (p : Prompt) :
    ∃ phase, p.press event = (false, p.withPhase phase) := by
  have hcalled : event.cancelled = true ∨ event.cancelled = false ∧ event.timedOut = true := by
    unfold KeyEvent.isCalm at called
    cases hcancelled : event.cancelled with
    | true => exact .inl rfl
    | false =>
        rw [hcancelled, Bool.not_false, Bool.true_and, Bool.not_eq_false'] at called
        exact .inr ⟨rfl, called⟩
  rcases hcalled with hcancelled | ⟨hcancelled, htimedOut⟩
  · refine ⟨.cancelled, ?_⟩
    cases p with
    | confirm c => rw [Prompt.press, Confirm.press, if_pos hcancelled]; rfl
    | line l => rw [Prompt.press, Line.press, if_pos hcancelled]; rfl
    | select s => rw [Prompt.press, Select.press, if_pos hcancelled]; rfl
    | multiSelect m => rw [Prompt.press, MultiSelect.press, if_pos hcancelled]; rfl
  · refine ⟨.timedOut, ?_⟩
    cases p with
    | confirm c => rw [Prompt.press, Confirm.press, hcancelled, htimedOut]; rfl
    | line l => rw [Prompt.press, Line.press, hcancelled, htimedOut]; rfl
    | select s => rw [Prompt.press, Select.press, hcancelled, htimedOut]; rfl
    | multiSelect m => rw [Prompt.press, MultiSelect.press, hcancelled, htimedOut]; rfl

theorem inputConfig_withPhase (p : Prompt) (phase : Phase) :
    (p.withPhase phase).inputConfig = p.inputConfig := by
  cases p with
  | confirm c | line l | select s | multiSelect m => rfl

theorem inputConfig_press (p : Prompt) (event : KeyEvent) :
    (p.press event).2.inputConfig = p.inputConfig := by
  cases p with
  | confirm c | select s | multiSelect m => rfl
  | line l =>
      obtain ⟨showHelp, value, error, phase, hpressed⟩ := l.snd_press event
      change ({ initialValue := (l.press event).2.default
                ignoreHintKeys := (l.press event).2.ignoreHintKeys } : InputConfig) = _
      rw [hpressed]
      rfl

theorem taken_press (p : Prompt) (event : KeyEvent) (text : Text) :
    (p.press event).2.taken text = p.taken text := by
  cases p with
  | confirm c | line l => rfl
  | select s => exact congrArg (fun b : Bool => if b then text else []) (s.filtering_press event)
  | multiSelect m =>
      exact congrArg (fun b : Bool => if b then Blank.trim text else []) (m.filtering_press event)

theorem taken_initialValue (p : Prompt) :
    p.taken p.inputConfig.initialValue = p.inputConfig.initialValue := by
  cases p with
  | confirm c | line l => rfl
  | select s | multiSelect m => exact ite_self _

/-- Where a prompt keeps the text that the keys begin from, Enter submits what is shown. -/
theorem offered?_of_kept {p : Prompt} (h : p.kept = p.inputConfig.initialValue)
    (pictured : ∀ s, p = .select s → 1 ≤ s.list.displayCount) : p.offered? = p.submitted? := by
  rw [submitted?_eq]
  exact offered?_eq (h.trans p.taken_initialValue.symm) pictured

/-- After a key a prompt keeps the text as it was typed. -/
theorem kept_press (calm : event.isCalm = true) (p : Prompt) :
    (p.press event).2.kept = p.taken event.value := by
  cases p with
  | confirm c =>
      change (c.press event).2.value = event.value
      rw [Confirm.press_of_calm calm]
      dsimp only
      split
      · split
        · rfl
        · rfl
      · rfl
  | line l =>
      change (l.press event).2.value = event.value
      rw [Line.press_of_calm calm]
      dsimp only
      split
      · split
        · rfl
        · rfl
      · rfl
  | select s =>
      change (if (s.press event).2.filtering then (s.press event).2.list.filter else []) =
        if s.filtering then event.value else []
      obtain ⟨current, hmoved⟩ := Select.move_eq (narrowed s.filtering s.list event.value) event.key
      rw [s.filtering_press, Select.list_press calm, hmoved]
      dsimp only
      rw [filter_narrowed]
      split
      · rfl
      · rfl
  | multiSelect m =>
      change (if (m.press event).2.filtering then (m.press event).2.list.filter else []) =
        if m.filtering then Blank.trim event.value else []
      obtain ⟨current, hlist⟩ := MultiSelect.list_press calm m
      rw [m.filtering_press, hlist]
      dsimp only
      rw [filter_narrowed]
      split
      · rfl
      · rfl

theorem displayCount_press (calm : event.isCalm = true) (s : Select) :
    (s.press event).2.list.displayCount = s.list.displayCount := by
  obtain ⟨current, hmoved⟩ := Select.move_eq (narrowed s.filtering s.list event.value) event.key
  rw [Select.list_press calm, hmoved]
  exact displayCount_narrowed _ _ _

end

/-- A prompt of a certain reading, whose list can be seen. Unless text was edited, it keeps what the
keys begin from. -/
structure Keeps (edited : Bool) (config : InputConfig) (p : Prompt) : Prop where
  reads : p.inputConfig = config
  pictured : ∀ s, p = .select s → 1 ≤ s.list.displayCount
  kept : edited = false → p.kept = config.initialValue

variable {edited : Bool} {config : InputConfig} {p : Prompt} {event : KeyEvent}

/-- A list that nothing was typed to can be seen. -/
theorem keeps_ofChoices (message : Text) (entries : List Choice) (displayCount : Nat)
    (displayNumbers : Bool) (index : Option Nat) :
    Keeps false {} (.select
      (.ofChoices message (.ofEntries entries displayCount displayNumbers) index)) := by
  unfold Select.ofChoices
  dsimp only
  generalize index.filter _ = selected
  cases selected with
  | none | some index =>
      refine ⟨rfl, ?_, fun _ => rfl⟩
      rintro _ ⟨⟩
      exact Nat.le_max_right displayCount 1

theorem Keeps.withPhase (h : Keeps edited config p) (phase : Phase) :
    Keeps edited config (p.withPhase phase) := by
  obtain ⟨reads, pictured, kept⟩ := h
  cases p with
  | confirm c | line l | multiSelect m => exact ⟨reads, nofun, kept⟩
  | select s =>
      refine ⟨reads, ?_, kept⟩
      rintro _ ⟨⟩
      exact pictured s rfl

theorem Keeps.press (h : Keeps edited config p)
    (unedited : edited = false → event.value = config.initialValue) :
    Keeps edited config (p.press event).2 := by
  cases calm : event.isCalm with
  | false =>
      obtain ⟨phase, hpressed⟩ := press_of_called calm p
      rw [hpressed]
      exact h.withPhase phase
  | true =>
      obtain ⟨rfl, pictured, -⟩ := h
      refine ⟨p.inputConfig_press event, ?_, fun hedited => ?_⟩
      · intro s hs
        cases p with
        | confirm c | line l | multiSelect m => cases hs
        | select before =>
            obtain rfl : (before.press event).2 = s := Prompt.select.inj hs
            rw [displayCount_press calm]
            exact pictured before rfl
      · rw [kept_press calm, unedited hedited, taken_initialValue]

end Prompt

end Inlay
