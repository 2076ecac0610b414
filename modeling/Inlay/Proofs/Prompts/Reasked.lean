import Inlay.Proofs.Prompts.Offered
import Inlay.Proofs.Prompts.Phases

namespace Inlay

open Text Keyboard

/-- Whether a key edits the text. -/
def Key.edits (ignoreHintKeys : Bool) : Key → Bool
  | char c => c ≠ '?' || ignoreHintKeys
  | backspace => true
  | _ => false

namespace Keyboard

theorem KeyEvent.value_press {event : KeyEvent} {ignoreHintKeys : Bool} {key : Key}
    (h : key.edits ignoreHintKeys = false) :
    (event.press ignoreHintKeys key).value = event.value := by
  cases key with
  | char c =>
      obtain ⟨hint, taken⟩ := Bool.or_eq_false_iff.mp h
      unfold press
      dsimp only
      rw [if_pos ⟨not_not.mp (of_decide_eq_false hint), taken⟩]
  | backspace => cases h
  | _ => rfl

def Occurrence.edits (ignoreHintKeys : Bool) : Occurrence → Bool
  | .key k => k.edits ignoreHintKeys
  | _ => false

namespace Input

variable {σ : Type} {listener : Listener σ} {ignoreHintKeys : Bool} {token : Token}
  {passing : List Occurrence}

theorem State.hear_of_eq {s : State σ} {event : KeyEvent} {goOn : Except Failure Bool} {own : σ}
    (h : listener event s.own = ({ goOn := goOn }, own)) :
    s.hear listener token event = (goOn, ⟨s.watch, event, own⟩) := by
  rw [State.hear, h]
  rfl

/-- A loop comes to its first key as it began, unless it is called off before. -/
theorem loop_firstKey (passes : ∀ o ∈ passing, o.passes = true) (later : List Occurrence)
    (s : State σ) :
    (∃ failure s', loop listener ignoreHintKeys token (passing ++ later) s = (.error failure, s')) ∨
      ∃ watch, summons? token watch = none ∧
        loop listener ignoreHintKeys token (passing ++ later) s =
          loop listener ignoreHintKeys token later { s with watch := watch } := by
  induction passing generalizing s with
  | nil =>
      cases calls : summons? token s.watch with
      | some summons => exact .inl ⟨_, _, loop_of_summons calls⟩
      | none => exact .inr ⟨s.watch, calls, rfl⟩
  | cons occurrence rest ih =>
      obtain ⟨hpasses, hrest⟩ := List.forall_mem_cons.mp passes
      cases calls : summons? token s.watch with
      | some summons => exact .inl ⟨_, _, loop_of_summons calls⟩
      | none =>
          have passed : s.pass token occurrence =
              { s with watch := (s.pass token occurrence).watch } := by
            cases occurrence with
            | elapsed nanos | cancelled | key key | interrupt | failed fault | closed => rfl
          rw [List.cons_append, loop_pass calls hpasses, passed]
          exact ih hrest _

end Input

end Keyboard

namespace Scene

variable {w : Nat} {c : CanvasRef} {s s' : Scene} {d : Dialog} {P : Prompt → Prop}

/-- A scene with a prompt such as `P` tells. -/
def Holds (w : Nat) (P : Prompt → Prop) (s : Scene) : Prop :=
  ∃ d, s.dialog? w = some d ∧ P d.prompt

theorem Holds.of_widgets (h : s.Holds w P) (same : s'.widgets = s.widgets) : s'.Holds w P := by
  obtain ⟨d, hd, hp⟩ := h
  exact ⟨d, (dialog?_of_widgets same w).trans hd, hp⟩

theorem Holds.follow (h : s.Holds w P) {event : KeyEvent} (c : CanvasRef) {P' : Prompt → Prop}
    (step : ∀ p, P p → P' (p.press event).2) : (promptListener w c event s).2.Holds w P' := by
  obtain ⟨d, hd, hp⟩ := h
  rw [promptListener, hd]
  refine Holds.of_widgets (s := s.modifyDialog w _) ?_ (widgets_update _ c)
  exact ⟨_, dialog?_modifyDialog hd _, step _ hp⟩

namespace Interaction

variable {i : Interaction} {kb : Keyboard} {amid : List Occurrence → List Occurrence}

/-- What the events of the keys keep of a prompt, a reading of keys keeps. -/
theorem holds_readKeys {Q : KeyEvent → Prop} (step : ∀ event p, Q event → P p → P (p.press event).2)
    (called : ∀ event (summons : Summons), Q event → Q (summons.event event))
    (pressed : ∀ event key, Occurrence.key key ∈ amid kb.read.1 → Q event →
      Q (event.press i.config.ignoreHintKeys key))
    (start : Q { value := i.config.initialValue }) (token : Token) (h : s.Holds i.widget P) :
    (i.readKeys amid token (kb, s)).2.2.Holds i.widget P :=
  own_listenAmid_of
    (R := fun s s' : Scene => s.Holds i.widget P → s'.Holds i.widget P) kb i.config amid token
    s.watch s (fun _ h => h) (fun first second h => second (first h))
    (fun event _ hq h => h.follow i.canvas fun p => step event p hq) called pressed start h

theorem holds_finish {read : Except Failure Unit × Keyboard × Scene}
    (h : read.2.2.Holds i.widget P) : (i.finish read).2.2.Holds i.widget P := by
  obtain ⟨result, kb, s⟩ := read
  cases result with
  | error failure => exact h
  | ok =>
      change Holds i.widget P (if i.clearsOnCompletion then
        ((s.clear i.canvas).1, kb, (s.clear i.canvas).2) else (.ok (), kb, s)).2.2
      split
      · exact h.of_widgets (widgets_clear s i.canvas)
      · exact h

theorem finish_of_ok {read : Except Failure Unit × Keyboard × Scene}
    (h : (i.finish read).1 = .ok ()) : read.1 = .ok () := by
  obtain ⟨result, kb, s⟩ := read
  cases result with
  | error failure => cases h
  | ok => rfl

theorem holds_attempt (h : s.Holds i.widget P) (token : Token)
    (reads : ∀ token s, s.Holds i.widget P → (i.readKeys amid token (kb, s)).2.2.Holds i.widget P) :
    (i.attempt amid token kb s).2.2.Holds i.widget P := by
  have hidden : (s.cursorHidden i).Holds i.widget P := h.of_widgets (widgets_cursorHidden s i)
  have drawn : ((s.cursorHidden i).run i.canvas).2.Holds i.widget P :=
    hidden.of_widgets (widgets_run _ _)
  have course := course_attempt i amid token kb s
  generalize i.attempt amid token kb s = tried at course ⊢
  cases course with
  | unhidden => exact hidden
  | undrawn => exact drawn
  | read =>
      refine holds_finish (token.state_askWithin
        (R := fun before after : Keyboard × Scene => before.1 = kb → before.2.Holds i.widget P →
          after.2.Holds i.widget P) (fun _ _ h => h) ?_ i.limit _ _ rfl drawn)
      rintro token ⟨kb, s⟩ rfl h
      exact reads token s h

end Interaction

theorem Holds.cleanUp {i : Interaction} (h : s.Holds i.widget P) (owned : Bool) (guard : FocusGuard)
    (kb : Keyboard) : (s.cleanUp i owned guard kb).Holds i.widget P := by
  obtain ⟨d, hd, hp⟩ := h
  obtain ⟨d', hd', hprompt⟩ := prompt_cleanUp hd owned guard kb
  exact ⟨d', hd', hprompt ▸ hp⟩

/-- What the events of the keys keep of an open prompt, an asking keeps. -/
theorem holds_ask {Q : KeyEvent → Prop} (h : s.dialog? w = some d)
    {amid : List Occurrence → List Occurrence}
    (step : ∀ event p, Q event → P p → P (p.press event).2)
    (called : ∀ event (summons : Summons), Q event → Q (summons.event event))
    (pressed : ∀ event key, Occurrence.key key ∈ amid d.reader.load.read.1 → Q event →
      Q (event.press d.prompt.inputConfig.ignoreHintKeys key))
    (start : Q { value := d.prompt.inputConfig.initialValue })
    (opened : P (d.prompt.withPhase .interacting)) (token : Token) :
    (s.ask w token amid).2.Holds w P := by
  obtain ⟨slot, hgranted⟩ := dialog?_granted h
  have granted : (s.granted w d).Holds w P := ⟨_, hgranted, opened⟩
  rw [ask_snd h, askDialog_eq]
  refine Holds.cleanUp (i := s.interaction w d) ?_ _ _ _
  exact Interaction.holds_attempt (i := s.interaction w d) granted token fun token s h =>
    Interaction.holds_readKeys step called pressed start token h

/-- A scene after a number of askings of a prompt, with anything between them that leaves the prompt
alone, and whether a key of any of them edited the text. -/
inductive Reasked (w : Nat) (start : Scene) : Bool → Scene → Prop
  | unasked : Reasked w start false start
  | ask {edited : Bool} {s : Scene} {d : Dialog} (before : Reasked w start edited s)
      (h : s.dialog? w = some d) (token : Token) (amid : List Occurrence → List Occurrence) :
      Reasked w start
        (edited || (amid d.reader.load.read.1).any
          (·.edits d.prompt.inputConfig.ignoreHintKeys))
        (s.ask w token amid).2
  | meanwhile {edited : Bool} {s s' : Scene} (before : Reasked w start edited s)
      (same : (s'.dialog? w).map (·.prompt) = (s.dialog? w).map (·.prompt)) :
      Reasked w start edited s'

/-- An asking leaves a prompt that reads as before, and keeps nothing if nothing was edited. -/
theorem keeps_ask {edited : Bool} (h : s.dialog? w = some d)
    (keeps : d.prompt.Keeps edited d.prompt.inputConfig) (token : Token)
    (amid : List Occurrence → List Occurrence) :
    (s.ask w token amid).2.Holds w fun p => p.Keeps
      (edited || (amid d.reader.load.read.1).any (·.edits d.prompt.inputConfig.ignoreHintKeys))
      d.prompt.inputConfig := by
  generalize hnow : (edited || (amid d.reader.load.read.1).any
    (·.edits d.prompt.inputConfig.ignoreHintKeys)) = now
  have opened : d.prompt.Keeps now d.prompt.inputConfig := by
    refine ⟨rfl, keeps.pictured, fun hunedited => keeps.kept ?_⟩
    rw [hunedited, Bool.or_eq_false_iff] at hnow
    exact hnow.1
  refine holds_ask (Q := fun event => now = false → event.value = d.prompt.inputConfig.initialValue)
    h (fun event p unedited keeps => keeps.press unedited)
    (fun event summons unedited hnow => (summons.value_event event).trans (unedited hnow)) ?_
    (fun _ => rfl) (opened.withPhase _) token
  intro event key hkey unedited hunedited
  rw [hunedited, Bool.or_eq_false_iff] at hnow
  have hedits := List.any_eq_false.mp hnow.2 _ hkey
  exact (event.value_press (Bool.eq_false_iff.mpr hedits)).trans (unedited hunedited)

theorem Reasked.keeps {start : Scene} {edited : Bool} {config : InputConfig}
    (history : Reasked w start edited s) (fresh : start.Holds w fun p => p.Keeps false config) :
    s.Holds w fun p => p.Keeps edited config := by
  induction history with
  | unasked => exact fresh
  | ask before h token amid ih =>
      -- The asking is of the dialog as the history left it, which is the one that the invariant
      -- speaks of.
      obtain ⟨d, hd, keeps⟩ := ih
      obtain rfl := Option.some.inj (hd.symm.trans h)
      obtain rfl := keeps.reads
      exact keeps_ask h keeps token amid
  | meanwhile before same ih =>
      obtain ⟨d, hd, keeps⟩ := ih
      rw [hd, Option.map_some] at same
      obtain ⟨d', hd', hprompt⟩ := Option.map_eq_some_iff.mp same
      exact ⟨d', hd', hprompt ▸ keeps⟩

theorem heard_submits {answer : Prompt.Answer} (h : s.dialog? w = some d) (c : CanvasRef)
    (submits : d.prompt.submitted? = some answer) :
    ∃ s', promptListener w c (d.prompt.firstEvent .enter) s = ({ goOn := .ok false }, s') ∧
      s'.Holds w fun p => p.answer = .ok answer := by
  have hsubmits := d.prompt.submits_firstEvent
  have hresponse := response_promptListener h c (d.prompt.firstEvent .enter)
  have hheld : (promptListener w c (d.prompt.firstEvent .enter) s).2.Holds w fun p =>
      p = (d.prompt.press (d.prompt.firstEvent .enter)).2 :=
    Holds.follow (P := (· = d.prompt)) ⟨d, h, rfl⟩ c fun p heq => heq ▸ rfl
  rw [submits] at hsubmits
  generalize d.prompt.press (d.prompt.firstEvent .enter) = pressed at hsubmits hresponse hheld
  cases hsubmits with
  | taken hanswer =>
      obtain ⟨d', hd', hp⟩ := hheld
      exact ⟨_, Prod.ext hresponse rfl, d', hd', (congrArg Prompt.answer hp).trans hanswer⟩

/-- If Enter as the first key submits an answer, a reading of keys that succeeds ends with it. -/
theorem answer_readKeys {i : Interaction} {kb : Keyboard} {amid : List Occurrence → List Occurrence}
    {passing rest : List Occurrence} {answer : Prompt.Answer} (h : s.dialog? i.widget = some d)
    (reads : i.config = d.prompt.inputConfig)
    (first : amid kb.read.1 = passing ++ .key .enter :: rest)
    (passes : ∀ o ∈ passing, o.passes = true) (submits : d.prompt.submitted? = some answer)
    (token : Token) (answered : (i.readKeys amid token (kb, s)).1 = .ok ()) :
    (i.readKeys amid token (kb, s)).2.2.Holds i.widget fun p => p.answer = .ok answer := by
  rw [Interaction.readKeys, listenAmid] at answered ⊢
  dsimp only at answered ⊢
  split at answered
  · cases answered
  rename_i present
  rw [if_neg present]
  split at answered
  · cases answered
  · rw [first, List.append_assoc, List.cons_append] at answered ⊢
    dsimp only at answered ⊢
    rcases Input.loop_firstKey passes
      (.key .enter :: (rest ++ Input.awaited kb.source.script.ending token s.watch))
      ⟨s.watch, { value := i.config.initialValue }, s⟩ with
      ⟨failure, s', hfailed⟩ | ⟨watch, uncalled, hloop⟩
    · rw [hfailed] at answered
      cases answered
    · obtain ⟨s', hheard, hanswer⟩ := heard_submits h i.canvas submits
      have heard : promptListener i.widget i.canvas
          (KeyEvent.press { value := i.config.initialValue } i.config.ignoreHintKeys .enter) s =
          ({ goOn := .ok false }, s') := by
        rw [reads]
        exact hheard
      have answers : Input.loop (promptListener i.widget i.canvas) i.config.ignoreHintKeys token
          (.key .enter :: (rest ++ Input.awaited kb.source.script.ending token s.watch))
          ⟨watch, { value := i.config.initialValue }, s⟩ = (.ok (), ⟨watch, _, s'⟩) :=
        Input.loop_key_answered uncalled (show Key.enter ≠ .interrupt by decide)
          (Input.State.hear_of_eq heard)
      rw [hloop, answers]
      exact hanswer.of_widgets rfl

theorem answer_attempt {i : Interaction} {kb : Keyboard} {amid : List Occurrence → List Occurrence}
    {passing rest : List Occurrence} {answer : Prompt.Answer} (h : s.dialog? i.widget = some d)
    (reads : i.config = d.prompt.inputConfig)
    (first : amid kb.read.1 = passing ++ .key .enter :: rest)
    (passes : ∀ o ∈ passing, o.passes = true) (submits : d.prompt.submitted? = some answer)
    (token : Token) (answered : (i.attempt amid token kb s).1 = .ok ()) :
    (i.attempt amid token kb s).2.2.Holds i.widget fun p => p.answer = .ok answer := by
  have drawn : ((s.cursorHidden i).run i.canvas).2.dialog? i.widget = some d :=
    (dialog?_of_widgets ((widgets_run _ _).trans (widgets_cursorHidden s i)) _).trans h
  have course := i.course_attempt amid token kb s
  generalize i.attempt amid token kb s = tried at course answered ⊢
  cases course with
  | unhidden | undrawn => cases answered
  | read =>
      have hread := Interaction.finish_of_ok answered
      obtain ⟨token', htoken⟩ := Token.askWithin_of_ok hread
      rw [htoken] at hread ⊢
      exact Interaction.holds_finish (answer_readKeys drawn reads first passes submits token' hread)

theorem answer_ask (h : s.dialog? w = some d) (token : Token)
    {amid : List Occurrence → List Occurrence} {passing rest : List Occurrence}
    (first : amid d.reader.load.read.1 = passing ++ .key .enter :: rest)
    (passes : ∀ o ∈ passing, o.passes = true) {submitted answer : Prompt.Answer}
    (submits : (d.prompt.withPhase .interacting).submitted? = some submitted)
    (answered : (s.ask w token amid).1 = .ok answer) : answer = submitted := by
  obtain ⟨slot, hgranted⟩ := dialog?_granted h
  obtain ⟨d', after, -⟩ := phaseAgrees_ask h token amid
  rw [ask_snd h] at after
  rw [ask_fst h token amid after] at answered
  cases hasked : (s.askDialog w d token amid).1 with
  | error failure =>
      rw [hasked] at answered
      cases answered
  | ok =>
      have held := answer_attempt (i := s.interaction w d) hgranted
        (d.prompt.inputConfig_withPhase .interacting).symm first passes submits token hasked
      obtain ⟨d'', after', hanswer⟩ := held.cleanUp (s.openDialog w d).1.2
        ((s.openDialog w d).2.focus (s.openDialog w d).1.1).1
        ((s.interaction w d).attempt amid token d.reader.load (s.granted w d)).2.1
      obtain rfl := Option.some.inj (after.symm.trans after')
      rw [hasked] at answered
      exact Except.ok.inj (answered.symm.trans hanswer)

/-- A prompt that is asked, whatever history it has, hangs in its first frame as it was kept. If
Enter is the first key and submits an answer, the answer of an asking that succeeds is that one, and
it is the answer that the first frame shows if the prompt keeps the text that the keys begin from,
as it does where no key of the history edited a text. -/
theorem ask_enter {start : Scene} {edited : Bool} {config : InputConfig}
    (fresh : start.Holds w fun p => p.Keeps false config) (history : Reasked w start edited s)
    (h : s.dialog? w = some d) (token : Token) {amid : List Occurrence → List Occurrence}
    {passing rest : List Occurrence}
    (first : amid d.reader.load.read.1 = passing ++ .key .enter :: rest)
    (passes : ∀ o ∈ passing, o.passes = true) {answer : Prompt.Answer}
    (answered : (s.ask w token amid).1 = .ok answer) :
    ∃ p, p = d.prompt.withPhase .interacting ∧
      Frame.Hangs ((s.granted w d).cursorHidden (s.interaction w d)).gallery w p ∧
      (∀ submitted, p.submitted? = some submitted → answer = submitted) ∧
      (edited = false ∨ p.kept = config.initialValue →
        ∀ offered, p.offered? = some offered → answer = offered) := by
  obtain ⟨slot, hgranted⟩ := dialog?_granted h
  have hdrawn : ((s.granted w d).cursorHidden (s.interaction w d)).dialog? w =
      (s.granted w d).dialog? w :=
    dialog?_of_widgets (widgets_cursorHidden _ _) w
  have submits : ∀ submitted, (d.prompt.withPhase .interacting).submitted? = some submitted →
      answer = submitted :=
    fun _ submits => answer_ask h token first passes submits answered
  refine ⟨_, rfl, gallery_of_dialog (hdrawn.trans hgranted), submits, ?_⟩
  -- What is shown is what the keys begin from, so that Enter submits the same of both.
  intro unedited offered hoffered
  obtain ⟨d', hd', keeps⟩ := history.keeps fresh
  obtain rfl := Option.some.inj (hd'.symm.trans h)
  have opened := keeps.withPhase .interacting
  have hkept : (d'.prompt.withPhase .interacting).kept =
      (d'.prompt.withPhase .interacting).inputConfig.initialValue := by
    rw [opened.reads]
    rcases unedited with hedited | hkept
    · exact opened.kept hedited
    · exact hkept
  exact submits offered ((Prompt.offered?_of_kept hkept opened.pictured).symm.trans hoffered)

/-- A prompt that is asked twice, the second time with nothing but Enter. -/
def twice (p : Prompt) (keys : List Key) : Scene :=
  let s : Scene := (newCanvas {} 0 { visuals := [], width := .fixed 40 }).2
  (s.newWidget (.dialog
    { prompt := p, slot := .owned {}
      keyboard := some { scripts := [.ofKeys keys, .ofKeys [.enter]] } })).2.attach 0 0

def fruit : Prompt :=
  .select (Prompt.Select.ofChoices "Pick"
    (.ofEntries [⟨"apple", "apple"⟩, ⟨"banana", "banana"⟩] 6 false) (some 0))

def onceMoved : Scene := ((twice fruit [.down, .enter]).ask 0 ⟨0, none⟩).2

/-- A row that was chosen is shown and chosen again. -/
theorem ask_enter_movedRow :
    (twice fruit [.down, .enter]).Holds 0 (fun p => p.Keeps false {}) ∧
      Reasked 0 (twice fruit [.down, .enter]) false onceMoved ∧
      ∃ d, onceMoved.dialog? 0 = some d ∧
        id d.reader.load.read.1 = [] ++ .key .enter :: [.closed] ∧
        (onceMoved.ask 0 ⟨0, none⟩).1 = .ok (.index 1) ∧
        ∀ offered, (d.prompt.withPhase .interacting).offered? = some offered →
          .index 1 = offered := by
  have fresh : (twice fruit [.down, .enter]).Holds 0 fun p => p.Keeps false {} :=
    ⟨_, rfl, Prompt.keeps_ofChoices _ _ _ _ _⟩
  have history : Reasked 0 (twice fruit [.down, .enter]) false onceMoved := by
    have before : Reasked 0 (twice fruit [.down, .enter]) false _ := .unasked
    have asked := before.ask rfl ⟨0, none⟩ id
    convert asked using 1
    · decide +kernel
    · rfl
  have hd : (onceMoved.dialog? 0).map (fun d => d.reader.load.read.1) =
      some [.key .enter, .closed] := by decide +kernel
  obtain ⟨d, hd, hkeys⟩ := Option.map_eq_some_iff.mp hd
  have answered : (onceMoved.ask 0 ⟨0, none⟩).1 = .ok (.index 1) := by decide +kernel
  have first : id d.reader.load.read.1 = [] ++ .key .enter :: [.closed] := hkeys
  obtain ⟨p, rfl, -, -, shown⟩ := ask_enter fresh history hd ⟨0, none⟩ first nofun answered
  exact ⟨fresh, history, d, hd, first, answered, shown (Or.inl rfl)⟩

/-- The first frame of the second asking offers one answer, and Enter gives another. -/
def Forgets (p : Prompt) (keys : List Key) (offered given : Prompt.Answer) : Prop :=
  let s := ((twice p keys).ask 0 ⟨0, none⟩).2
  (∃ d, s.dialog? 0 = some d ∧ d.reader.load.read.1 = [.key .enter, .closed] ∧
      (d.prompt.withPhase .interacting).offered? = some offered) ∧
    (s.ask 0 ⟨0, none⟩).1 = .ok given ∧ offered ≠ given

/-- Text that was edited is shown again and not submitted: a line, an answer in words, and the row
that a filter left. -/
theorem ask_forgetsText :
    Forgets (.line { message := "Name" }) [.char 'A', .enter] (.text "A") (.text []) ∧
    Forgets (.confirm { message := "Go?", default := some true }) [.char 'n', .enter]
      (.yesNo false) (.yesNo true) ∧
    Forgets fruit [.char 'b', .enter] (.index 1) (.index 0) := by
  have forgets {p : Prompt} {keys : List Key} {offered given : Prompt.Answer}
      (hkeys : (((twice p keys).ask 0 ⟨0, none⟩).2.dialog? 0).map (fun d => d.reader.load.read.1) =
        some [.key .enter, .closed])
      (hoffered : (((twice p keys).ask 0 ⟨0, none⟩).2.dialog? 0).map
        (fun d => (d.prompt.withPhase .interacting).offered?) = some (some offered))
      (hgiven : (((twice p keys).ask 0 ⟨0, none⟩).2.ask 0 ⟨0, none⟩).1 = .ok given)
      (hne : offered ≠ given) : Forgets p keys offered given := by
    obtain ⟨d, hd, hkeys⟩ := Option.map_eq_some_iff.mp hkeys
    rw [hd, Option.map_some, Option.some.injEq] at hoffered
    exact ⟨⟨d, hd, hkeys, hoffered⟩, hgiven, hne⟩
  refine ⟨forgets ?_ ?_ ?_ nofun, forgets ?_ ?_ ?_ nofun, forgets ?_ ?_ ?_ nofun⟩ <;> decide +kernel

end Scene

end Inlay
