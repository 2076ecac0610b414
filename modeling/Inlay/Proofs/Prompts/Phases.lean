import Inlay.Proofs.Keyboard.Endings
import Inlay.Proofs.Prompts.Calm
import Inlay.Proofs.Scene.Asking

namespace Inlay

open Keyboard

namespace Prompt

theorem phase_withPhase (p : Prompt) (phase : Phase) : (p.withPhase phase).phase = phase := by
  cases p with
  | confirm c | line l | select s | multiSelect m => rfl

/-- How a prompt may take the event of a key: it reads on in its phase, or it is complete and has an
answer. -/
inductive Takes (before : Prompt) : Bool × Prompt → Prop
  | readsOn {p : Prompt} (phase : p.phase = before.phase) : Takes before (true, p)
  | submits {p : Prompt} (answer : Answer) (complete : p.phase = .complete)
      (answered : p.answer = .ok answer) : Takes before (false, p)

variable {event : KeyEvent}

theorem takes_confirm (calm : event.isCalm = true) (c : Confirm) :
    Takes (.confirm c) ((Prompt.confirm c).press event) := by
  rw [Prompt.press, Confirm.press_of_calm calm]
  dsimp only
  split
  · split
    · exact .submits (.yesNo _) rfl rfl
    · exact .readsOn rfl
  · exact .readsOn rfl

theorem takes_line (calm : event.isCalm = true) (l : Line) :
    Takes (.line l) ((Prompt.line l).press event) := by
  rw [Prompt.press, Line.press_of_calm calm]
  dsimp only
  split
  · split
    · exact .submits _ rfl rfl
    · exact .readsOn rfl
  · exact .readsOn rfl

theorem takes_select (calm : event.isCalm = true) (s : Select) :
    Takes (.select s) ((Prompt.select s).press event) := by
  rw [Prompt.press, Select.press_of_calm calm]
  dsimp only
  generalize Select.move (narrowed s.filtering s.list event.value) event.key = list
  split
  · rename_i entered
    obtain ⟨index, hindex⟩ := Option.isSome_iff_exists.mp entered.2
    refine .submits (.index index) rfl ?_
    rw [hindex]
    rfl
  · exact .readsOn rfl

theorem takes_pressKey {before m : MultiSelect} (phase : m.phase = before.phase)
    (key : Option Key) : Takes (.multiSelect before) ((m.pressKey key).map id .multiSelect) := by
  unfold MultiSelect.pressKey
  split
  · exact .readsOn phase
  · exact .readsOn phase
  · split
    · exact .readsOn phase
    · exact .readsOn phase
  · exact .readsOn phase
  · exact .readsOn phase
  · dsimp only
    split
    · exact .submits _ rfl rfl
    · exact .readsOn phase
  · exact .readsOn phase

theorem takes_multiSelect (calm : event.isCalm = true) (m : MultiSelect) :
    Takes (.multiSelect m) ((Prompt.multiSelect m).press event) := by
  rw [Prompt.press, MultiSelect.press_of_calm calm]
  refine takes_pressKey ?_ event.key
  rfl

/-- A key leaves a prompt in its phase, or the prompt is complete and has an answer. -/
theorem takes_press (calm : event.isCalm = true) (p : Prompt) : Takes p (p.press event) := by
  cases p with
  | confirm c => exact takes_confirm calm c
  | line l => exact takes_line calm l
  | select s => exact takes_select calm s
  | multiSelect m => exact takes_multiSelect calm m

/-- The phase of a prompt that was called off. -/
def calledOff : Summons → Phase
  | .cancelled => .cancelled
  | .timedOut => .timedOut

theorem phase_press_called (calm : event.isCalm = true) (summons : Summons) (p : Prompt) :
    (p.press (summons.event event)).2.phase = calledOff summons := by
  have hcancelled : event.cancelled = false := Summons.marks_of_calm calm .cancelled
  cases summons with
  | cancelled => cases p <;> rfl
  | timedOut =>
      have hpassed : (Summons.timedOut.event event).cancelled = false := hcancelled
      cases p with
      | confirm c => rw [Prompt.press, Confirm.press, hpassed]; rfl
      | line l => rw [Prompt.press, Line.press, hpassed]; rfl
      | select s => rw [Prompt.press, Select.press, hpassed]; rfl
      | multiSelect m => rw [Prompt.press, MultiSelect.press, hpassed]; rfl

end Prompt

namespace Scene

variable {w : Nat} {c : CanvasRef} {s s' : Scene} {d : Dialog}

/-- The scene in which the first frame is drawn. -/
def cursorHidden (s : Scene) (i : Interaction) : Scene :=
  if i.hidesCursor then (s.hideCursor i.canvas).2 else s

theorem widgets_cursorHidden (s : Scene) (i : Interaction) :
    (s.cursorHidden i).widgets = s.widgets := by
  unfold cursorHidden
  split
  · exact widgets_writeSequence s i.canvas _
  · rfl

namespace Interaction

/-- What follows the reading of keys: a prompt that was answered may clear its canvas. -/
def finish (i : Interaction) : Except Failure Unit × Keyboard × Scene →
    Except Failure Unit × Keyboard × Scene
  | (.error failure, kb, s) => (.error failure, kb, s)
  | (.ok (), kb, s) =>
      if i.clearsOnCompletion then ((s.clear i.canvas).1, kb, (s.clear i.canvas).2)
      else (.ok (), kb, s)

/-- The courses of an attempt: the cursor cannot be hidden, the first frame fails, or keys are
read. -/
inductive Course (i : Interaction) (amid : List Occurrence → List Occurrence) (token : Token)
    (kb : Keyboard) (s : Scene) : Except Failure Unit × Keyboard × Scene → Prop
  | unhidden {failure : Failure} (hides : i.hidesCursor = true)
      (hidden : (s.hideCursor i.canvas).1 = .error failure) :
      Course i amid token kb s (.error failure, kb, s.cursorHidden i)
  | undrawn {failure : Failure} (drawn : ((s.cursorHidden i).run i.canvas).1 = .error failure) :
      Course i amid token kb s (.error failure, kb, ((s.cursorHidden i).run i.canvas).2)
  | read (hidden : i.hidesCursor = true → (s.hideCursor i.canvas).1 = .ok ())
      (drawn : ((s.cursorHidden i).run i.canvas).1 = .ok ()) :
      Course i amid token kb s (i.finish (token.askWithin i.limit
        ((s.cursorHidden i).run i.canvas).2.watch.now (i.readKeys amid)
        (kb, ((s.cursorHidden i).run i.canvas).2)))

section

variable {i : Interaction} {amid : List Occurrence → List Occurrence} {token : Token}
  {kb : Keyboard}

theorem attempt_of_unhidden {failure : Failure} (hides : i.hidesCursor = true)
    (hidden : (s.hideCursor i.canvas).1 = .error failure) :
    i.attempt amid token kb s = (.error failure, kb, s.cursorHidden i) := by
  rw [attempt, cursorHidden, hides]
  dsimp only
  rw [if_pos rfl, if_pos rfl, hidden]

theorem attempt_of_hidden (hidden : i.hidesCursor = true → (s.hideCursor i.canvas).1 = .ok ()) :
    i.attempt amid token kb s =
      match (s.cursorHidden i).run i.canvas with
      | (.error failure, s) => (.error failure, kb, s)
      | (.ok (), s) =>
          i.finish (token.askWithin i.limit s.watch.now (i.readKeys amid) (kb, s)) := by
  have before : (if i.hidesCursor then s.hideCursor i.canvas else (.ok (), s)) =
      (.ok (), s.cursorHidden i) := by
    unfold cursorHidden
    split
    · rename_i hides
      exact Prod.ext (hidden hides) rfl
    · rfl
  rw [attempt, before]
  dsimp only
  generalize (s.cursorHidden i).run i.canvas = ran
  obtain ⟨result, s'⟩ := ran
  cases result with
  | error failure => rfl
  | ok =>
      dsimp only
      generalize token.askWithin i.limit s'.watch.now (i.readKeys amid) (kb, s') = read
      obtain ⟨result, kb', s''⟩ := read
      cases result with
      | error failure => rfl
      | ok => rfl

theorem attempt_of_undrawn {failure : Failure}
    (hidden : i.hidesCursor = true → (s.hideCursor i.canvas).1 = .ok ())
    (drawn : ((s.cursorHidden i).run i.canvas).1 = .error failure) :
    i.attempt amid token kb s = (.error failure, kb, ((s.cursorHidden i).run i.canvas).2) := by
  rw [attempt_of_hidden hidden]
  generalize (s.cursorHidden i).run i.canvas = ran at drawn ⊢
  obtain ⟨result, s'⟩ := ran
  obtain rfl : result = .error failure := drawn
  rfl

theorem attempt_of_drawn
    (hidden : i.hidesCursor = true → (s.hideCursor i.canvas).1 = .ok ())
    (drawn : ((s.cursorHidden i).run i.canvas).1 = .ok ()) :
    i.attempt amid token kb s = i.finish (token.askWithin i.limit
      ((s.cursorHidden i).run i.canvas).2.watch.now (i.readKeys amid)
      (kb, ((s.cursorHidden i).run i.canvas).2)) := by
  rw [attempt_of_hidden hidden]
  generalize (s.cursorHidden i).run i.canvas = ran at drawn ⊢
  obtain ⟨result, s'⟩ := ran
  obtain rfl : result = .ok () := drawn
  rfl

end

theorem course_attempt (i : Interaction) (amid : List Occurrence → List Occurrence) (token : Token)
    (kb : Keyboard) (s : Scene) : Course i amid token kb s (i.attempt amid token kb s) := by
  by_cases hidden : i.hidesCursor = true → (s.hideCursor i.canvas).1 = .ok ()
  · cases drawn : ((s.cursorHidden i).run i.canvas).1 with
    | error failure =>
        rw [attempt_of_undrawn hidden drawn]
        exact .undrawn drawn
    | ok =>
        rw [attempt_of_drawn hidden drawn]
        exact .read hidden drawn
  · obtain ⟨hides, unhidden⟩ := Classical.not_imp.mp hidden
    cases hfailure : (s.hideCursor i.canvas).1 with
    | error failure =>
        rw [attempt_of_unhidden hides hfailure]
        exact .unhidden hides hfailure
    | ok => exact absurd hfailure unhidden

/-- What follows two readings goes alike if they and the erasures do. -/
theorem finish_alike {R : Keyboard × Scene → Keyboard × Scene → Prop} {i : Interaction}
    (cleared : i.clearsOnCompletion = true → ∀ {left left' : Keyboard × Scene}, R left left' →
      (left'.2.clear i.canvas).1 = (left.2.clear i.canvas).1 ∧
        R (left.1, (left.2.clear i.canvas).2) (left'.1, (left'.2.clear i.canvas).2))
    {read read' : Except Failure Unit × Keyboard × Scene} (result : read'.1 = read.1)
    (left : R read.2 read'.2) :
    (i.finish read').1 = (i.finish read).1 ∧ R (i.finish read).2 (i.finish read').2 := by
  obtain ⟨result₁, left₁⟩ := read
  obtain ⟨result₂, left₂⟩ := read'
  obtain rfl : result₂ = result₁ := result
  unfold finish
  cases result₂ with
  | error failure => exact ⟨rfl, left⟩
  | ok =>
      dsimp only
      split
      · rename_i clears
        exact cleared clears left
      · exact ⟨rfl, left⟩

/-- Two attempts go alike if everything in them does: hiding the cursor, the first frame, a reading
of keys under any token, and the last erasure. -/
theorem attempt_alike {R : Keyboard × Scene → Keyboard × Scene → Prop} (i : Interaction)
    (config' : InputConfig) {amid amid' : List Occurrence → List Occurrence} {kb kb' : Keyboard}
    {s s' : Scene}
    (hidden : i.hidesCursor = true → (s'.hideCursor i.canvas).1 = (s.hideCursor i.canvas).1)
    (unhidden : R (kb, s.cursorHidden i) (kb', s'.cursorHidden i))
    (drawn : ((s'.cursorHidden i).run i.canvas).1 = ((s.cursorHidden i).run i.canvas).1)
    (start : R (kb, ((s.cursorHidden i).run i.canvas).2)
      (kb', ((s'.cursorHidden i).run i.canvas).2))
    (now : ((s'.cursorHidden i).run i.canvas).2.watch.now =
      ((s.cursorHidden i).run i.canvas).2.watch.now)
    (read : ∀ token,
      (({ i with config := config' } : Interaction).readKeys amid' token
          (kb', ((s'.cursorHidden i).run i.canvas).2)).1 =
        (i.readKeys amid token (kb, ((s.cursorHidden i).run i.canvas).2)).1 ∧
      R (i.readKeys amid token (kb, ((s.cursorHidden i).run i.canvas).2)).2
        (({ i with config := config' } : Interaction).readKeys amid' token
          (kb', ((s'.cursorHidden i).run i.canvas).2)).2)
    (cleared : i.clearsOnCompletion = true → ∀ {left left' : Keyboard × Scene}, R left left' →
      (left'.2.clear i.canvas).1 = (left.2.clear i.canvas).1 ∧
        R (left.1, (left.2.clear i.canvas).2) (left'.1, (left'.2.clear i.canvas).2))
    (token : Token) :
    (({ i with config := config' } : Interaction).attempt amid' token kb' s').1 =
        (i.attempt amid token kb s).1 ∧
      R (i.attempt amid token kb s).2
        (({ i with config := config' } : Interaction).attempt amid' token kb' s').2 := by
  by_cases willing : i.hidesCursor = true → (s.hideCursor i.canvas).1 = .ok ()
  · have willing' (hides : i.hidesCursor = true) : (s'.hideCursor i.canvas).1 = .ok () :=
      (hidden hides).trans (willing hides)
    cases hrun : ((s.cursorHidden i).run i.canvas).1 with
    | error failure =>
        rw [attempt_of_undrawn willing hrun,
          attempt_of_undrawn (i := { i with config := config' }) willing' (drawn.trans hrun)]
        exact ⟨rfl, start⟩
    | ok =>
        have asked := Token.askWithin_alike _ _ read start token i.limit
          ((s.cursorHidden i).run i.canvas).2.watch.now
        have tried' : ({ i with config := config' } : Interaction).attempt amid' token kb' s' =
            i.finish (token.askWithin i.limit ((s'.cursorHidden i).run i.canvas).2.watch.now
              (({ i with config := config' } : Interaction).readKeys amid')
              (kb', ((s'.cursorHidden i).run i.canvas).2)) :=
          attempt_of_drawn (i := { i with config := config' }) willing' (drawn.trans hrun)
        rw [attempt_of_drawn willing hrun, tried', now]
        exact finish_alike cleared asked.1 asked.2
  · obtain ⟨hides, failed⟩ := Classical.not_imp.mp willing
    cases hfailure : (s.hideCursor i.canvas).1 with
    | error failure =>
        rw [attempt_of_unhidden hides hfailure, attempt_of_unhidden
          (i := { i with config := config' }) hides ((hidden hides).trans hfailure)]
        exact ⟨rfl, unhidden⟩
    | ok => exact absurd hfailure failed

end Interaction

/-- What is known of a scene and the prompt that is asked in it, so that the listener's repaints and
the passing of time keep it. -/
structure Watched (w : Nat) (c : CanvasRef) (V : Scene → Prompt → Prop) : Prop where
  follow : ∀ {s : Scene} {d : Dialog} (p : Prompt), s.dialog? w = some d → V s d.prompt →
    V ((s.modifyDialog w fun d => { d with prompt := p }).update c).2 p
  wait : ∀ {s : Scene} {p : Prompt} (watch : Watch), V s p → V { s with watch := watch } p

/-- A scene in which the dialog `d` is asked and its prompt is such as `P` tells. -/
def Asked (w : Nat) (d : Dialog) (V : Scene → Prompt → Prop) (P : Prompt → Prop) (s : Scene) :
    Prop :=
  ∃ p, s.dialog? w = some { d with prompt := p } ∧ P p ∧ V s p

/-- The prompt is open, or complete with an answer, or called off. -/
def askedKinds (w : Nat) (d : Dialog) (V : Scene → Prompt → Prop) : Kinds Scene where
  ongoing := Asked w d V fun p => p.phase = .interacting
  answered := Asked w d V fun p => p.phase = .complete ∧ ∃ answer, p.answer = .ok answer
  called summons := Asked w d V fun p => p.phase = Prompt.calledOff summons

variable {V : Scene → Prompt → Prop} {P : Prompt → Prop}

theorem asked_follow (watched : Watched w c V) (h : Asked w d V P s) {event : KeyEvent}
    {P' : Prompt → Prop} (pressed : ∀ p, P p → P' (p.press event).2) :
    Asked w d V P' (promptListener w c event s).2 := by
  obtain ⟨p, hd, hp, hv⟩ := h
  rw [promptListener, hd]
  refine ⟨(p.press event).2, ?_, pressed p hp, watched.follow _ hd hv⟩
  rw [dialog?_of_widgets (widgets_update _ c), dialog?_modifyDialog hd]

theorem response_promptListener (hd : s.dialog? w = some d) (c : CanvasRef) (event : KeyEvent) :
    (promptListener w c event s).1 = { goOn := .ok (d.prompt.press event).1 } := by
  rw [promptListener, hd]

theorem kept_promptListener (watched : Watched w c V) :
    (askedKinds w d V).Kept (promptListener w c) := by
  constructor
  case pressed =>
    rintro event s calm ⟨p, hd, hphase, hv⟩
    refine ⟨(p.press event).1, by rw [response_promptListener hd], ?_⟩
    have htakes := p.takes_press calm
    have followed : Asked w d V (fun p' => p' = (p.press event).2) (promptListener w c event s).2 :=
      asked_follow watched (P := (· = p)) ⟨p, hd, rfl, hv⟩ fun _ heq => heq ▸ rfl
    obtain ⟨p', hd', rfl, hv'⟩ := followed
    generalize p.press event = taken at htakes hd' hv' ⊢
    cases htakes with
    | readsOn phase => exact ⟨_, hd', phase.trans hphase, hv'⟩
    | submits answer complete answered => exact ⟨_, hd', ⟨complete, _, answered⟩, hv'⟩
  case called =>
    intro event s summons calm h
    exact asked_follow watched h fun p _ => p.phase_press_called calm summons

theorem asked_wait (watched : Watched w c V) (h : Asked w d V P s) (watch : Watch) :
    Asked w d V P { s with watch := watch } := by
  obtain ⟨p, hd, hp, hv⟩ := h
  exact ⟨p, hd, hp, watched.wait watch hv⟩

namespace Interaction

variable {i : Interaction} {kb : Keyboard}

theorem ends_readKeys (watched : Watched i.widget i.canvas V)
    (amid : List Occurrence → List Occurrence) (token : Token)
    (start : (askedKinds i.widget d V).ongoing s) :
    (askedKinds i.widget d V).Ends (i.readKeys amid token (kb, s)).1
      (i.readKeys amid token (kb, s)).2.2 := by
  have listened := (kept_promptListener watched).listenAmid kb i.config amid token s.watch start
  exact listened.of_kinds (fun h => asked_wait watched h _) (fun h => asked_wait watched h _)
    fun _ h => asked_wait watched h _

end Interaction

theorem summons?_asOutput {result : Except Fault Unit} {failure : Failure}
    (h : asOutput result = .error failure) : failure.summons? = none := by
  cases result with
  | ok => cases h
  | error fault => cases h; rfl

theorem clear_eq_error {failure : Failure} (h : (s.clear c).1 = .error failure) :
    ∃ fault, failure = .output fault := by
  unfold clear at h
  split at h
  · generalize s.eraseUnlessClosed c = erased at h
    obtain ⟨result, s'⟩ := erased
    cases result with
    | ok => cases h
    | error fault => exact ⟨fault, (Except.error.inj h).symm⟩
  · cases h

theorem summons?_hideCursor {failure : Failure} (h : (s.hideCursor c).1 = .error failure) :
    failure.summons? = none := by
  unfold hideCursor writeSequence at h
  split at h
  · cases h
  · exact summons?_asOutput h

theorem summons?_run {failure : Failure} (h : (s.run c).1 = .error failure) :
    failure.summons? = none := by
  unfold run update repaintUnlessClosed at h
  split at h
  · split at h
    · cases h
    · split at h
      · cases h
      · unfold Canvas.repaint at h
        dsimp only at h
        split at h
        · cases h; rfl
        · cases h; rfl
        · cases h
  · cases h

namespace Interaction

variable {i : Interaction} {kb : Keyboard}

/-- An attempt is a reading of keys, or what stands for one where the first frame was not drawn,
and what follows it. -/
theorem ends_attempt (watched : Watched i.widget i.canvas V)
    (amid : List Occurrence → List Occurrence) (token : Token) (kb : Keyboard)
    (unhidden : ∀ failure, (s.hideCursor i.canvas).1 = .error failure → i.hidesCursor = true →
      (askedKinds i.widget d V).ongoing (s.cursorHidden i))
    (drawn : (askedKinds i.widget d V).ongoing ((s.cursorHidden i).run i.canvas).2) :
    ∃ read : Except Failure Unit × Keyboard × Scene,
      (askedKinds i.widget d V).Ends read.1 read.2.2 ∧
        i.attempt amid token kb s = i.finish read := by
  have failed {failure : Failure} {s : Scene} (h : failure.summons? = none)
      (start : (askedKinds i.widget d V).ongoing s) :
      (askedKinds i.widget d V).Ends (.error failure) s := by
    change Kinds.Failed _ s failure.summons?
    rw [h]
    exact start
  have course := course_attempt i amid token kb s
  generalize i.attempt amid token kb s = tried at course ⊢
  cases course with
  | unhidden hides hidden =>
      exact ⟨(.error _, kb, _), failed (summons?_hideCursor hidden) (unhidden _ hidden hides), rfl⟩
  | undrawn h => exact ⟨(.error _, kb, _), failed (summons?_run h) drawn, rfl⟩
  | read hidden h =>
      exact ⟨_, Token.ends_askWithin Prod.snd
        (fun token => ends_readKeys watched amid token drawn) drawn token _ _, rfl⟩

end Interaction

/-- A keyboard that comes back changes nothing else. -/
theorem returnKeyboard_eq (d : Dialog) (kb : Keyboard) :
    ∃ keyboard, d.returnKeyboard kb = { d with keyboard := keyboard } := by
  unfold Dialog.returnKeyboard
  split
  · split
    · exact ⟨d.keyboard, rfl⟩
    · exact ⟨some kb, rfl⟩
  · exact ⟨d.keyboard, rfl⟩

theorem prompt_cleanUp {i : Interaction} (h : s.dialog? i.widget = some d) (owned : Bool)
    (guard : FocusGuard) (kb : Keyboard) :
    ∃ d', (s.cleanUp i owned guard kb).dialog? i.widget = some d' ∧ d'.prompt = d.prompt := by
  have shown : (s.cursorShown i).dialog? i.widget = some d := by
    unfold cursorShown
    split
    · exact (dialog?_of_widgets (widgets_writeSequence s i.canvas _) i.widget).trans h
    · exact h
  have handed : (s.handedBack i guard kb).dialog? i.widget = some (d.returnKeyboard kb) :=
    dialog?_modifyDialog shown _
  obtain ⟨keyboard, hreturned⟩ := returnKeyboard_eq d kb
  refine ⟨_, ?_, (congrArg Dialog.prompt hreturned).trans rfl⟩
  rw [cleanUp_eq]
  split
  · exact handed
  · exact handed

theorem ask_fst {d' : Dialog} (h : s.dialog? w = some d) (token : Token)
    (amid : List Occurrence → List Occurrence)
    (after : (s.askDialog w d token amid).2.dialog? w = some d') :
    (s.ask w token amid).1 = (s.askDialog w d token amid).1.bind fun _ => d'.prompt.answer := by
  rw [ask, h]
  dsimp only
  split
  · rename_i hasked
    rw [hasked]
    rfl
  · rename_i hasked
    rw [hasked] at after ⊢
    rw [after]
    rfl

/-- How the result of an asking and the phase of the prompt go together. -/
structure PhaseAgrees (clears : Bool) (result : Except Failure Prompt.Answer)
    (phase : Prompt.Phase) : Prop where
  answered : ∀ answer, result = .ok answer → phase = .complete
  cancelled : result = .error .cancelled ↔ phase = .cancelled
  timedOut : ((∃ limit, result = .error (.timeout limit)) ∨ result = .error .deadlineExceeded) ↔
    phase = .timedOut
  /-- Only the last erasure can fail once the prompt is complete. -/
  failed : ∀ failure, result = .error failure → failure.summons? = none →
    phase = .interacting ∨ clears = true ∧ phase = .complete ∧ ∃ fault, failure = .output fault

namespace PhaseAgrees

variable {clears : Bool} {failure : Failure}

theorem of_answer (clears : Bool) (answer : Prompt.Answer) :
    PhaseAgrees clears (.ok answer) .complete :=
  ⟨fun _ _ => rfl, ⟨nofun, nofun⟩, ⟨by simp, nofun⟩, nofun⟩

theorem of_called {summons : Summons} (h : failure.summons? = some summons) :
    PhaseAgrees clears (.error failure) (Prompt.calledOff summons) := by
  have reported : ∀ failure', Except.error (α := Prompt.Answer) failure = .error failure' →
      failure'.summons? ≠ none := by
    rintro failure' ⟨⟩
    rw [h]
    exact nofun
  cases failure with
  | cancelled | timeout limit | deadlineExceeded =>
      cases h
      exact ⟨nofun, by simp [Prompt.calledOff], by simp [Prompt.calledOff],
        fun failure' heq hnone => absurd hnone (reported failure' heq)⟩
  | output | keyboard | render | tasks | clockOverflow => cases h

theorem of_failed {phase : Prompt.Phase} (h : failure.summons? = none)
    (found : phase = .interacting ∨
      clears = true ∧ phase = .complete ∧ ∃ fault, failure = .output fault) :
    PhaseAgrees clears (.error failure) phase := by
  constructor
  case answered => exact nofun
  case cancelled =>
    constructor
    · intro heq
      obtain rfl := Except.error.inj heq
      cases h
    · rintro rfl
      simp at found
  case timedOut =>
    constructor
    · rintro (⟨limit, heq⟩ | heq)
      · obtain rfl := Except.error.inj heq
        cases h
      · obtain rfl := Except.error.inj heq
        cases h
    · rintro rfl
      simp at found
  case failed =>
    rintro _ ⟨⟩ -
    exact found

end PhaseAgrees

/-- What a reading of keys leaves of the prompt goes together with its result, also if the canvas is
cleared after it. -/
theorem phaseAgrees_finish {i : Interaction} {read : Except Failure Unit × Keyboard × Scene}
    (ends : (askedKinds i.widget d V).Ends read.1 read.2.2) :
    ∃ p, (i.finish read).2.2.dialog? i.widget = some { d with prompt := p } ∧
      PhaseAgrees i.clearsOnCompletion ((i.finish read).1.bind fun _ => p.answer) p.phase := by
  obtain ⟨result, kb, s⟩ := read
  cases result with
  | error failure =>
      change Kinds.Failed _ s failure.summons? at ends
      cases hreport : failure.summons? with
      | some summons =>
          rw [hreport] at ends
          obtain ⟨p, hd, hphase, -⟩ := ends
          refine ⟨p, hd, ?_⟩
          rw [hphase]
          exact .of_called hreport
      | none =>
          rw [hreport] at ends
          obtain ⟨p, hd, hphase, -⟩ := ends
          exact ⟨p, hd, .of_failed hreport (Or.inl hphase)⟩
  | ok =>
      obtain ⟨p, hd, ⟨hphase, answer, hanswer⟩, -⟩ := ends
      change s.dialog? i.widget = _ at hd
      have agrees : PhaseAgrees i.clearsOnCompletion p.answer p.phase := by
        rw [hanswer, hphase]
        exact .of_answer _ answer
      unfold Interaction.finish
      dsimp only
      split
      · rename_i clears
        refine ⟨p, (dialog?_of_widgets (widgets_clear s i.canvas) _).trans hd, ?_⟩
        cases hcleared : (s.clear i.canvas).1 with
        | ok => exact agrees
        | error failure =>
            obtain ⟨fault, rfl⟩ := clear_eq_error hcleared
            exact .of_failed rfl (Or.inr ⟨clears, hphase, fault, rfl⟩)
      · exact ⟨p, hd, agrees⟩

/-- The scene in which the canvas of a prompt has got the focus, and the interaction there. -/
def granted (s : Scene) (w : Nat) (d : Dialog) : Scene :=
  ((s.openDialog w d).2.focus (s.openDialog w d).1.1).2

def interaction (s : Scene) (w : Nat) (d : Dialog) : Interaction :=
  .ofDialog w (s.openDialog w d).1.1 d (s.granted w d).env

theorem dialog?_granted (h : s.dialog? w = some d) :
    ∃ slot, (s.granted w d).dialog? w =
      some { d with slot := slot, prompt := d.prompt.withPhase .interacting } := by
  obtain ⟨slot, hslot⟩ := dialog?_opened h
  exact ⟨slot, (dialog?_focus _ _ w).trans hslot⟩

theorem askDialog_eq (s : Scene) (w : Nat) (d : Dialog) (token : Token)
    (amid : List Occurrence → List Occurrence) :
    s.askDialog w d token amid =
      let tried := (s.interaction w d).attempt amid token d.reader.load (s.granted w d)
      (tried.1, tried.2.2.cleanUp (s.interaction w d) (s.openDialog w d).1.2
        ((s.openDialog w d).2.focus (s.openDialog w d).1.1).1 tried.2.1) :=
  rfl

/-- The phase of a prompt after it was asked goes together with the result. -/
theorem phaseAgrees_ask (h : s.dialog? w = some d) (token : Token)
    (amid : List Occurrence → List Occurrence) :
    ∃ d', (s.ask w token amid).2.dialog? w = some d' ∧
      PhaseAgrees d.prompt.clearsOnCompletion (s.ask w token amid).1 d'.prompt.phase := by
  obtain ⟨slot, hgranted⟩ := dialog?_granted h
  have watched : Watched w (s.interaction w d).canvas fun _ _ => True :=
    ⟨fun _ _ _ => trivial, fun _ _ => trivial⟩
  have ongoing {s' : Scene} (hd : s'.dialog? w = (s.granted w d).dialog? w) :
      (askedKinds w { d with slot := slot } fun _ _ => True).ongoing s' :=
    ⟨_, hd.trans hgranted, Prompt.phase_withPhase _ _, trivial⟩
  have hidden : ((s.granted w d).cursorHidden (s.interaction w d)).dialog? w =
      (s.granted w d).dialog? w := dialog?_of_widgets (widgets_cursorHidden _ _) w
  obtain ⟨read, ends, hattempt⟩ := Interaction.ends_attempt (i := s.interaction w d)
    watched amid token d.reader.load (fun _ _ _ => ongoing hidden)
    (ongoing ((dialog?_of_widgets (widgets_run _ _) w).trans hidden))
  obtain ⟨p, hd, agrees⟩ := phaseAgrees_finish ends
  obtain ⟨d', hd', hprompt⟩ := prompt_cleanUp hd (s.openDialog w d).1.2
    ((s.openDialog w d).2.focus (s.openDialog w d).1.1).1 ((s.interaction w d).finish read).2.1
  have hasked := askDialog_eq s w d token amid
  rw [hattempt] at hasked
  have after : (s.askDialog w d token amid).2.dialog? w = some d' := by
    rw [hasked]
    exact hd'
  refine ⟨d', (congrArg (dialog? · w) (ask_snd h token amid)).trans after, ?_⟩
  rw [ask_fst h token amid after, hasked, hprompt]
  exact agrees

end Scene

end Inlay
