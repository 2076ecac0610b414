import Inlay.Proofs.Keyboard.Abreast
import Inlay.Proofs.Prompts.Phases
import Inlay.Proofs.Scene.Sinks
/-!
An answer does not depend on the terminal. Once the sink has taken the first frame, whatever it
refuses afterwards changes neither the result of an asking nor the phase of the prompt, since a
repaint between keys tells the prompt nothing.
-/

namespace Inlay

open Text Keyboard

/-- The slot with another behavior of the sink, if the canvas is yet to be made. -/
def Slot.rewired (behavior : Sink.Behavior) : Slot → Slot
  | .owned options => .owned { options with behavior := behavior }
  | .shared c => .shared c

def Dialog.rewired (d : Dialog) (behavior : Sink.Behavior) : Dialog :=
  { d with slot := d.slot.rewired behavior }

namespace Scene

variable {w : Nat} {c : CanvasRef} {s s' : Scene} {d : Dialog}

theorem setWidget_setWidget (s : Scene) (w : Nat) (widget widget' : Widget) :
    (s.setWidget w widget).setWidget w widget' = s.setWidget w widget' := by
  unfold setWidget
  dsimp only
  rw [Array.setIfInBounds_setIfInBounds]

theorem modifyDialog_eq (h : s.dialog? w = some d) (f : Dialog → Dialog) :
    s.modifyDialog w f = s.setWidget w (.dialog (f d)) := by
  rw [modifyDialog, h]

theorem openDialog_of_shared_eq (h : s.dialog? w = some d) (slot : d.slot = .shared c) :
    s.openDialog w d = ((c, false),
      s.setWidget w (.dialog { d with prompt := d.prompt.withPhase .interacting })) := by
  rw [openDialog_of_shared slot, modifyDialog_eq h]

theorem openDialog_of_owned_eq (h : s.dialog? w = some d) {options : CanvasOptions}
    (slot : d.slot = .owned options) :
    s.openDialog w d =
      let made := s.newCanvas options.manager (options.canvasOf w)
      ((made.1, true), made.2.setWidget w (.dialog
        { d with slot := .shared made.1, prompt := d.prompt.withPhase .interacting })) := by
  have made (canvas : Canvas) : (s.newCanvas options.manager canvas).2.dialog? w = some d := h
  rw [openDialog, slot, resolve_owned h]
  dsimp only
  rw [modifyDialog_eq (dialog?_modifyDialog (made _) _), modifyDialog_eq (made _),
    setWidget_setWidget]
  rfl

/-- Opened for another sink, a prompt gets a canvas that differs in its sink only. -/
theorem rewired_openDialog (h : s.dialog? w = some d) (behavior : Sink.Behavior) :
    let s' := s.modifyDialog w (·.rewired behavior)
    (s'.openDialog w (d.rewired behavior)).1 = (s.openDialog w d).1 ∧
      (s.openDialog w d).2.Rewired (s'.openDialog w (d.rewired behavior)).2 := by
  intro s'
  have h' : s'.dialog? w = some (d.rewired behavior) := dialog?_modifyDialog h _
  have hs' : s' = s.setWidget w (.dialog (d.rewired behavior)) := modifyDialog_eq h _
  cases slot : d.slot with
  | shared c =>
      have same : d.rewired behavior = d := by
        rw [Dialog.rewired, slot, Slot.rewired, ← slot]
      rw [openDialog_of_shared_eq h slot, openDialog_of_shared_eq h' (same.symm ▸ slot), hs',
        setWidget_setWidget, same]
      exact ⟨rfl, .refl _⟩
  | owned options =>
      have slot' : (d.rewired behavior).slot = .owned { options with behavior := behavior } := by
        rw [Dialog.rewired, slot]
        rfl
      have fresh : (options.canvasOf w).Rewired
          (({ options with behavior := behavior } : CanvasOptions).canvasOf w) := ⟨_, rfl⟩
      obtain ⟨hmade, made⟩ := (Rewired.refl s).newCanvas options.manager fresh
      have made' (canvas : Canvas) : s'.newCanvas options.manager canvas =
          ((s.newCanvas options.manager canvas).1,
            (s.newCanvas options.manager canvas).2.setWidget w
              (.dialog (d.rewired behavior))) := by
        rw [hs']
        rfl
      rw [openDialog_of_owned_eq h slot, openDialog_of_owned_eq h' slot']
      dsimp only
      rw [made', setWidget_setWidget, hmade]
      exact ⟨rfl, made.setWidget w _⟩

namespace Rewired

theorem openDialog (h : s.Rewired s') (hd : s.dialog? w = some d) :
    (s'.openDialog w d).1 = (s.openDialog w d).1 ∧
      (s.openDialog w d).2.Rewired (s'.openDialog w d).2 := by
  have hd' : s'.dialog? w = some d := (h.dialog? w).trans hd
  cases slot : d.slot with
  | shared c =>
      rw [openDialog_of_shared_eq hd slot, openDialog_of_shared_eq hd' slot]
      exact ⟨rfl, h.setWidget w _⟩
  | owned options =>
      obtain ⟨hmade, made⟩ := h.newCanvas options.manager (.refl (options.canvasOf w))
      rw [openDialog_of_owned_eq hd slot, openDialog_of_owned_eq hd' slot]
      dsimp only
      rw [hmade]
      exact ⟨rfl, made.setWidget w _⟩

end Rewired

/-- A prompt hears nothing of its repaints. -/
theorem respects_promptListener (w : Nat) (c : CanvasRef) :
    Listener.Respects Eq Rewired (promptListener w c) := by
  rintro event _ s s' rfl h
  rw [promptListener, promptListener, h.dialog? w]
  cases s.dialog? w with
  | none => exact ⟨rfl, h⟩
  | some d => exact ⟨rfl, ((h.modifyDialog w _).update c).1⟩

theorem hideCursor_of_written (written : ¬ Unwritten (s.hideCursor c).1) :
    (s.hideCursor c).1 = .ok () := by
  unfold hideCursor writeSequence at written ⊢
  cases he : s.canvases[c]? with
  | none => rfl
  | some e =>
      rw [he] at written
      dsimp only at written ⊢
      rw [Canvas.written_asOutput_iff.mp written]
      rfl

namespace Interaction

variable {i : Interaction}

/-- The sink takes what is written before the first key. -/
structure TakesFirstFrame (i : Interaction) (s : Scene) : Prop where
  hidden : i.hidesCursor = true → ¬ Unwritten (s.hideCursor i.canvas).1
  drawn : ¬ Unwritten ((s.cursorHidden i).run i.canvas).1

/-- What is left of two attempts: the same keyboard, and scenes that differ in their sinks only. -/
def Alongside (left left' : Keyboard × Scene) : Prop := left'.1 = left.1 ∧ left.2.Rewired left'.2

theorem alongside_readKeys (i : Interaction) (amid : List Occurrence → List Occurrence)
    (token : Token) (kb : Keyboard) (h : s.Rewired s') :
    (i.readKeys amid token (kb, s')).1 = (i.readKeys amid token (kb, s)).1 ∧
      Alongside (i.readKeys amid token (kb, s)).2 (i.readKeys amid token (kb, s')).2 := by
  have ends := kb.listenAmid_same i.config amid token
    (respects_promptListener i.widget i.canvas) s.watch h
  unfold Interaction.readKeys
  dsimp only
  rw [h.watch, ends.watch]
  refine ⟨ends.result, ?_, ends.own.wait _⟩
  exact (keyboard_listenAmid kb i.config amid token s.watch s' _).trans
    (keyboard_listenAmid kb i.config amid token s.watch s _).symm

theorem rewired_cursorHidden (i : Interaction) (h : s.Rewired s') :
    (s.cursorHidden i).Rewired (s'.cursorHidden i) := by
  unfold cursorHidden
  split
  · exact h.writeSequence i.canvas _
  · exact h

/-- An attempt whose first frame is taken is the same on every sink. -/
theorem alongside_attempt (kept : i.clearsOnCompletion = false)
    (amid : List Occurrence → List Occurrence) (token : Token) (kb : Keyboard) (h : s.Rewired s')
    (takes : i.TakesFirstFrame s) (takes' : i.TakesFirstFrame s') :
    (i.attempt amid token kb s').1 = (i.attempt amid token kb s).1 ∧
      Alongside (i.attempt amid token kb s).2 (i.attempt amid token kb s').2 := by
  have hidden := rewired_cursorHidden i h
  obtain ⟨ran, hdrawn⟩ := hidden.run i.canvas
  have unhidden : Alongside (kb, s.cursorHidden i) (kb, s'.cursorHidden i) := ⟨rfl, hidden⟩
  have start : Alongside (kb, ((s.cursorHidden i).run i.canvas).2)
      (kb, ((s'.cursorHidden i).run i.canvas).2) := ⟨rfl, ran⟩
  refine i.attempt_alike i.config ?_ unhidden (hdrawn takes.drawn takes'.drawn) start
    (congrArg Watch.now ran.watch) (fun token => alongside_readKeys i amid token kb ran) ?_ token
  · intro hides
    rw [hideCursor_of_written (takes.hidden hides), hideCursor_of_written (takes'.hidden hides)]
  · intro clears
    cases kept.symm.trans clears

end Interaction

theorem Rewired.cleanUp (h : s.Rewired s') (i : Interaction) (owned : Bool) (guard : FocusGuard)
    (kb : Keyboard) : (s.cleanUp i owned guard kb).Rewired (s'.cleanUp i owned guard kb) := by
  have shown : (s.cursorShown i).Rewired (s'.cursorShown i) := by
    unfold cursorShown
    split
    · exact h.writeSequence i.canvas _
    · exact h
  have handed := (shown.modifyDialog i.widget fun d => d.returnKeyboard kb).release guard
  rw [cleanUp_eq, cleanUp_eq]
  split
  · exact handed.close i.canvas
  · exact handed

/-- The sink of a dialog takes what is written before the first key, when the dialog is asked. -/
def TakesFirstFrame (s : Scene) (w : Nat) (d : Dialog) : Prop :=
  (s.interaction w d).TakesFirstFrame (s.granted w d)

/-- Once two sinks have taken the first frame of a prompt, then whatever either refuses afterwards,
the two askings have the same result and leave the prompt in the same phase. -/
theorem ask_steadfast (h : s.dialog? w = some d) (kept : d.prompt.clearsOnCompletion = false)
    {behavior : Sink.Behavior} (rewired : (s.modifyDialog w (·.rewired behavior)).Rewired s')
    (takes : s.TakesFirstFrame w d) (takes' : s'.TakesFirstFrame w (d.rewired behavior))
    (token : Token) (amid : List Occurrence → List Occurrence) :
    (s'.ask w token amid).1 = (s.ask w token amid).1 ∧
      ((s'.ask w token amid).2.dialog? w).map (·.prompt.phase) =
        ((s.ask w token amid).2.dialog? w).map (·.prompt.phase) ∧
      (s.ask w token amid).2.Rewired (s'.ask w token amid).2 := by
  have hmodified := dialog?_modifyDialog h (·.rewired behavior)
  have h' : s'.dialog? w = some (d.rewired behavior) := (rewired.dialog? w).trans hmodified
  obtain ⟨hopened, opened⟩ := rewired_openDialog h behavior
  obtain ⟨hopened', opened'⟩ := rewired.openDialog hmodified
  replace hopened := hopened'.trans hopened
  replace opened := opened.trans opened'
  obtain ⟨hguard, granted⟩ := opened.focus (s.openDialog w d).1.1
  have hinteraction : s'.interaction w (d.rewired behavior) = s.interaction w d := by
    rw [interaction, interaction, Scene.granted, hopened, granted.sameStanding.env]
    rfl
  unfold TakesFirstFrame Scene.granted at takes takes'
  rw [hinteraction, hopened] at takes'
  obtain ⟨hresult, hkeyboard, tried⟩ := Interaction.alongside_attempt kept amid token
    d.reader.load granted takes takes'
  have asked : (s'.askDialog w (d.rewired behavior) token amid).1 =
        (s.askDialog w d token amid).1 ∧
      (s.askDialog w d token amid).2.Rewired
        (s'.askDialog w (d.rewired behavior) token amid).2 := by
    rw [askDialog_eq, askDialog_eq]
    dsimp only
    unfold Scene.granted
    rw [hinteraction, hopened, hguard]
    refine ⟨hresult, ?_⟩
    have cleaned := tried.cleanUp (s.interaction w d) (s.openDialog w d).1.2
      ((s.openDialog w d).2.focus (s.openDialog w d).1.1).1
      ((s.interaction w d).attempt amid token d.reader.load
        ((s.openDialog w d).2.focus (s.openDialog w d).1.1).2).2.1
    rw [show (d.rewired behavior).reader = d.reader from rfl, hkeyboard]
    exact cleaned
  rw [ask_snd h, ask_snd h', asked.2.dialog? w]
  refine ⟨?_, rfl, asked.2⟩
  obtain ⟨d', after, -⟩ := phaseAgrees_ask h token amid
  rw [ask_snd h] at after
  rw [ask_fst h token amid after,
    ask_fst h' token amid ((asked.2.dialog? w).trans after), asked.1]

/-- A list of two choices that is not filtered, of which Down and Enter pick the second. -/
def twoChoices (slot : Slot) : Dialog where
  prompt := .select
    { Prompt.Select.ofChoices "Q" (.ofEntries [⟨"A", "A"⟩, ⟨"B", "B"⟩] 6 false) (some 0) with
      filtering := false }
  slot := slot
  keyboard := some { scripts := [.ofKeys [.down, .enter]] }

/-- A sink that breaks for good once the cursor is hidden and the first frame is drawn. -/
def breaksLater : Sink.Behavior :=
  .ofTrouble { first := some 2, trouble := .refuse ⟨.brokenPipe, "broken pipe"⟩ }

/-- The second choice is picked, although the sink never gets to show it. -/
theorem ask_steadfast_breaksLater :
    let d := twoChoices (.owned { width := .fixed 20 })
    let s := (newWidget {} (.dialog d)).2
    let s' := s.modifyDialog 0 (·.rewired breaksLater)
    s.dialog? 0 = some d ∧ s.TakesFirstFrame 0 d ∧ s'.TakesFirstFrame 0 (d.rewired breaksLater) ∧
      ((s.ask 0 ⟨0, none⟩).2.sink? 0).map (·.frames.length) = some 5 ∧
      ((s'.ask 0 ⟨0, none⟩).2.sink? 0).map (·.frames.length) = some 2 ∧
      (s.ask 0 ⟨0, none⟩).1 = .ok (.index 1) ∧ (s'.ask 0 ⟨0, none⟩).1 = .ok (.index 1) := by
  intro d s s'
  have written {result : Except Failure Unit} (hok : result = .ok ()) : ¬ Unwritten result := by
    rintro ⟨fault, hfault⟩
    cases hok.symm.trans hfault
  have takes : s.TakesFirstFrame 0 d :=
    ⟨fun _ => written (by decide +kernel), written (by decide +kernel)⟩
  have takes' : s'.TakesFirstFrame 0 (d.rewired breaksLater) :=
    ⟨fun _ => written (by decide +kernel), written (by decide +kernel)⟩
  have answered : (s.ask 0 ⟨0, none⟩).1 = .ok (.index 1) := by decide +kernel
  have rewired : s'.Rewired s' := .refl s'
  have same := ask_steadfast (s := s) rfl rfl rewired takes takes' ⟨0, none⟩ id
  exact ⟨rfl, takes, takes', by decide +kernel, by decide +kernel, answered,
    same.1.trans answered⟩

end Scene

end Inlay
