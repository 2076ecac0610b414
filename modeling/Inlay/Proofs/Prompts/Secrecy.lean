import Inlay.Proofs.Keyboard.Abreast
import Inlay.Proofs.Keyboard.Arrival
import Inlay.Proofs.Prompts.Phases
import Inlay.Proofs.Scene.Widgets

namespace Inlay

open Text Keyboard

namespace Prompt.Line

variable {l l' : Line}

theorem objection?_eq_none (optional : l.required = false) (unchecked : l.validator = none)
    (value : Text) : l.objection? value = none := by
  rw [objection?, optional, unchecked]
  rfl

/-- A line that accepts anything is answered by Enter, whatever it holds. -/
theorem press_eq (optional : l.required = false) (unchecked : l.validator = none)
    (event : KeyEvent) :
    l.press event =
      if event.cancelled then (false, { l with phase := .cancelled })
      else if event.timedOut then (false, { l with phase := .timedOut })
      else
        let l := { l with showHelp := event.hint, value := event.value, error := none }
        if event.key = some .enter then (false, { l with phase := .complete }) else (true, l) := by
  rw [press]
  split
  · rfl
  split
  · rfl
  dsimp only
  split
  · split
    · rfl
    · rename_i message raised
      cases raised.symm.trans (objection?_eq_none optional unchecked _)
  · rfl

/-- Secret lines that accept anything, and differ at most in what they hold, but not in how long
it is. -/
structure Alike (l l' : Line) : Prop where
  secret : l.secret = true
  optional : l.required = false
  unchecked : l.validator = none
  same : ∃ default value, l' = { l with default := default, value := value }
  length : l'.value.length = l.value.length

theorem Alike.press (h : l.Alike l') {event event' : KeyEvent} (alike : event.Alike event') :
    (l'.press event').1 = (l.press event).1 ∧ (l.press event).2.Alike (l'.press event').2 := by
  obtain ⟨secret, optional, unchecked, ⟨default, value, rfl⟩, length⟩ := h
  rw [press_eq optional unchecked, press_eq (l := { l with default := default, value := value })
    optional unchecked, alike.cancelled, alike.timedOut, alike.hint]
  dsimp only
  rw [if_congr alike.enter rfl rfl]
  split
  · exact ⟨rfl, secret, optional, unchecked, ⟨default, value, rfl⟩, length⟩
  split
  · exact ⟨rfl, secret, optional, unchecked, ⟨default, value, rfl⟩, length⟩
  split
  · exact ⟨rfl, secret, optional, unchecked, ⟨default, event'.value, rfl⟩, alike.length⟩
  · exact ⟨rfl, secret, optional, unchecked, ⟨default, event'.value, rfl⟩, alike.length⟩

theorem Alike.painting_eq (h : l.Alike l') (style : Style) :
    l'.painting style = l.painting style := by
  obtain ⟨secret, -, -, ⟨default, value, rfl⟩, length⟩ := h
  change value.length = l.value.length at length
  have shown : ({ l with default := default, value := value } : Line).shown = l.shown := by
    rw [Line.shown, Line.shown, if_pos secret, if_pos secret]
    exact congrArg (List.replicate · '*') length
  have isEmpty : value.isEmpty = l.value.isEmpty := by
    rw [Bool.eq_iff_iff, List.isEmpty_iff_length_eq_zero, List.isEmpty_iff_length_eq_zero, length]
  unfold Line.painting Line.paintOpen Line.paintValue
  rw [shown]
  dsimp only
  rw [isEmpty]

end Prompt.Line

/-- Dialogs that ask secret lines, from keyboards of their own. -/
structure Dialog.Alike (d d' : Dialog) : Prop where
  slot : d'.slot = d.slot
  limit : d'.limit = d.limit
  lines : ∃ l l', d.prompt = .line l ∧ d'.prompt = .line l' ∧ l.Alike l'

namespace Scene

variable {w : Nat} {c : CanvasRef} {s s' t : Scene} {d d' : Dialog}

/-- Scenes that differ in one widget only, which asks a secret line. -/
structure Twins (w : Nat) (s s' : Scene) : Prop where
  beside : s' = s.withWidgets s'.widgets
  others : ∀ v, v ≠ w → s'.widgets[v]? = s.widgets[v]?
  dialogs : ∃ d d', s.dialog? w = some d ∧ s'.dialog? w = some d' ∧ d.Alike d'

namespace Twins

theorem watch (h : Twins w s s') : s'.watch = s.watch := by
  rw [h.beside]
  rfl

theorem gallery (h : Twins w s s') : s'.gallery = s.gallery := by
  have hwatch := h.watch
  obtain ⟨-, others, d, d', hd, hd', -, -, l, l', hl, hl', alike⟩ := h
  funext v style
  rw [Scene.gallery, Scene.gallery, hwatch]
  -- Only the widget that is asked differs, and its picture takes no more than a length.
  by_cases hv : v = w
  · rw [hv, widget_of_dialog? hd, widget_of_dialog? hd']
    dsimp only [Widget.painting]
    rw [hl, hl']
    exact alike.painting_eq style
  · rw [others v hv]

/-- A change besides the widgets leaves twins. -/
theorem aside (h : Twins w s s') (same : t.widgets = s.widgets) :
    Twins w t (t.withWidgets s'.widgets) := by
  obtain ⟨-, others, d, d', hd, hd', alike⟩ := h
  refine ⟨rfl, ?_, d, d', (dialog?_of_widgets same w).trans hd, hd', alike⟩
  intro v hv
  rw [same]
  exact others v hv

/-- What comes of doing the same to twins. -/
structure Alike {α : Type} (w : Nat) (done done' : α × Scene) : Prop where
  result : done'.1 = done.1
  twins : Twins w done.2 done'.2

/-- A repaint shows both the same, which is all that it takes from the widgets. -/
theorem looks (h : Twins w s s') : (s.withWidgets s'.widgets).gallery = s.gallery := by
  rw [← h.beside]
  exact h.gallery

theorem update (h : Twins w s s') (c : CanvasRef) : Alike w (s.update c) (s'.update c) := by
  rw [h.beside, update_withWidgets c h.looks]
  exact ⟨rfl, h.aside (widgets_update s c)⟩

theorem run (h : Twins w s s') (c : CanvasRef) : Alike w (s.run c) (s'.run c) := by
  rw [h.beside, run_withWidgets c h.looks]
  exact ⟨rfl, h.aside (widgets_run s c)⟩

theorem clear (h : Twins w s s') (c : CanvasRef) : Alike w (s.clear c) (s'.clear c) := by
  rw [h.beside, clear_withWidgets]
  exact ⟨rfl, h.aside (widgets_clear s c)⟩

theorem writeSequence (h : Twins w s s') (c : CanvasRef) (sequence : Text) :
    Alike w (s.writeSequence c sequence) (s'.writeSequence c sequence) := by
  rw [h.beside, writeSequence_withWidgets]
  exact ⟨rfl, h.aside (widgets_writeSequence s c sequence)⟩

theorem focus (h : Twins w s s') (c : CanvasRef) : Alike w (s.focus c) (s'.focus c) := by
  rw [h.beside, focus_withWidgets]
  exact ⟨rfl, h.aside (widgets_eraseAll _ _)⟩

theorem release (h : Twins w s s') (guard : FocusGuard) :
    Twins w (s.release guard) (s'.release guard) := by
  rw [h.beside]
  exact h.aside (t := s.release guard) rfl

theorem close (h : Twins w s s') (c : CanvasRef) : Twins w (s.close c) (s'.close c) := by
  rw [h.beside]
  exact h.aside (t := s.close c) rfl

theorem wait (h : Twins w s s') (watch : Watch) :
    Twins w { s with watch := watch } { s' with watch := watch } := by
  rw [h.beside]
  exact h.aside (t := { s with watch := watch }) rfl

theorem newCanvas (h : Twins w s s') (m : ManagerRef) (canvas : Canvas) :
    Alike w (s.newCanvas m canvas) (s'.newCanvas m canvas) := by
  rw [h.beside]
  exact ⟨rfl, h.aside (t := (s.newCanvas m canvas).2) rfl⟩

/-- The two dialogs may change as long as they stay alike. -/
theorem modifyDialog (h : Twins w s s') {f f' : Dialog → Dialog}
    (alike : ∀ d d', d.Alike d' → (f d).Alike (f' d')) :
    Twins w (s.modifyDialog w f) (s'.modifyDialog w f') := by
  obtain ⟨beside, others, d, d', hd, hd', halike⟩ := h
  refine ⟨?_, ?_, f d, f' d', dialog?_modifyDialog hd f, dialog?_modifyDialog hd' f',
    alike d d' halike⟩
  · rw [Scene.modifyDialog, Scene.modifyDialog, hd, hd']
    dsimp only
    generalize s'.widgets = widgets at beside
    rw [beside]
    rfl
  · intro v hv
    rw [Scene.modifyDialog, Scene.modifyDialog, hd, hd']
    unfold setWidget
    dsimp only
    rw [Array.getElem?_setIfInBounds_ne (Ne.symm hv), Array.getElem?_setIfInBounds_ne (Ne.symm hv)]
    exact others v hv

end Twins

theorem seesAlike_promptListener (w : Nat) (c : CanvasRef) :
    Listener.SeesAlike (Twins w) (promptListener w c) := by
  intro event event' s s' alike h
  obtain ⟨d, d', hd, hd', -, -, l, l', hl, hl', lines⟩ := h.dialogs
  obtain ⟨hgoOn, pressed⟩ := lines.press alike
  rw [promptListener, promptListener, hd, hd']
  dsimp only
  rw [hl, hl']
  refine ⟨congrArg (fun goOn => ({ goOn := .ok goOn } : Response)) hgoOn, ?_⟩
  refine Twins.Alike.twins (Twins.update (h.modifyDialog ?_) c)
  intro d d' halike
  exact ⟨halike.slot, halike.limit, _, _, rfl, rfl, pressed⟩

namespace Twins

variable {i : Interaction} {config' : InputConfig} {kb kb' : Keyboard}
  {amid amid' : List Occurrence → List Occurrence}

theorem readKeys (h : Twins i.widget s s') (read : ReadAbreast amid amid' i.config config' kb kb')
    (token : Token) :
    (({ i with config := config' } : Interaction).readKeys amid' token (kb', s')).1 =
        (i.readKeys amid token (kb, s)).1 ∧
      Twins i.widget (i.readKeys amid token (kb, s)).2.2
        (({ i with config := config' } : Interaction).readKeys amid' token (kb', s')).2.2 := by
  have ends := read.listenAmid (seesAlike_promptListener i.widget i.canvas) token s.watch h
  rw [Interaction.readKeys, Interaction.readKeys]
  dsimp only
  rw [h.watch]
  rw [ends.watch]
  exact ⟨ends.result, ends.own.wait _⟩

theorem attempt (h : Twins i.widget s s') (read : ReadAbreast amid amid' i.config config' kb kb')
    (token : Token) :
    (({ i with config := config' } : Interaction).attempt amid' token kb' s').1 =
        (i.attempt amid token kb s).1 ∧
      Twins i.widget (i.attempt amid token kb s).2.2
        (({ i with config := config' } : Interaction).attempt amid' token kb' s').2.2 := by
  have hidden : Twins i.widget (s.cursorHidden i) (s'.cursorHidden i) := by
    unfold cursorHidden
    split
    · exact (h.writeSequence i.canvas _).twins
    · exact h
  obtain ⟨hdrawn, drawn⟩ := run hidden i.canvas
  refine i.attempt_alike config' (R := fun before after => Twins i.widget before.2 after.2) ?_
    hidden hdrawn drawn (congrArg Watch.now drawn.watch) (fun token => readKeys drawn read token)
    ?_ token
  · intro hides
    exact (h.writeSequence i.canvas _).result
  · intro _ left left' twins
    have cleared := clear twins i.canvas
    exact ⟨cleared.result, cleared.twins⟩

theorem cleanUp (h : Twins i.widget s s') (config' : InputConfig) (owned : Bool)
    (guard : FocusGuard) (kb kb' : Keyboard) :
    Twins i.widget (s.cleanUp i owned guard kb)
      (s'.cleanUp { i with config := config' } owned guard kb') := by
  have shown : Twins i.widget (if i.hidesCursor then (s.showCursor i.canvas).2 else s)
      (if i.hidesCursor then (s'.showCursor i.canvas).2 else s') := by
    split
    · exact (h.writeSequence i.canvas _).twins
    · exact h
  have alike (d d' : Dialog) (h : d.Alike d') :
      (d.returnKeyboard kb).Alike (d'.returnKeyboard kb') := by
    obtain ⟨keyboard, hd⟩ := returnKeyboard_eq d kb
    obtain ⟨keyboard', hd'⟩ := returnKeyboard_eq d' kb'
    rw [hd, hd']
    exact ⟨h.slot, h.limit, h.lines⟩
  have handed := (shown.modifyDialog alike).release guard
  unfold Scene.cleanUp
  dsimp only
  split
  · exact handed.close i.canvas
  · exact handed

/-- A canvas is found or made alike for both. -/
theorem resolve (h : Twins w s s') (slot : Slot) :
    Alike w (s.resolve w slot) (s'.resolve w slot) := by
  cases slot with
  | shared c => exact ⟨rfl, h⟩
  | owned options =>
      obtain ⟨hmade, twins⟩ := h.newCanvas options.manager
        { visuals := [.widget w]
          sink := { behavior := options.behavior }
          width := options.width
          style := options.style }
      obtain ⟨d, d', hd, hd', -⟩ := h.dialogs
      rw [resolve_owned hd, resolve_owned hd']
      dsimp only
      rw [hmade]
      exact ⟨rfl, twins.modifyDialog fun d d' alike => ⟨rfl, alike.limit, alike.lines⟩⟩

theorem openDialog (h : Twins w s s') (slot : d'.slot = d.slot) :
    Alike w (s.openDialog w d) (s'.openDialog w d') := by
  obtain ⟨hresolved, twins⟩ := h.resolve d.slot
  rw [Scene.openDialog, Scene.openDialog, slot]
  refine ⟨hresolved, twins.modifyDialog ?_⟩
  rintro d d' ⟨slot, limit, l, l', hl, hl', lines⟩
  refine ⟨slot, limit, _, _, congrArg (Prompt.withPhase .interacting) hl,
    congrArg (Prompt.withPhase .interacting) hl', ?_⟩
  obtain ⟨secret, optional, unchecked, ⟨default, value, rfl⟩, length⟩ := lines
  exact ⟨secret, optional, unchecked, ⟨default, value, rfl⟩, length⟩

theorem granted (h : Twins w s s') (slot : d'.slot = d.slot) :
    Alike w ((s.openDialog w d).2.focus (s.openDialog w d).1.1)
      ((s'.openDialog w d').2.focus (s'.openDialog w d').1.1) := by
  obtain ⟨hopened, twins⟩ := h.openDialog (d := d) slot
  rw [hopened]
  exact twins.focus _

theorem interaction_eq (h : Twins w s s') (alike : d.Alike d') :
    s'.interaction w d' = { s.interaction w d with config := d'.prompt.inputConfig } := by
  have hopened := (h.openDialog (d := d) alike.slot).result
  have henv : (s'.granted w d').env = (s.granted w d).env := by
    have granted := (h.granted alike.slot).twins
    exact (congrArg Scene.env granted.beside).trans rfl
  obtain ⟨-, limit, l, l', hl, hl', lines⟩ := alike
  rw [interaction, interaction, hopened, henv, Interaction.ofDialog, Interaction.ofDialog, limit,
    hl, hl']
  obtain ⟨-, -, -, ⟨default, value, rfl⟩, -⟩ := lines
  rfl

/-- Twins are asked alike, and stay twins. -/
theorem ask (h : Twins w s s') (hd : s.dialog? w = some d) (hd' : s'.dialog? w = some d')
    (read : ReadAbreast amid amid' d.prompt.inputConfig d'.prompt.inputConfig d.reader.load
      d'.reader.load) (token : Token) :
    (s'.askDialog w d' token amid').1 = (s.askDialog w d token amid).1 ∧
      Twins w (s.ask w token amid).2 (s'.ask w token amid').2 := by
  obtain ⟨d₁, d₁', hd₁, hd₁', alike⟩ := h.dialogs
  obtain rfl := Option.some.inj (hd₁.symm.trans hd)
  obtain rfl := Option.some.inj (hd₁'.symm.trans hd')
  have hopened := (h.openDialog (d := d₁) alike.slot).result
  have granted := h.granted (d := d₁) alike.slot
  have hinteraction := h.interaction_eq alike
  obtain ⟨hresult, tried⟩ := attempt (i := s.interaction w d₁) granted.twins read token
  have cleaned := tried.cleanUp d₁'.prompt.inputConfig (s.openDialog w d₁).1.2
    ((s.openDialog w d₁).2.focus (s.openDialog w d₁).1.1).1
    ((s.interaction w d₁).attempt amid token d₁.reader.load (s.granted w d₁)).2.1
    (({ s.interaction w d₁ with config := d₁'.prompt.inputConfig } : Interaction).attempt amid'
      token d₁'.reader.load (s'.granted w d₁')).2.1
  rw [ask_snd hd, ask_snd hd', askDialog_eq, askDialog_eq]
  dsimp only
  rw [hinteraction, granted.result, hopened]
  exact ⟨hresult, cleaned⟩

end Twins

theorem twins_setWidget (h : s.dialog? w = some d) (alike : d.Alike d') :
    Twins w s (s.setWidget w (.dialog d')) := by
  refine ⟨rfl, ?_, d, d', h, dialog?_setWidget h d', alike⟩
  intro v hv
  unfold setWidget
  rw [Array.getElem?_setIfInBounds_ne (Ne.symm hv)]

/-- Two askings of a secret line that accepts anything write the same to every canvas, frame by
frame, and fail alike, if what is typed differs in nothing but characters, in texts that are as long
as each other after every key. -/
theorem ask_secret {l : Prompt.Line} (h : s.dialog? w = some d) (line : d.prompt = .line l)
    (secret : l.secret = true) (optional : l.required = false) (unchecked : l.validator = none)
    {default value : Text} (length : value.length = l.value.length) {keyboard : Option Keyboard}
    (line' : d' =
      { d with
        prompt := .line { l with default := default, value := value }
        keyboard := keyboard })
    {amid amid' : List Occurrence → List Occurrence}
    (read : ReadAbreast amid amid' d.prompt.inputConfig d'.prompt.inputConfig d.reader.load
      d'.reader.load) (token : Token) :
    (∀ c, ((s.setWidget w (.dialog d')).ask w token amid').2.sink? c =
        (s.ask w token amid).2.sink? c) ∧
      ∀ failure, ((s.setWidget w (.dialog d')).ask w token amid').1 = .error failure ↔
        (s.ask w token amid).1 = .error failure := by
  have alike : d.Alike d' := by
    rw [line']
    exact ⟨rfl, rfl, l, _, line, rfl, secret, optional, unchecked, ⟨default, value, rfl⟩, length⟩
  have hd' : (s.setWidget w (.dialog d')).dialog? w = some d' := dialog?_setWidget h d'
  obtain ⟨hresult, twins⟩ := (twins_setWidget h alike).ask h hd' read token
  constructor
  · intro c
    rw [twins.beside]
    rfl
  · obtain ⟨e, e', he, he', -, -, l, l', hl, hl', -⟩ := twins.dialogs
    rw [ask_fst h token amid (ask_snd h token amid ▸ he),
      ask_fst hd' token amid' (ask_snd hd' token amid' ▸ he'), hresult, hl, hl']
    intro failure
    cases (s.askDialog w d token amid).1 with
    | error failure' => rfl
    | ok => exact ⟨nofun, nofun⟩

def password (keys : List Key) : Dialog where
  prompt := .line { message := "Password", secret := true }
  slot := .owned { width := .fixed 40 }
  keyboard := some { scripts := [.ofKeys keys] }

/-- Two passwords of two characters each, both with a first attempt that is taken back. -/
theorem ask_secret_passwords :
    let typed := [Key.char 'a', .backspace, .char 'b', .char 'c', .enter]
    let typed' := [Key.char 'ß', .backspace, .char 'é', .char '語', .enter]
    let s := (newWidget {} (.dialog (password typed))).2
    let s' := s.setWidget 0 (.dialog (password typed'))
    s.dialog? 0 = some (password typed) ∧
      ReadAbreast id id {} {} (password typed).reader.load (password typed').reader.load ∧
      (s.ask 0 ⟨0, none⟩).1 = .ok (.text "bc") ∧ (s'.ask 0 ⟨0, none⟩).1 = .ok (.text "é語") ∧
      ∀ c, (s'.ask 0 ⟨0, none⟩).2.sink? c = (s.ask 0 ⟨0, none⟩).2.sink? c := by
  intro typed typed' s s'
  have hkeys : (password typed).reader.load.read.1 = typed.map .key ++ [.closed] :=
    run_ofKeys _ (by decide)
  have hkeys' : (password typed').reader.load.read.1 = typed'.map .key ++ [.closed] :=
    run_ofKeys _ (by decide)
  have read : ReadAbreast id id {} {} (password typed).reader.load
      (password typed').reader.load := by
    refine ⟨rfl, rfl, rfl, rfl, rfl, ?_⟩
    rw [id, id, hkeys, hkeys']
    have letter {c c' : Char} (h : c ≠ '?') (h' : c' ≠ '?') :
        Key.Alike false (.char c) (.char c') := .typed (Or.inl h) (Or.inl h')
    have alike : List.Forall₂ (Key.Alike false) typed typed' :=
      .cons (letter (by decide) (by decide)) <| .cons (.same _) <|
        .cons (letter (by decide) (by decide)) <| .cons (letter (by decide) (by decide)) <|
        .cons (.same _) .nil
    exact (Abreast.of_keys alike (by decide +kernel)).append (by simp)
  have hd : s.dialog? 0 = some (password typed) := rfl
  have line : (password typed).prompt = .line { message := "Password", secret := true } := rfl
  have line' : password typed' =
      { password typed with
        prompt := .line { message := "Password", secret := true, default := [], value := [] }
        keyboard := some { scripts := [.ofKeys typed'] } } := rfl
  have same := ask_secret hd line rfl rfl rfl rfl line' read ⟨0, none⟩
  exact ⟨hd, read, by decide +kernel, by decide +kernel, same.1⟩

end Scene

end Inlay
