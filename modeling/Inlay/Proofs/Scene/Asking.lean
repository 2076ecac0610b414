import Inlay.Proofs.Keyboard
import Inlay.Proofs.Scene.Drawing
import Inlay.Proofs.Scene.Evolution
import Inlay.Proofs.Token

namespace Inlay

/-- The canvas that a widget makes for itself. -/
def CanvasOptions.canvasOf (options : CanvasOptions) (w : Nat) : Canvas where
  visuals := [.widget w]
  sink := { behavior := options.behavior }
  width := options.width
  style := options.style

namespace Scene

open Keyboard

namespace Interaction

/-- What an attempt does: it draws on one canvas, and the keyboard is used at most for the reading
of its script. -/
structure Attempted (i : Interaction) (before after : Keyboard × Scene) : Prop where
  drawn : DrawsOn i.widget i.canvas before.2 after.2
  keyboard : after.1 = before.1 ∨ after.1 = before.1.read.2 ∧ before.1.lost = false

variable {i : Interaction} {kb kb' : Keyboard} {s s' : Scene} {after : Keyboard × Scene}

theorem Attempted.refl (i : Interaction) (before : Keyboard × Scene) : Attempted i before before :=
  ⟨.refl _ _ _, Or.inl rfl⟩

theorem Attempted.drawn_before (drawn : DrawsOn i.widget i.canvas s s')
    (h : Attempted i (kb, s') after) : Attempted i (kb, s) after :=
  ⟨drawn.trans h.drawn, h.keyboard⟩

theorem Attempted.drawn_after {before : Keyboard × Scene} (h : Attempted i before (kb', s))
    (drawn : DrawsOn i.widget i.canvas s s') : Attempted i before (kb', s') :=
  ⟨h.drawn.trans drawn, h.keyboard⟩

theorem attempted_drawn (drawn : DrawsOn i.widget i.canvas s s') :
    Attempted i (kb, s) (kb, s') :=
  ⟨drawn, Or.inl rfl⟩

theorem attempted_readKeys (i : Interaction) (amid : List Occurrence → List Occurrence)
    (token : Token) (state : Keyboard × Scene) :
    Attempted i state (i.readKeys amid token state).2 := by
  obtain ⟨kb, s⟩ := state
  have drawn : DrawsOn i.widget i.canvas s
      (kb.listenAmid i.config amid token (promptListener i.widget i.canvas) s.watch s).2.2.own :=
    own_listenAmid kb i.config amid token s.watch s (DrawsOn.refl _ _) DrawsOn.trans
      fun event _ => drawsOn_promptListener event
  refine ⟨⟨⟨drawn.standing.env, drawn.standing.managers, drawn.standing.standing⟩, drawn.others,
    drawn.canvas, drawn.dialog⟩, ?_⟩
  have hkeyboard := keyboard_listenAmid kb i.config amid token s.watch s
    (promptListener i.widget i.canvas)
  split at hkeyboard
  · exact Or.inl hkeyboard
  · rename_i here
    rw [Bool.not_eq_true] at here
    exact Or.inr ⟨hkeyboard, here⟩

/-- Every way out of an attempt: the cursor cannot be hidden, the first frame fails, the time limit
lies beyond the clock, the reading fails or is called off, the last erasure fails, and none of
these. -/
theorem attempted_attempt (i : Interaction) (amid : List Occurrence → List Occurrence)
    (token : Token) (kb : Keyboard) (s : Scene) :
    Attempted i (kb, s) (i.attempt amid token kb s).2 := by
  have hidden : DrawsOn i.widget i.canvas s
      (if i.hidesCursor then s.hideCursor i.canvas else (.ok (), s)).2 := by
    split
    · exact drawsOn_writeSequence _
    · rfl
  rw [attempt]
  dsimp only
  split
  · exact attempted_drawn hidden
  · refine Attempted.drawn_before hidden ?_
    generalize (if i.hidesCursor then s.hideCursor i.canvas else (.ok (), s)).2 = s₁
    have ran : DrawsOn i.widget i.canvas s₁ (s₁.run i.canvas).2 := drawsOn_run
    split
    · rename_i failure s₂ hrun
      rw [hrun] at ran
      exact attempted_drawn ran
    · rename_i s₂ hrun
      rw [hrun] at ran
      refine Attempted.drawn_before ran ?_
      have asked := token.state_askWithin (Attempted.refl i) (attempted_readKeys i amid) i.limit
        s₂.watch.now (kb, s₂)
      split
      · rename_i failure kb' s₃ hasked
        rw [hasked] at asked
        exact asked
      · rename_i kb' s₃ hasked
        rw [hasked] at asked
        split
        · exact asked.drawn_after drawsOn_clear
        · exact asked

end Interaction

variable {w : Nat} {c : CanvasRef} {s s' : Scene}

def entries (s : Scene) (m : ManagerRef) : List CanvasRef :=
  (s.managers[m]?.map Manager.entries).getD []

theorem entries_modifyManager (s : Scene) (m m' : ManagerRef) {f : Manager → Manager}
    (h : ∀ manager, (f manager).entries = manager.entries) :
    (s.modifyManager m f).entries m' = s.entries m' := by
  unfold entries modifyManager
  rw [Array.getElem?_modify]
  split
  · rw [Option.map_map]
    congr 2
    funext manager
    exact h manager
  · rfl

theorem entries_of_managers (h : s'.managers = s.managers) (m : ManagerRef) :
    s'.entries m = s.entries m := by
  rw [entries, h, entries]

theorem notMem_entries_deregister (s : Scene) (m : ManagerRef) (c : CanvasRef) :
    c ∉ (s.deregister m c).entries m := by
  unfold entries deregister modifyManager
  rw [Array.getElem?_modify, if_pos rfl]
  cases s.managers[m]? with
  | none => exact List.not_mem_nil
  | some manager =>
      intro hmem
      simp at hmem

theorem canvases_eraseAll_of_notMem {cs : List CanvasRef} (h : c ∉ cs) :
    (s.eraseAll cs).canvases[c]? = s.canvases[c]? := by
  induction cs generalizing s with
  | nil => rfl
  | cons c' rest ih =>
      rw [List.mem_cons, not_or] at h
      have erased : DrawsOn 0 c' s (s.eraseUnlessClosed c').2 := drawsOn_eraseUnlessClosed
      exact (ih h.2).trans (erased.others c h.1)

/-- The erasures of a grant spare the canvas that the focus goes to. -/
theorem canvases_focus_self (s : Scene) (c : CanvasRef) :
    (s.focus c).2.canvases[c]? = s.canvases[c]? := by
  apply canvases_eraseAll_of_notMem
  intro hmem
  simp [others, numberOf, modifyManager] at hmem

theorem entries_focus (s : Scene) (c : CanvasRef) (m : ManagerRef) :
    (s.focus c).2.entries m = s.entries m := by
  refine (entries_of_managers (sameStanding_eraseAll _ _).managers m).trans ?_
  exact entries_modifyManager s _ m fun _ => rfl

theorem isAlive_focus (s : Scene) (c c' : CanvasRef) :
    (s.focus c).2.isAlive c' = s.isAlive c' :=
  (sameStanding_eraseAll _ _).isAlive c'

@[simp] theorem widgets_setCanvas (s : Scene) (c : CanvasRef) (canvas : Canvas) :
    (s.setCanvas c canvas).widgets = s.widgets :=
  rfl

theorem widgets_eraseAll (s : Scene) (cs : List CanvasRef) :
    (s.eraseAll cs).widgets = s.widgets := by
  induction cs generalizing s with
  | nil => rfl
  | cons c rest ih => exact (ih _).trans (widgets_eraseUnlessClosed s c)

theorem dialog?_of_widgets (h : s'.widgets = s.widgets) (w : Nat) :
    s'.dialog? w = s.dialog? w := by
  rw [dialog?, h, dialog?]

theorem dialog?_focus (s : Scene) (c : CanvasRef) (w : Nat) :
    (s.focus c).2.dialog? w = s.dialog? w :=
  dialog?_of_widgets (widgets_eraseAll _ _) w

variable {d : Dialog}

theorem openDialog_of_shared (h : d.slot = .shared c) :
    s.openDialog w d =
      ((c, false),
        s.modifyDialog w fun d => { d with prompt := d.prompt.withPhase .interacting }) := by
  unfold openDialog resolve
  rw [h]

/-- A canvas of the prompt's own is new, open and registered with the manager of its options, and
shows nothing but the prompt. -/
theorem openDialog_of_owned {options : CanvasOptions} (h : d.slot = .owned options) :
    (s.openDialog w d).1 = (s.canvases.size, true) ∧
      ∃ number, (s.openDialog w d).2.canvases[s.canvases.size]? =
        some ⟨{ visuals := [.widget w]
                sink := { behavior := options.behavior }
                width := options.width
                style := options.style }, options.manager, number, 1⟩ := by
  unfold openDialog resolve
  rw [h]
  refine ⟨rfl, (s.managers[options.manager]?.map Manager.nextNumber).getD 0, ?_⟩
  dsimp only
  rw [canvases_modifyDialog]
  split
  · exact Array.getElem?_push_size
  · exact Array.getElem?_push_size

theorem env_openDialog (s : Scene) (w : Nat) (d : Dialog) : (s.openDialog w d).2.env = s.env := by
  rw [openDialog]
  refine (sameStanding_modifyDialog _ w _).env.trans ?_
  unfold resolve
  split
  · rfl
  · dsimp only
    split
    · rfl
    · rfl

/-- A widget without a canvas makes one, and shares that from then on. -/
theorem resolve_owned (h : s.dialog? w = some d) (options : CanvasOptions) :
    s.resolve w (.owned options) =
      let made := s.newCanvas options.manager
        { visuals := [.widget w]
          sink := { behavior := options.behavior }
          width := options.width
          style := options.style }
      ((made.1, true), made.2.modifyDialog w fun d => { d with slot := .shared made.1 }) := by
  rw [resolve]
  dsimp only
  split
  · rename_i widget hwidget
    obtain rfl : Widget.dialog d = widget :=
      Option.some.inj ((widget_of_dialog? h).symm.trans hwidget)
    rw [modifyDialog, show (s.newCanvas _ _).2.dialog? w = some d from h]
    rfl
  · rename_i hnone
    cases (widget_of_dialog? h).symm.trans hnone

/-- The dialog in the scene that its prompt was opened in. -/
theorem dialog?_opened (h : s.dialog? w = some d) :
    ∃ slot, (s.openDialog w d).2.dialog? w =
      some { d with slot := slot, prompt := d.prompt.withPhase .interacting } := by
  obtain ⟨slot, hslot⟩ : ∃ slot, (s.resolve w d.slot).2.dialog? w =
      some { d with slot := slot } := by
    cases d.slot with
    | shared c => exact ⟨d.slot, h⟩
    | owned options =>
        have made (canvas : Canvas) :
            (s.newCanvas options.manager canvas).2.dialog? w = some d := h
        rw [resolve_owned h]
        exact ⟨_, dialog?_modifyDialog (made _) _⟩
  exact ⟨slot, dialog?_modifyDialog hslot _⟩

theorem width?_writeSequence (s : Scene) (c : CanvasRef) (sequence : Text) :
    (s.writeSequence c sequence).2.width? c = s.width? c := by
  rw [writeSequence]
  cases he : s.canvases[c]? with
  | none => rfl
  | some e =>
      have hwidth : ((e.canvas.writeSequence s.env sequence).2.printerIn s.env).width =
          (e.canvas.printerIn s.env).width := by
        rw [Canvas.writeSequence]
        split
        · rfl
        · dsimp only
          split
          · rfl
          · rfl
      dsimp only
      rw [width?, printer, setCanvas, canvases_modifyCanvas_self he, width?, printer, he]
      exact congrArg some hwidth

section CleanUp

variable (s : Scene) (i : Interaction) (owned : Bool) (guard : FocusGuard) (kb : Keyboard)

/-- The part of the clean-up that writes. -/
def cursorShown : Scene := if i.hidesCursor then (s.showCursor i.canvas).2 else s

theorem drawsOn_cursorShown : DrawsOn i.widget i.canvas s (s.cursorShown i) := by
  rw [cursorShown]
  split
  · exact drawsOn_writeSequence _
  · rfl

/-- The part of the clean-up that follows, without the last close. -/
def handedBack : Scene :=
  ((s.cursorShown i).modifyDialog i.widget fun d => d.returnKeyboard kb).release guard

theorem cleanUp_eq :
    s.cleanUp i owned guard kb =
      if owned then (s.handedBack i guard kb).close i.canvas else s.handedBack i guard kb :=
  rfl

theorem canvases_handedBack :
    (s.handedBack i guard kb).canvases = (s.cursorShown i).canvases :=
  canvases_modifyDialog _ _ _

theorem evolves_handedBack : Evolves (s.cursorShown i) (s.handedBack i guard kb) :=
  (sameStanding_modifyDialog _ _ _).evolves.trans (evolves_modifyManager _ _ _)

theorem evolves_close (c : CanvasRef) : Evolves s (s.close c) :=
  (evolves_modifyManager s _ _).trans (evolves_modifyCanvas_close _ _)

theorem isClosed_close {s : Scene} {c : CanvasRef} {e : CanvasEntry}
    (he : s.canvases[c]? = some e) : (s.close c).isClosed c = true := by
  have he' : (s.deregister (s.managerOf c) c).canvases[c]? = some e := he
  rw [isClosed, close, canvases_modifyCanvas_self he']
  rfl

theorem notMem_entries_close (c : CanvasRef) : c ∉ (s.close c).entries (s.managerOf c) :=
  notMem_entries_deregister s (s.managerOf c) c

theorem sink?_close (c c' : CanvasRef) : (s.close c).sink? c' = s.sink? c' := by
  unfold sink? close modifyCanvas
  rw [getElem?_modifyEntry]
  change (if c = c' then s.canvases[c']?.map _ else s.canvases[c']?).map _ = _
  split
  · exact Option.map_map _ _ _
  · rfl

theorem width?_close (c c' : CanvasRef) : (s.close c).width? c' = s.width? c' := by
  unfold width? printer close modifyCanvas
  rw [getElem?_modifyEntry]
  change Option.map _ (Option.map _ (if c = c' then s.canvases[c']?.map _ else s.canvases[c']?)) = _
  split
  · cases s.canvases[c']? with
    | none => rfl
    | some e => rfl
  · rfl

theorem sink?_cleanUp (c : CanvasRef) :
    (s.cleanUp i owned guard kb).sink? c = (s.cursorShown i).sink? c := by
  have handed : (s.handedBack i guard kb).sink? c = (s.cursorShown i).sink? c := by
    rw [sink?, canvases_handedBack, sink?]
  rw [cleanUp_eq]
  split
  · exact (sink?_close _ _ _).trans handed
  · exact handed

theorem width?_cleanUp :
    (s.cleanUp i owned guard kb).width? i.canvas = s.width? i.canvas := by
  have shown : (s.cursorShown i).width? i.canvas = s.width? i.canvas := by
    rw [cursorShown]
    split
    · exact width?_writeSequence s i.canvas _
    · rfl
  have handed : (s.handedBack i guard kb).width? i.canvas = s.width? i.canvas := by
    rw [← shown, width?, printer, canvases_handedBack, (s.evolves_handedBack i guard kb).env]
    rfl
  rw [cleanUp_eq]
  split
  · exact (width?_close _ _ _).trans handed
  · exact handed

end CleanUp

/-- The scene that an asking ends in, by the scene in which it was opened and what the attempt left
of the keyboard and the scene. -/
def settled (opened : Scene) (i : Interaction) (owned : Bool) (tried : Keyboard × Scene) : Scene :=
  tried.2.cleanUp i owned (opened.focus i.canvas).1 tried.1

section

variable {i : Interaction} {kb : Keyboard} {opened : Scene} {tried : Keyboard × Scene}
  (owned : Bool) (h : Interaction.Attempted i (kb, (opened.focus i.canvas).2) tried)

include h

theorem closed_settled {e : CanvasEntry} (he : opened.canvases[i.canvas]? = some e) :
    (opened.settled i true tried).isClosed i.canvas = true ∧
      i.canvas ∉ (opened.settled i true tried).entries (opened.managerOf i.canvas) := by
  have evolved := (evolves_focus opened i.canvas).trans (h.drawn.standing.evolves.trans
    ((tried.2.drawsOn_cursorShown i).standing.evolves.trans
      (tried.2.evolves_handedBack i (opened.focus i.canvas).1 tried.1)))
  have hidentity := evolved.identity i.canvas
  rw [identity?, identity?, he, Option.map_some, Option.map_eq_some_iff] at hidentity
  obtain ⟨e', he', -⟩ := hidentity
  rw [settled, cleanUp_eq, if_pos rfl, ← evolved.managerOf]
  exact ⟨isClosed_close he', notMem_entries_close _ _⟩

end

theorem ask_snd (h : s.dialog? w = some d) (token : Token)
    (amid : List Occurrence → List Occurrence) :
    (s.ask w token amid).2 = (s.askDialog w d token amid).2 := by
  rw [ask, h]
  dsimp only
  split
  · rename_i hasked
    rw [hasked]
  · rename_i hasked
    rw [hasked]
    dsimp only
    split
    · rfl
    · rfl

/-- A sink that breaks for good after its first write. -/
def brokenPipe : CanvasOptions where
  behavior := .ofTrouble
    { first := some 1, trouble := .refuse ⟨.brokenPipe, "broken pipe"⟩ }
  width := .fixed 20

end Scene

end Inlay
