import Inlay.Proofs.Prompts.Phases
import Inlay.Proofs.Tasks.Crew

namespace Inlay

inductive Widget.Kind where
  | dialog
  | spinner
  | tasks
deriving DecidableEq, Repr

def Widget.kind : Widget → Kind
  | dialog _ => .dialog
  | spinner _ => .spinner
  | tasks _ => .tasks

namespace Scene

open Keyboard

variable {w w' : Nat} {c c' : CanvasRef} {s s' s'' : Scene} {d : Dialog} {l : TaskList}

/-- What kind of widget there is and where it draws. -/
def place? (s : Scene) (w : Nat) : Option (Widget.Kind × Slot) :=
  s.widgets[w]?.map fun widget => (widget.kind, widget.slot)

theorem place?_of_dialog? (h : s.dialog? w = some d) : s.place? w = some (.dialog, d.slot) := by
  rw [place?, widget_of_dialog? h]
  rfl

theorem place?_of_tasks? (h : s.tasks? w = some l) : s.place? w = some (.tasks, l.slot) := by
  rw [place?, widgets_of_tasks? h]
  rfl

theorem exists_dialog {slot : Slot} (h : s.place? w = some (.dialog, slot)) :
    ∃ d, s.dialog? w = some d ∧ d.slot = slot := by
  obtain ⟨widget, hwidget, hplace⟩ := Option.map_eq_some_iff.mp h
  cases widget with
  | dialog d => exact ⟨d, by rw [dialog?, hwidget], congrArg Prod.snd hplace⟩
  | spinner | tasks => cases hplace

theorem exists_tasks {slot : Slot} (h : s.place? w = some (.tasks, slot)) :
    ∃ l, s.tasks? w = some l ∧ l.slot = slot := by
  obtain ⟨widget, hwidget, hplace⟩ := Option.map_eq_some_iff.mp h
  cases widget with
  | tasks l => exact ⟨l, by rw [tasks?, hwidget], congrArg Prod.snd hplace⟩
  | spinner | dialog => cases hplace

/-- The widget still draws where it did, and if the canvas is closed, its face is as it was. -/
structure Idle (w : Nat) (c : CanvasRef) (s s' : Scene) : Prop where
  place : s'.place? w = s.place? w
  canvas : s.isClosed c = true → s'.isClosed c = true ∧ s'.face? c = s.face? c

namespace Idle

@[refl] theorem refl (w : Nat) (c : CanvasRef) (s : Scene) : Idle w c s s :=
  ⟨rfl, fun closed => ⟨closed, rfl⟩⟩

theorem trans (h : Idle w c s s') (h' : Idle w c s' s'') : Idle w c s s'' := by
  refine ⟨h'.place.trans h.place, fun closed => ?_⟩
  obtain ⟨closed', hface⟩ := h.canvas closed
  obtain ⟨closed'', hface'⟩ := h'.canvas closed'
  exact ⟨closed'', hface'.trans hface⟩

end Idle

theorem place?_of_widgets (h : s'.widgets = s.widgets) (w : Nat) :
    s'.place? w = s.place? w := by
  rw [place?, h, place?]

theorem idle_of_widgets (widgets : s'.widgets = s.widgets) (env : s'.env = s.env)
    (canvases : s'.canvases = s.canvases) : Idle w c s s' := by
  refine ⟨place?_of_widgets widgets w, fun closed => ?_⟩
  rw [isClosed, face?, canvases, env]
  exact ⟨closed, rfl⟩

/-- What is done to one canvas leaves a closed one alone, be it the same or another. -/
theorem idle_of_face (same : SameStanding s s') (widgets : s'.widgets = s.widgets)
    (face : c' ≠ c ∨ s.isClosed c' = true → s'.face? c = s.face? c) : Idle w c s s' := by
  refine ⟨place?_of_widgets widgets w, fun closed => ⟨(same.isClosed c).trans closed, face ?_⟩⟩
  rcases eq_or_ne c' c with rfl | hne
  · exact Or.inr closed
  · exact Or.inl hne

theorem idle_update (s : Scene) (c' : CanvasRef) : Idle w c s (s.update c').2 := by
  rw [update]
  split
  · exact idle_of_face (sameStanding_repaintUnlessClosed s c') (widgets_repaintUnlessClosed s c')
      s.face?_repaintUnlessClosed
  · exact .refl w c s

theorem idle_run (s : Scene) (c' : CanvasRef) : Idle w c s (s.run c').2 := by
  have face (_ : c' ≠ c ∨ s.isClosed c' = true) : (s.preparePrinter c').face? c = s.face? c :=
    face?_preparePrinter s c' c
  have prepared : Idle w c s (s.preparePrinter c') :=
    idle_of_face (sameStanding_preparePrinter s c') rfl face
  exact prepared.trans (idle_update _ c')

theorem idle_eraseUnlessClosed (s : Scene) (c' : CanvasRef) :
    Idle w c s (s.eraseUnlessClosed c').2 :=
  idle_of_face (sameStanding_eraseUnlessClosed s c') (widgets_eraseUnlessClosed s c')
    s.face?_eraseUnlessClosed

theorem idle_clear (s : Scene) (c' : CanvasRef) : Idle w c s (s.clear c').2 := by
  rw [clear]
  split
  · exact idle_eraseUnlessClosed s c'
  · exact .refl w c s

theorem idle_writeSequence (s : Scene) (c' : CanvasRef) (sequence : Text) :
    Idle w c s (s.writeSequence c' sequence).2 :=
  idle_of_face (sameStanding_writeSequence s c' sequence) (widgets_writeSequence s c' sequence)
    (s.face?_writeSequence sequence)

theorem idle_eraseAll (s : Scene) (cs : List CanvasRef) : Idle w c s (s.eraseAll cs) := by
  induction cs generalizing s with
  | nil => exact .refl w c s
  | cons c' rest ih => exact (idle_eraseUnlessClosed s c').trans (ih _)

theorem idle_focus (s : Scene) (c' : CanvasRef) : Idle w c s (s.focus c').2 := by
  refine Idle.trans ?_ (idle_eraseAll _ _)
  exact idle_of_widgets rfl rfl rfl

theorem idle_close (s : Scene) (c' : CanvasRef) : Idle w c s (s.close c') := by
  refine ⟨place?_of_widgets rfl w, fun closed => ⟨(evolves_close s c').closed c closed, ?_⟩⟩
  exact face?_modifyCanvas_close (s.deregister (s.managerOf c') c') c' c

theorem getElem?_setWidget {old : Widget} (h : s.widgets[w]? = some old) (widget : Widget) :
    (s.setWidget w widget).widgets[w]? = some widget := by
  obtain ⟨hsize, -⟩ := Array.getElem?_eq_some_iff.mp h
  rw [setWidget, Array.getElem?_setIfInBounds, if_pos rfl, if_pos hsize]

theorem idle_setWidget {widget : Widget}
    (same : ∀ old, s.widgets[w']? = some old →
      (widget.kind, widget.slot) = (old.kind, old.slot)) :
    Idle w c s (s.setWidget w' widget) := by
  refine ⟨?_, fun closed => ⟨closed, rfl⟩⟩
  rw [place?, setWidget, Array.getElem?_setIfInBounds, place?]
  split
  · rename_i heq
    subst heq
    cases hold : s.widgets[w']? with
    | none =>
        rw [Array.getElem?_eq_none_iff] at hold
        rw [if_neg (Nat.not_lt.mpr hold)]
    | some old =>
        obtain ⟨hsize, -⟩ := Array.getElem?_eq_some_iff.mp hold
        rw [if_pos hsize]
        exact congrArg some (same old hold)
  · rfl

theorem idle_modifyDialog {f : Dialog → Dialog} (same : ∀ d, (f d).slot = d.slot) (s : Scene)
    (w' : Nat) : Idle w c s (s.modifyDialog w' f) := by
  rw [modifyDialog]
  split
  · rename_i d hd
    refine idle_setWidget fun old hold => ?_
    obtain rfl := Option.some.inj ((widget_of_dialog? hd).symm.trans hold)
    exact congrArg (Prod.mk _) (same d)
  · exact .refl w c s

theorem idle_modifyTasks {f : TaskList → TaskList} (same : ∀ l, (f l).slot = l.slot) (s : Scene)
    (w' : Nat) : Idle w c s (s.modifyTasks w' f) := by
  rw [modifyTasks]
  split
  · rename_i l hl
    refine idle_setWidget fun old hold => ?_
    obtain rfl := Option.some.inj ((widgets_of_tasks? hl).symm.trans hold)
    exact congrArg (Prod.mk _) (same l)
  · exact .refl w c s

theorem idle_promptListener (event : KeyEvent) (s : Scene) :
    Idle w c s (promptListener w' c' event s).2 := by
  rw [promptListener]
  split
  · exact .refl w c s
  · rename_i d hd
    have followed : Idle w c s
        (s.modifyDialog w' fun d' => { d' with prompt := (d.prompt.press event).2 }) := by
      apply idle_modifyDialog
      exact fun _ => rfl
    exact followed.trans (idle_update _ c')

theorem idle_cursorHidden (s : Scene) (i : Interaction) : Idle w c s (s.cursorHidden i) := by
  unfold cursorHidden
  split
  · exact idle_writeSequence s i.canvas _
  · exact .refl w c s

theorem idle_cursorShown (s : Scene) (i : Interaction) : Idle w c s (s.cursorShown i) := by
  unfold cursorShown
  split
  · exact idle_writeSequence s i.canvas _
  · exact .refl w c s

namespace Interaction

section

variable {R : Scene → Scene → Prop} (i : Interaction) (refl : ∀ s, R s s)
  (trans : ∀ {s s' s''}, R s s' → R s' s'' → R s s'')
  (listened : ∀ event s, R s (promptListener i.widget i.canvas event s).2)
  (waited : ∀ (s : Scene) watch, R s { s with watch := watch })

include refl trans listened waited

/-- What the listener and the passing of time agree with, a reading of keys agrees with. -/
theorem related_readKeys (amid : List Occurrence → List Occurrence) (token : Token)
    (state : Keyboard × Scene) : R state.2 (i.readKeys amid token state).2.2 := by
  obtain ⟨kb, s⟩ := state
  exact trans (own_listenAmid kb i.config amid token s.watch s refl trans listened) (waited _ _)

theorem related_finish (cleared : ∀ s, R s (s.clear i.canvas).2)
    (amid : List Occurrence → List Occurrence) (token : Token) (kb : Keyboard) (s : Scene) :
    R s (i.finish (token.askWithin i.limit s.watch.now (i.readKeys amid) (kb, s))).2.2 := by
  have asked : R s (token.askWithin i.limit s.watch.now (i.readKeys amid) (kb, s)).2.2 :=
    token.state_askWithin (R := fun before after => R before.2 after.2) (fun state => refl state.2)
      (related_readKeys i refl trans listened waited amid) i.limit s.watch.now (kb, s)
  generalize token.askWithin i.limit s.watch.now (i.readKeys amid) (kb, s) = read at asked ⊢
  obtain ⟨result, kb', s'⟩ := read
  cases result with
  | error failure => exact asked
  | ok =>
      unfold finish
      dsimp only
      split
      · exact trans asked (cleared s')
      · exact asked

end

theorem idle_attempt (i : Interaction) (amid : List Occurrence → List Occurrence) (token : Token)
    (kb : Keyboard) (s : Scene) : Idle w c s (i.attempt amid token kb s).2.2 := by
  have hidden : Idle w c s (s.cursorHidden i) := idle_cursorHidden s i
  have course := course_attempt i amid token kb s
  generalize i.attempt amid token kb s = tried at course ⊢
  cases course with
  | unhidden => exact hidden
  | undrawn => exact hidden.trans (idle_run _ i.canvas)
  | read =>
      refine (hidden.trans (idle_run _ i.canvas)).trans ?_
      exact i.related_finish (R := Idle w c) (.refl w c) Idle.trans idle_promptListener
        (fun _ _ => idle_of_widgets rfl rfl rfl) (idle_clear · i.canvas) amid token kb _

end Interaction

theorem idle_cleanUp (s : Scene) (i : Interaction) (owned : Bool) (guard : FocusGuard)
    (kb : Keyboard) : Idle w c s (s.cleanUp i owned guard kb) := by
  have returned (d : Dialog) : (d.returnKeyboard kb).slot = d.slot := by
    obtain ⟨keyboard, hreturned⟩ := returnKeyboard_eq d kb
    rw [hreturned]
  have handed : Idle w c s (s.handedBack i guard kb) := by
    refine ((idle_cursorShown s i).trans (idle_modifyDialog returned _ i.widget)).trans ?_
    exact idle_of_widgets rfl rfl rfl
  rw [cleanUp_eq]
  split
  · exact handed.trans (idle_close _ i.canvas)
  · exact handed

/-- Once its prompt is open, the rest of an asking leaves a closed canvas alone. -/
theorem idle_asked (h : s.dialog? w' = some d) (token : Token)
    (amid : List Occurrence → List Occurrence) :
    Idle w c (s.openDialog w' d).2 (s.ask w' token amid).2 := by
  rw [ask_snd h, askDialog_eq]
  have granted : Idle w c (s.openDialog w' d).2 (s.granted w' d) := idle_focus _ _
  refine granted.trans ?_
  have attempted := (s.interaction w' d).idle_attempt (w := w) (c := c) amid token d.reader.load
    (s.granted w' d)
  exact attempted.trans (idle_cleanUp _ _ _ _ _)

theorem idle_openDialog (shared : d.slot = .shared c') : Idle w c s (s.openDialog w' d).2 := by
  rw [openDialog_of_shared shared]
  apply idle_modifyDialog
  exact fun _ => rfl

theorem idle_after (σ : Crew) (moves : List Crew.Move) :
    Idle w c σ.scene (σ.after w' c' moves).scene := by
  have modified (s : Scene) (index : Nat) (f : TaskRecord → TaskRecord) :
      Idle w c s (s.modifyTasks w' (·.modifyRecord index f)) := by
    apply idle_modifyTasks
    exact fun _ => rfl
  exact Crew.related_after (R := Idle w c) (.refl w c) modified Idle.trans idle_update
    (fun _ _ => idle_of_widgets rfl rfl rfl) (fun _ _ => idle_of_widgets rfl rfl rfl) σ moves

theorem idle_closeTasks (s : Scene) (c' : CanvasRef) (owned : Bool) :
    Idle w c s (s.closeTasks w' c' owned).2 := by
  rw [closeTasks_snd]
  split
  · exact (idle_update s c').trans (idle_close _ c')
  · exact idle_update s c'

end Scene

end Inlay
