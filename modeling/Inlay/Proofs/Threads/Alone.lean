import Inlay.Proofs.Threads.Sections
import Mathlib.Logic.Relation

namespace Inlay

namespace Scene

def perform (s : Scene) : Call → Except Failure Unit × Scene
  | .errand (.draw call c) => s.draw c call
  | .errand (.focus c) => (.ok (), (s.focus c).2)
  | .errand (.release guard) => (.ok (), s.release guard)
  | .close c => (.ok (), s.close c)
  | .drop c => (.ok (), s.dropHandle c)
  | .write c sequence => s.writeSequence c sequence

theorem modifyEntry_comm (s : Scene) (c c' : CanvasRef) {f g : CanvasEntry → CanvasEntry}
    (h : ∀ e, f (g e) = g (f e)) :
    (s.modifyEntry c f).modifyEntry c' g = (s.modifyEntry c' g).modifyEntry c f := by
  have : (s.canvases.modify c f).modify c' g = (s.canvases.modify c' g).modify c f := by
    apply Array.ext_getElem?
    intro i
    simp only [Array.getElem?_modify]
    split
    · split
      · simp [Option.map_map, Function.comp_def, h]
      · rfl
    · rfl
  simp only [modifyEntry, this]

theorem eraseUnlessClosed_snd (s : Scene) (c : CanvasRef) :
    (s.eraseUnlessClosed c).2 = s.modifyCanvas c fun canvas => canvas.eraseUnlessClosed.2 := by
  unfold eraseUnlessClosed setCanvas modifyCanvas modifyEntry
  split
  · rename_i hnone
    have : s.canvases.modify c (fun e => { e with canvas := e.canvas.eraseUnlessClosed.2 }) =
        s.canvases := by
      apply Array.ext_getElem?
      intro i
      rw [Array.getElem?_modify]
      split
      · rename_i heq
        subst heq
        rw [hnone]
        rfl
      · rfl
    rw [this]
  · rename_i e he
    have : s.canvases.modify c (fun e' => { e' with canvas := e.canvas.eraseUnlessClosed.2 }) =
        s.canvases.modify c fun e => { e with canvas := e.canvas.eraseUnlessClosed.2 } := by
      apply Array.ext_getElem?
      intro i
      simp only [Array.getElem?_modify]
      split
      · rename_i heq
        subst heq
        rw [he]
        rfl
      · rfl
    rw [← this]

theorem eraseUnlessClosed_addHandle (s : Scene) (c c' : CanvasRef) :
    ((s.addHandle c).eraseUnlessClosed c').2 = (s.eraseUnlessClosed c').2.addHandle c := by
  rw [eraseUnlessClosed_snd, eraseUnlessClosed_snd]
  exact modifyEntry_comm s c c' fun _ => rfl

theorem dropHandle_addHandle (s : Scene) (c : CanvasRef) : (s.addHandle c).dropHandle c = s := by
  have : (s.canvases.modify c fun e => { e with handles := e.handles + 1 }).modify c
      (fun e => { e with handles := e.handles - 1 }) = s.canvases := by
    apply Array.ext_getElem?
    intro i
    simp only [Array.getElem?_modify]
    split
    · simp [Option.map_map, Function.comp_def]
    · rfl
  simp only [addHandle, dropHandle, modifyEntry, this]

theorem foldl_addHandle_addHandle (s : Scene) (c : CanvasRef) (cs : List CanvasRef) :
    cs.foldl addHandle (s.addHandle c) = (cs.foldl addHandle s).addHandle c := by
  induction cs generalizing s with
  | nil => rfl
  | cons c' rest ih =>
      have hcomm : (s.addHandle c).addHandle c' = (s.addHandle c').addHandle c :=
        modifyEntry_comm s c c' fun _ => rfl
      rw [List.foldl_cons, List.foldl_cons, hcomm, ih]

theorem eraseUnlessClosed_addHandles (s : Scene) (c : CanvasRef) (cs : List CanvasRef) :
    ((cs.foldl addHandle s).eraseUnlessClosed c).2 =
      cs.foldl addHandle (s.eraseUnlessClosed c).2 := by
  induction cs generalizing s with
  | nil => rfl
  | cons c' rest ih => rw [List.foldl_cons, ih, eraseUnlessClosed_addHandle, List.foldl_cons]

/-- Erases canvases in order and gives up a handle to each. -/
def eraseAndDrop (s : Scene) : List CanvasRef → Scene
  | [] => s
  | c :: rest => ((s.eraseUnlessClosed c).2.dropHandle c).eraseAndDrop rest

theorem eraseAndDrop_addHandles (s : Scene) (cs : List CanvasRef) :
    (cs.foldl addHandle s).eraseAndDrop cs = s.eraseAll cs := by
  induction cs generalizing s with
  | nil => rfl
  | cons c rest ih =>
      rw [List.foldl_cons, foldl_addHandle_addHandle, eraseAndDrop, eraseUnlessClosed_addHandle,
        dropHandle_addHandle, eraseUnlessClosed_addHandles, ih, eraseAll]

theorem focus_eq_grant (s : Scene) (c : CanvasRef) :
    (s.focus c).2 = (s.grant c).2.eraseAndDrop (s.grant c).1 :=
  (eraseAndDrop_addHandles _ _).symm

def drawIfAllowed (s : Scene) (c : CanvasRef) (call : DrawCall) : Except Failure Unit × Scene :=
  if s.canUpdate (s.managerOf c) c then s.drawAllowed c call else (.ok (), s)

end Scene

namespace Threads

/-- The threads with one of them put elsewhere. -/
def placed (σ : Threads) (t : ThreadRef) (s : Scene) (holder : ManagerRef → Option ThreadRef)
    (a : Activity) : Threads :=
  ⟨s, holder, Function.update σ.activity t a⟩

variable (σ : Threads) (t : ThreadRef) (s : Scene) (holder : ManagerRef → Option ThreadRef)

@[simp] theorem activity_placed (a : Activity) : (σ.placed t s holder a).activity t = a := by
  simp [placed]

@[simp] theorem scene_placed (a : Activity) : (σ.placed t s holder a).scene = s :=
  rfl

@[simp] theorem holder_placed (a : Activity) : (σ.placed t s holder a).holder = holder :=
  rfl

@[simp] theorem enter_placed (s' : Scene) (a a' : Activity) :
    (σ.placed t s holder a).enter t s' a' = σ.placed t s' holder a' := by
  simp [placed, enter]

@[simp] theorem withHolder_placed (m : ManagerRef) (t' : Option ThreadRef) (a : Activity) :
    (σ.placed t s holder a).withHolder m t' =
      σ.placed t s (Function.update holder m t') a :=
  rfl

/-- What sections of one thread alone lead to. -/
def AloneTo (t : ThreadRef) : Threads → Threads → Prop :=
  Relation.ReflTransGen fun σ σ' => σ' = σ.advance t

theorem aloneTo_of_advance {σ σ' σ'' : Threads} {t : ThreadRef} (h : σ.advance t = σ')
    (later : AloneTo t σ' σ'') : AloneTo t σ σ'' :=
  Relation.ReflTransGen.head h.symm later

theorem aloneTo_erased (c : CanvasRef) (cs : List CanvasRef) :
    AloneTo t (σ.placed t s holder (.erasing c cs))
      (σ.placed t (s.eraseAndDrop cs) holder (.leaving (.focus c) (.ok ()))) := by
  induction cs generalizing s with
  | nil => exact aloneTo_of_advance (by simp [advance, Scene.eraseAndDrop]) .refl
  | cons other rest ih => exact aloneTo_of_advance (by simp [advance]) (ih _)

variable {s holder}

/-- From the wait for the lock to the end of the call. -/
theorem aloneTo_errand (errand : Errand) (free : holder (errand.manager s) = none)
    {s' : Scene} {result : Except Failure Unit} (hmanager : errand.manager s' = errand.manager s)
    (inside : AloneTo t
      (σ.placed t s (Function.update holder (errand.manager s) (some t)) (.asking errand))
      (σ.placed t s' (Function.update holder (errand.manager s) (some t))
        (.leaving errand result))) :
    AloneTo t (σ.placed t s holder (.waiting errand))
      (σ.placed t s' holder (.returned (.errand errand) result)) := by
  refine aloneTo_of_advance (by simp [advance, free]) (inside.trans ?_)
  refine aloneTo_of_advance ?_ .refl
  have : Function.update (Function.update holder (errand.manager s) (some t))
      (errand.manager s) none = holder := by
    rw [Function.update_idem, ← free, Function.update_eq_self]
  simp [advance, hmanager, this]

theorem aloneTo_draw (call : DrawCall) (c : CanvasRef) (free : holder (s.managerOf c) = none) :
    AloneTo t (σ.placed t s holder (.waiting (.draw call c)))
      (σ.placed t (s.drawIfAllowed c call).2 holder
        (.returned (.errand (.draw call c)) (s.drawIfAllowed c call).1)) := by
  by_cases hallowed : s.canUpdate (s.managerOf c) c = true
  · rw [Scene.drawIfAllowed, if_pos hallowed]
    refine aloneTo_errand σ t _ free ((Scene.sameStanding_drawAllowed s c call).managerOf c) ?_
    refine aloneTo_of_advance (by simp [advance, hallowed]; rfl) ?_
    exact aloneTo_of_advance (by simp [advance]) .refl
  · rw [Scene.drawIfAllowed, if_neg hallowed]
    refine aloneTo_errand σ t _ free rfl ?_
    exact aloneTo_of_advance (by simp [advance, hallowed]) .refl

theorem aloneTo_focus (c : CanvasRef) (free : holder (s.managerOf c) = none) :
    AloneTo t (σ.placed t s holder (.waiting (.focus c)))
      (σ.placed t (s.focus c).2 holder (.returned (.errand (.focus c)) (.ok ()))) := by
  rw [Scene.focus_eq_grant]
  refine aloneTo_errand σ t _ free ?_ ?_
  · rw [← Scene.focus_eq_grant]
    exact (Scene.evolves_focus s c).managerOf c
  · exact aloneTo_of_advance (by simp [advance]) (aloneTo_erased σ t _ _ c _)

theorem aloneTo_release (guard : FocusGuard) (free : holder guard.manager = none) :
    AloneTo t (σ.placed t s holder (.waiting (.release guard)))
      (σ.placed t (s.release guard) holder (.returned (.errand (.release guard)) (.ok ()))) := by
  refine aloneTo_errand σ t _ free rfl ?_
  exact aloneTo_of_advance (by simp [advance]) .refl

/-- The sections of a call that no other thread disturbs do what the call does in one go. -/
theorem aloneTo_perform (σ : Threads) (t : ThreadRef) (call : Call)
    (rest : (σ.activity t).isAtRest = true) (free : ∀ m, σ.holder m = none) :
    AloneTo t (σ.enterCall t call)
      (σ.placed t (σ.scene.perform call).2 σ.holder
        (.returned call (σ.scene.perform call).1)) := by
  have hbegin : σ.enterCall t call = σ.placed t σ.scene σ.holder call.start := by
    rw [enterCall, if_pos rest]
    rfl
  rw [hbegin]
  cases call with
  | errand errand =>
      cases errand with
      | draw call c =>
          cases call with
          | run =>
              refine aloneTo_of_advance (by simp [advance, Call.start]; rfl) ?_
              exact aloneTo_draw σ t .run c (free _)
          | update => exact aloneTo_draw σ t .update c (free _)
          | clear => exact aloneTo_draw σ t .clear c (free _)
      | focus c => exact aloneTo_focus σ t c (free _)
      | release guard => exact aloneTo_release σ t guard (free _)
  | close c =>
      refine aloneTo_of_advance (by simp [advance, Call.start]; rfl) ?_
      exact aloneTo_of_advance (by simp [advance, Scene.perform, Scene.close]) .refl
  | drop c => exact aloneTo_of_advance (by simp [advance, Call.start, Scene.perform]) .refl
  | write c sequence =>
      exact aloneTo_of_advance (by simp [advance, Call.start, Scene.perform]) .refl

end Threads

end Inlay
