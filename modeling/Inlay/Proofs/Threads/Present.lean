import Inlay.Proofs.Scene.Registers
import Inlay.Proofs.Scene.InSight
import Inlay.Proofs.Scene.Widgets
import Inlay.Proofs.Threads.Focus

namespace Inlay

def Errand.canvas? : Errand → Option CanvasRef
  | draw _ c | focus c => some c
  | release _ => none

def Call.canvas? : Call → Option CanvasRef
  | errand e => e.canvas?
  | close c | drop c | write c _ => some c

/-- The canvas that the call of a thread is about. -/
def Activity.canvas? : Activity → Option CanvasRef
  | idle => none
  | preparing c | drawing _ c | erasing c _ | deregistering c | shutting c | dropping c
  | writing c _ => some c
  | waiting e | asking e | leaving e _ => e.canvas?
  | returned call _ => call.canvas?

/-- The canvases that a thread is still to erase. -/
def Activity.condemned : Activity → List CanvasRef
  | erasing _ rest => rest
  | _ => []

@[simp] theorem Call.canvas?_start (call : Call) : call.start.canvas? = call.canvas? := by
  unfold start
  split
  all_goals rfl

namespace Scene

variable {s : Scene} {c : CanvasRef}

theorem canvases_newCanvas_of_lt (m : ManagerRef) (canvas : Canvas) (here : c < s.canvases.size) :
    (s.newCanvas m canvas).2.canvases[c]? = s.canvases[c]? :=
  canvases_withCanvas_of_lt m canvas here

theorem size_canvases_newCanvas (s : Scene) (m : ManagerRef) (canvas : Canvas) :
    (s.newCanvas m canvas).2.canvases.size = s.canvases.size + 1 :=
  Array.size_push _

theorem managerOf_newCanvas_of_lt (m : ManagerRef) (canvas : Canvas)
    (here : c < s.canvases.size) : (s.newCanvas m canvas).2.managerOf c = s.managerOf c := by
  rw [managerOf, canvases_newCanvas_of_lt m canvas here, managerOf]

theorem canUpdate_newCanvas_of_lt (m : ManagerRef) (canvas : Canvas)
    (here : c < s.canvases.size) :
    (s.newCanvas m canvas).2.canUpdate ((s.newCanvas m canvas).2.managerOf c) c =
      s.canUpdate (s.managerOf c) c := by
  rw [managerOf_newCanvas_of_lt m canvas here, canUpdate, canUpdate, focused_newCanvas, numberOf,
    canvases_newCanvas_of_lt m canvas here, numberOf]

/-- A register with canvases of its own manager only. -/
def OwnRegister (s : Scene) (m : ManagerRef) : Prop := ∀ c ∈ s.entries m, s.Belongs c m

theorem OwnRegister.newCanvas {m : ManagerRef} (own : s.OwnRegister m) (orderly : s.Orderly)
    (m' : ManagerRef) (canvas : Canvas) : (s.newCanvas m' canvas).2.OwnRegister m := by
  intro c hmem
  rcases mem_of_mem_entries_newCanvas hmem with hold | ⟨rfl, rfl⟩
  · obtain ⟨number, hidentity⟩ := own c hold
    have here := (orderly.listed m).present c hold
    exact ⟨number, (s.identity?_newCanvas m' canvas c).trans ((if_neg here.ne).trans hidentity)⟩
  · exact ⟨_, (s.identity?_newCanvas m canvas _).trans (if_pos rfl)⟩

theorem grant_fst (s : Scene) (c : CanvasRef) :
    (s.grant c).1 = (s.entries (s.managerOf c)).filter fun e =>
      s.numberOf e ≠ s.numberOf c && s.isAlive e :=
  congrArg (List.filter _) (entries_modifyManager s (s.managerOf c) (s.managerOf c) fun _ => rfl)

theorem widgets_addHandles (s : Scene) (cs : List CanvasRef) :
    (cs.foldl addHandle s).widgets = s.widgets := by
  induction cs generalizing s with
  | nil => rfl
  | cons c rest ih => exact ih _

theorem widgets_drawAllowed (s : Scene) (c : CanvasRef) (call : DrawCall) :
    (s.drawAllowed c call).2.widgets = s.widgets := by
  cases call with
  | run | update => exact widgets_repaintUnlessClosed s c
  | clear => exact widgets_eraseUnlessClosed s c

end Scene

theorem Activity.condemned_of_isFresh {a : Activity} (h : a.isFresh = true) : a.condemned = [] := by
  cases a with
  | erasing => cases h
  | _ => rfl

theorem Activity.condemned_of_isAtRest {a : Activity} (h : a.isAtRest = true) :
    a.condemned = [] := by
  cases a with
  | erasing => cases h
  | _ => rfl

/-- The manager whose lock a thread has is told by the canvas of its call. -/
theorem Activity.holds?_congr {a : Activity} {s s' : Scene}
    (h : ∀ c, a.canvas? = some c → s'.managerOf c = s.managerOf c) : a.holds? s' = a.holds? s := by
  cases a with
  | asking errand | leaving errand =>
      cases errand with
      | draw call c | focus c => exact congrArg some (h c rfl)
      | release guard => rfl
  | drawing call c | erasing c rest => exact congrArg some (h c rfl)
  | idle | preparing | waiting | deregistering | shutting | dropping | writing | returned => rfl

namespace Threads

open Scene

variable {σ σ' : Threads} {t : ThreadRef}

def withScene (σ : Threads) (s : Scene) : Threads := { σ with scene := s }

@[simp] theorem scene_withScene (σ : Threads) (s : Scene) : (σ.withScene s).scene = s :=
  rfl

@[simp] theorem activity_withScene (σ : Threads) (s : Scene) :
    (σ.withScene s).activity = σ.activity :=
  rfl

namespace Section

/-- A call is about one canvas from its first section to its last. -/
theorem canvas?_eq (h : Section σ t σ') (t' : ThreadRef) :
    (σ'.activity t').canvas? = (σ.activity t').canvas? := by
  by_cases hne : t' = t
  · subst hne
    cases h with
    | rest => rfl
    | prepare c doing | acquire errand doing | allow call c doing | refuse call c doing
    | grant c doing | release guard doing | draw call c doing | erased c doing
    | erase c other rest doing | leave errand result doing | deregister c doing | shut c doing
    | drop c doing | write c sequence doing =>
        rw [doing]
        simp [Activity.canvas?, Errand.canvas?, Call.canvas?]
  · rw [h.activity_of_ne hne]

/-- Only a deregistration takes canvases off a register. -/
theorem entries_cases (h : Section σ t σ') (m : ManagerRef) :
    σ'.scene.entries m = σ.scene.entries m ∨
      ∃ c, σ.activity t = .deregistering c ∧
        σ'.scene.entries m = (σ.scene.deregister (σ.scene.managerOf c) c).entries m := by
  cases h with
  | rest | acquire | allow | refuse | erased | leave | shut | drop => exact .inl rfl
  | prepare c =>
      exact .inl (entries_of_managers (sameStanding_preparePrinter _ c).managers m)
  | grant c =>
      refine .inl ((entries_of_managers (managers_addHandles _ _) m).trans ?_)
      exact entries_modifyManager _ _ m fun _ => rfl
  | release guard => exact .inl (entries_modifyManager _ _ m fun _ => rfl)
  | draw call c => exact .inl (entries_of_managers (sameStanding_drawAllowed _ c call).managers m)
  | erase c other =>
      exact .inl (entries_of_managers (sameStanding_eraseUnlessClosed _ other).managers m)
  | deregister c doing => exact .inr ⟨c, doing, rfl⟩
  | write c sequence =>
      exact .inl (entries_of_managers (sameStanding_writeSequence _ c sequence).managers m)

theorem size_managers (h : Section σ t σ') :
    σ'.scene.managers.size = σ.scene.managers.size := by
  cases h with
  | rest | acquire | allow | refuse | erased | leave | shut | drop => rfl
  | prepare c => exact congrArg Array.size (sameStanding_preparePrinter _ c).managers
  | grant c =>
      exact (congrArg Array.size (managers_addHandles _ _)).trans Array.size_modify
  | release | deregister => exact Array.size_modify
  | draw call c => exact congrArg Array.size (sameStanding_drawAllowed _ c call).managers
  | erase c other => exact congrArg Array.size (sameStanding_eraseUnlessClosed _ other).managers
  | write c sequence => exact congrArg Array.size (sameStanding_writeSequence _ c sequence).managers

theorem widgets (h : Section σ t σ') : σ'.scene.widgets = σ.scene.widgets := by
  cases h with
  | rest | prepare | acquire | allow | refuse | release | erased | leave | deregister | shut
  | drop => rfl
  | grant c => exact widgets_addHandles _ _
  | draw call c => exact widgets_drawAllowed _ c call
  | erase c other => exact widgets_eraseUnlessClosed _ other
  | write c sequence => exact widgets_writeSequence _ c sequence

theorem orderly (h : Section σ t σ') (orderly : σ.scene.Orderly) : σ'.scene.Orderly := by
  have identity := h.evolves.identity
  cases h with
  | rest | acquire | allow | refuse | erased | leave => exact orderly
  | shut c | drop c => exact orderly.of_same rfl identity
  | prepare c => exact orderly.of_same (sameStanding_preparePrinter _ c).managers identity
  | grant c =>
      have granted := orderly.modifyManager (σ.scene.managerOf c)
        (f := fun manager => { manager with focused := some (σ.scene.numberOf c) }) (fun _ => rfl)
        (listed_modifyManager orderly.listed _ fun _ hlisted => hlisted)
      exact granted.of_same (managers_addHandles _ _) (evolves_addHandles _ _).identity
  | release guard => exact orderly.release guard
  | draw call c => exact orderly.of_same (sameStanding_drawAllowed _ c call).managers identity
  | erase c other =>
      exact orderly.of_same (sameStanding_eraseUnlessClosed _ other).managers identity
  | deregister c => exact orderly.deregister _ c
  | write c sequence =>
      exact orderly.of_same (sameStanding_writeSequence _ c sequence).managers identity

theorem mem_of_mem_entries (h : Section σ t σ') {c : CanvasRef} {m : ManagerRef}
    (hmem : c ∈ σ'.scene.entries m) : c ∈ σ.scene.entries m := by
  rcases h.entries_cases m with heq | ⟨c', -, heq⟩
  · rwa [heq] at hmem
  · rw [heq] at hmem
    exact mem_of_mem_entries_deregister hmem

theorem lt_size_iff (h : Section σ t σ') (c : CanvasRef) :
    c < σ'.scene.canvases.size ↔ c < σ.scene.canvases.size := by
  rw [Scene.lt_size_iff, h.evolves.identity, ← Scene.lt_size_iff]

theorem ownRegister (h : Section σ t σ') {m : ManagerRef} (own : σ.scene.OwnRegister m) :
    σ'.scene.OwnRegister m := by
  intro c hmem
  exact (own c (h.mem_of_mem_entries hmem)).of_identity (h.evolves.identity c)

end Section

/-- What holds of threads as long as every call is about a canvas that is there when it is
entered. -/
structure Sound (σ : Threads) : Prop where
  guarded : Guarded σ
  orderly : σ.scene.Orderly
  present : ∀ t c, (σ.activity t).canvas? = some c → c < σ.scene.canvases.size
  condemned : ∀ t, ∀ c ∈ (σ.activity t).condemned, c < σ.scene.canvases.size

namespace Sound

theorem start {s : Scene} (orderly : s.Orderly) : Sound { scene := s } :=
  ⟨.start orderly.numbered, orderly, nofun, nofun⟩

theorem step (sound : Sound σ) (h : Section σ t σ') : Sound σ' := by
  refine ⟨sound.guarded.step h, h.orderly sound.orderly, fun t' c hcanvas => ?_,
    fun t' c hmem => (h.lt_size_iff c).mpr ?_⟩
  · rw [h.canvas?_eq] at hcanvas
    exact (h.lt_size_iff c).mpr (sound.present t' c hcanvas)
  · by_cases hne : t' = t
    · subst hne
      cases h with
      | rest => exact sound.condemned t' c hmem
      | grant c' doing =>
          rw [activity_enter_self, Activity.condemned, grant_fst] at hmem
          exact (sound.orderly.listed _).present c (List.mem_filter.mp hmem).1
      | erase c' other rest doing =>
          rw [activity_enter_self] at hmem
          refine sound.condemned t' c ?_
          rw [doing]
          exact List.mem_cons_of_mem other hmem
      | _ => simp [Activity.condemned] at hmem
    · rw [h.activity_of_ne hne] at hmem
      exact sound.condemned t' c hmem

theorem enterCall (sound : Sound σ) (t : ThreadRef) {call : Call}
    (here : ∀ c, call.canvas? = some c → c < σ.scene.canvases.size) :
    Sound (σ.enterCall t call) := by
  refine ⟨sound.guarded.enterCall t call, ?_, fun t' c hcanvas => ?_, fun t' c hmem => ?_⟩
  · rw [scene_enterCall]
    exact sound.orderly
  · rw [scene_enterCall]
    rw [Threads.enterCall] at hcanvas
    split at hcanvas
    · by_cases hne : t' = t
      · rw [hne, activity_enter_self, Call.canvas?_start] at hcanvas
        exact here c hcanvas
      · rw [activity_enter_of_ne _ _ _ hne] at hcanvas
        exact sound.present t' c hcanvas
    · exact sound.present t' c hcanvas
  · rw [scene_enterCall]
    rw [Threads.enterCall] at hmem
    split at hmem
    · by_cases hne : t' = t
      · rw [hne, activity_enter_self,
          Activity.condemned_of_isFresh (Activity.isFresh_start call)] at hmem
        cases hmem
      · rw [activity_enter_of_ne _ _ _ hne] at hmem
        exact sound.condemned t' c hmem
    · exact sound.condemned t' c hmem

/-- No call under way notices that a canvas is made. -/
theorem newCanvas (sound : Sound σ) {m : ManagerRef} (there : m < σ.scene.managers.size)
    (canvas : Canvas) : Sound (σ.withScene (σ.scene.newCanvas m canvas).2) := by
  have numbered := numbered_newCanvas sound.orderly.numbered there canvas
  refine ⟨⟨numbered.distinct, ?_, ?_, ?_, ?_⟩, sound.orderly.newCanvas there canvas, ?_,
    ?_⟩
  · intro t m' hm
    refine sound.guarded.holder t m' (Eq.trans ?_ hm)
    exact (Activity.holds?_congr fun c hc =>
      managerOf_newCanvas_of_lt m canvas (sound.present t c hc)).symm
  · intro t call c hc
    have here := sound.present t c (congrArg Activity.canvas? hc)
    exact (canUpdate_newCanvas_of_lt m canvas here).trans (sound.guarded.allowed t call c hc)
  · intro t call c result hc
    have here := sound.present t c (congrArg Activity.canvas? hc)
    exact (sound.guarded.outcome t call c result hc).imp_right
      (canUpdate_newCanvas_of_lt m canvas here).trans
  · intro t c result hc
    have here := sound.present t c (congrArg Activity.canvas? hc)
    have heq := canvases_newCanvas_of_lt m canvas here
    rw [scene_withScene, identity?, isClosed, heq]
    exact sound.guarded.shut t c result hc
  · intro t c hc
    rw [scene_withScene, size_canvases_newCanvas]
    exact Nat.lt_succ_of_lt (sound.present t c hc)
  · intro t c hmem
    rw [scene_withScene, size_canvases_newCanvas]
    exact Nat.lt_succ_of_lt (sound.condemned t c hmem)

theorem withWidgets (sound : Sound σ) (widgets : Array Widget) :
    Sound (σ.withScene (σ.scene.withWidgets widgets)) := by
  obtain ⟨⟨distinct, holder, allowed, outcome, shut⟩, orderly, present, condemned⟩ := sound
  refine ⟨⟨distinct, fun t m hm => holder t m ?_, allowed, outcome, shut⟩,
    orderly.of_same rfl fun _ => rfl, present, condemned⟩
  exact (Activity.holds?_congr fun _ _ => rfl).symm.trans hm

end Sound

end Threads

end Inlay
