import Inlay.Proofs.Scene.Evolution
import Inlay.Proofs.Scene.Face
import Inlay.Proofs.Threads

namespace Inlay

namespace Scene

theorem evolves_grant (s : Scene) (c : CanvasRef) : Evolves s (s.grant c).2 :=
  (evolves_modifyManager s _ _).trans (evolves_addHandles _ _)

theorem sameStanding_drawAllowed (s : Scene) (c : CanvasRef) (call : DrawCall) :
    SameStanding s (s.drawAllowed c call).2 := by
  cases call with
  | run | update => exact sameStanding_repaintUnlessClosed s c
  | clear => exact sameStanding_eraseUnlessClosed s c

theorem focused_grant_of_ne (s : Scene) (c : CanvasRef) {m : ManagerRef}
    (h : s.managerOf c ≠ m) : (s.grant c).2.focused m = s.focused m := by
  unfold grant focused
  rw [managers_addHandles]
  exact (focused_modifyManager s _ m _).trans (if_neg h)

end Scene

/-- The canvas that the next section of a thread draws, erases or writes to. -/
def Activity.touches? : Activity → Option CanvasRef
  | drawing _ c | writing c _ | erasing _ (c :: _) => some c
  | _ => none

namespace Threads

open Scene

variable {σ σ' : Threads} {t : ThreadRef}

@[simp] theorem scene_enter (σ : Threads) (t : ThreadRef) (s : Scene) (a : Activity) :
    (σ.enter t s a).scene = s :=
  rfl

@[simp] theorem scene_withHolder (σ : Threads) (m : ManagerRef) (t : Option ThreadRef) :
    (σ.withHolder m t).scene = σ.scene :=
  rfl

@[simp] theorem activity_enter_self (σ : Threads) (t : ThreadRef) (s : Scene) (a : Activity) :
    (σ.enter t s a).activity t = a := by
  simp [enter]

theorem activity_enter_of_ne (σ : Threads) {t t' : ThreadRef} (s : Scene) (a : Activity)
    (h : t' ≠ t) : (σ.enter t s a).activity t' = σ.activity t' := by
  simp [enter, h]

@[simp] theorem activity_withHolder (σ : Threads) (m : ManagerRef) (t : Option ThreadRef) :
    (σ.withHolder m t).activity = σ.activity :=
  rfl

@[simp] theorem holder_enter (σ : Threads) (t : ThreadRef) (s : Scene) (a : Activity) :
    (σ.enter t s a).holder = σ.holder :=
  rfl

@[simp] theorem holder_withHolder_self (σ : Threads) (m : ManagerRef) (t : Option ThreadRef) :
    (σ.withHolder m t).holder m = t := by
  simp [withHolder]

theorem holder_withHolder_of_ne (σ : Threads) {m m' : ManagerRef} (t : Option ThreadRef)
    (h : m' ≠ m) : (σ.withHolder m t).holder m' = σ.holder m' := by
  simp [withHolder, h]

/-- The sections there are, each with what it takes and where it leads. -/
inductive Section (σ : Threads) (t : ThreadRef) : Threads → Prop
  | rest : Section σ t σ
  | prepare (c : CanvasRef) (doing : σ.activity t = .preparing c) :
      Section σ t (σ.enter t (σ.scene.preparePrinter c) (.waiting (.draw .run c)))
  | acquire (errand : Errand) (doing : σ.activity t = .waiting errand)
      (free : σ.holder (errand.manager σ.scene) = none) :
      Section σ t ((σ.enter t σ.scene (.asking errand)).withHolder
        (errand.manager σ.scene) (some t))
  | allow (call : DrawCall) (c : CanvasRef) (doing : σ.activity t = .asking (.draw call c))
      (allowed : σ.scene.canUpdate (σ.scene.managerOf c) c = true) :
      Section σ t (σ.enter t σ.scene (.drawing call c))
  | refuse (call : DrawCall) (c : CanvasRef) (doing : σ.activity t = .asking (.draw call c))
      (refused : σ.scene.canUpdate (σ.scene.managerOf c) c = false) :
      Section σ t (σ.enter t σ.scene (.leaving (.draw call c) (.ok ())))
  | grant (c : CanvasRef) (doing : σ.activity t = .asking (.focus c)) :
      Section σ t (σ.enter t (σ.scene.grant c).2 (.erasing c (σ.scene.grant c).1))
  | release (guard : FocusGuard) (doing : σ.activity t = .asking (.release guard)) :
      Section σ t (σ.enter t (σ.scene.release guard) (.leaving (.release guard) (.ok ())))
  | draw (call : DrawCall) (c : CanvasRef) (doing : σ.activity t = .drawing call c) :
      Section σ t (σ.enter t (σ.scene.drawAllowed c call).2
        (.leaving (.draw call c) (σ.scene.drawAllowed c call).1))
  | erased (c : CanvasRef) (doing : σ.activity t = .erasing c []) :
      Section σ t (σ.enter t σ.scene (.leaving (.focus c) (.ok ())))
  | erase (c other : CanvasRef) (rest : List CanvasRef)
      (doing : σ.activity t = .erasing c (other :: rest)) :
      Section σ t (σ.enter t ((σ.scene.eraseUnlessClosed other).2.dropHandle other)
        (.erasing c rest))
  | leave (errand : Errand) (result : Except Failure Unit)
      (doing : σ.activity t = .leaving errand result) :
      Section σ t ((σ.enter t σ.scene (.returned (.errand errand) result)).withHolder
        (errand.manager σ.scene) none)
  | deregister (c : CanvasRef) (doing : σ.activity t = .deregistering c) :
      Section σ t (σ.enter t (σ.scene.deregister (σ.scene.managerOf c) c) (.shutting c))
  | shut (c : CanvasRef) (doing : σ.activity t = .shutting c) :
      Section σ t (σ.enter t (σ.scene.modifyCanvas c Canvas.close)
        (.returned (.close c) (.ok ())))
  | drop (c : CanvasRef) (doing : σ.activity t = .dropping c) :
      Section σ t (σ.enter t (σ.scene.dropHandle c) (.returned (.drop c) (.ok ())))
  | write (c : CanvasRef) (sequence : Text) (doing : σ.activity t = .writing c sequence) :
      Section σ t (σ.enter t (σ.scene.writeSequence c sequence).2
        (.returned (.write c sequence) (σ.scene.writeSequence c sequence).1))

theorem section_advance (σ : Threads) (t : ThreadRef) : Section σ t (σ.advance t) := by
  unfold advance
  dsimp only
  split
  · exact .rest
  · exact .rest
  · exact .prepare _ (by assumption)
  · split
    · exact .acquire _ (by assumption) (by assumption)
    · exact .rest
  · split
    · exact .allow _ _ (by assumption) (by assumption)
    · rename_i hrefused
      exact .refuse _ _ (by assumption) (Bool.eq_false_iff.mpr hrefused)
  · exact .grant _ (by assumption)
  · exact .release _ (by assumption)
  · exact .draw _ _ (by assumption)
  · exact .erased _ (by assumption)
  · exact .erase _ _ _ (by assumption)
  · exact .leave _ _ (by assumption)
  · exact .deregister _ (by assumption)
  · exact .shut _ (by assumption)
  · exact .drop _ (by assumption)
  · exact .write _ _ (by assumption)

namespace Section

theorem evolves (h : Section σ t σ') : Evolves σ.scene σ'.scene := by
  cases h with
  | rest | acquire | allow | refuse | erased | leave => rfl
  | prepare c => exact (sameStanding_preparePrinter _ c).evolves
  | grant c => exact evolves_grant _ c
  | release | deregister => exact evolves_modifyManager _ _ _
  | draw call c => exact (sameStanding_drawAllowed _ c call).evolves
  | erase c other rest =>
      exact (sameStanding_eraseUnlessClosed _ other).evolves.trans (evolves_dropHandle _ other)
  | shut c => exact evolves_modifyCanvas_close _ c
  | drop c => exact evolves_dropHandle _ c
  | write c sequence => exact (sameStanding_writeSequence _ c sequence).evolves

/-- Only the section of a focus call hands the focus on; others take it away at most. -/
theorem focused (h : Section σ t σ') (m : ManagerRef) :
    σ'.scene.focused m = σ.scene.focused m ∨ σ'.scene.focused m = none ∨
      ∃ c, σ.activity t = .asking (.focus c) ∧ σ.scene.managerOf c = m := by
  cases h with
  | rest | acquire | allow | refuse | erased | leave | shut | drop => exact Or.inl rfl
  | prepare c => exact Or.inl ((sameStanding_preparePrinter _ c).focused m)
  | grant c doing =>
      by_cases hm : σ.scene.managerOf c = m
      · exact Or.inr (Or.inr ⟨c, doing, hm⟩)
      · exact Or.inl (focused_grant_of_ne _ c hm)
  | release guard =>
      rcases focused_release σ.scene guard m with h | h
      · exact Or.inl h
      · exact Or.inr (Or.inl h)
  | draw call c => exact Or.inl ((sameStanding_drawAllowed _ c call).focused m)
  | erase c other rest => exact Or.inl ((sameStanding_eraseUnlessClosed _ other).focused m)
  | deregister c =>
      rcases focused_deregister σ.scene _ m c with h | h
      · exact Or.inl h
      · exact Or.inr (Or.inl h)
  | write c sequence => exact Or.inl ((sameStanding_writeSequence _ c sequence).focused m)

theorem activity_of_ne (h : Section σ t σ') {t' : ThreadRef} (hne : t' ≠ t) :
    σ'.activity t' = σ.activity t' := by
  cases h with
  | rest => rfl
  | _ => simp [activity_enter_of_ne, hne]

theorem face?_eq (h : Section σ t σ') {c : CanvasRef}
    (untouched : (σ.activity t).touches? ≠ some c ∨ σ.scene.isClosed c = true) :
    σ'.scene.face? c = σ.scene.face? c := by
  have hopen : ∀ c', (σ.activity t).touches? = some c' →
      c' ≠ c ∨ σ.scene.isClosed c' = true := by
    intro c' htouches
    by_cases heq : c' = c
    · subst heq
      exact Or.inr (untouched.resolve_left (not_not_intro htouches))
    · exact Or.inl heq
  cases h with
  | rest | acquire | allow | refuse | release | erased | leave | deregister => rfl
  | prepare c' => exact face?_preparePrinter _ c' c
  | grant c' => exact face?_addHandles _ _ c
  | draw call c' doing =>
      have hc := hopen c' (by rw [doing]; rfl)
      cases call with
      | run | update => exact face?_repaintUnlessClosed _ hc
      | clear => exact face?_eraseUnlessClosed _ hc
  | erase c' other rest doing =>
      exact (face?_dropHandle _ other c).trans
        (face?_eraseUnlessClosed _ (hopen other (by rw [doing]; rfl)))
  | shut c' => exact face?_modifyCanvas_close _ c' c
  | drop c' => exact face?_dropHandle _ c' c
  | write c' sequence doing =>
      exact face?_writeSequence _ sequence (hopen c' (by rw [doing]; rfl))

end Section

end Threads

end Inlay
