import Inlay.Proofs.Scene.Standing

namespace Inlay

namespace Scene

/-- The manager of a canvas and its number there. -/
def identity? (s : Scene) (c : CanvasRef) : Option (ManagerRef × Nat) :=
  s.canvases[c]?.map fun e => (e.manager, e.number)

def Belongs (s : Scene) (c : CanvasRef) (m : ManagerRef) : Prop :=
  ∃ number, s.identity? c = some (m, number)

theorem managerOf_eq_identity (s : Scene) (c : CanvasRef) :
    s.managerOf c = ((s.identity? c).map Prod.fst).getD 0 := by
  cases h : s.canvases[c]? <;> simp [managerOf, identity?, h]

theorem numberOf_eq_identity (s : Scene) (c : CanvasRef) :
    s.numberOf c = ((s.identity? c).map Prod.snd).getD 0 := by
  cases h : s.canvases[c]? <;> simp [numberOf, identity?, h]

theorem Belongs.managerOf {s : Scene} {c : CanvasRef} {m : ManagerRef} (h : s.Belongs c m) :
    s.managerOf c = m := by
  obtain ⟨number, hidentity⟩ := h
  rw [managerOf_eq_identity, hidentity]
  rfl

theorem Belongs.of_identity {s s' : Scene} {c : CanvasRef} {m : ManagerRef} (h : s.Belongs c m)
    (identity : s'.identity? c = s.identity? c) : s'.Belongs c m := by
  rwa [Belongs, identity]

/-- What holds of every section: canvases keep their identity, and the closed ones stay closed. -/
structure Evolves (s s' : Scene) : Prop where
  env : s'.env = s.env
  identity : ∀ c, s'.identity? c = s.identity? c
  closed : ∀ c, s.isClosed c = true → s'.isClosed c = true

namespace Evolves

variable {s s' s'' : Scene}

@[refl] theorem refl (s : Scene) : Evolves s s := ⟨rfl, fun _ => rfl, fun _ h => h⟩

theorem trans (h : Evolves s s') (h' : Evolves s' s'') : Evolves s s'' :=
  ⟨h'.env.trans h.env, fun c => (h'.identity c).trans (h.identity c),
    fun c hc => h'.closed c (h.closed c hc)⟩

theorem managerOf (h : Evolves s s') (c : CanvasRef) : s'.managerOf c = s.managerOf c := by
  rw [managerOf_eq_identity, managerOf_eq_identity, h.identity]

theorem numberOf (h : Evolves s s') (c : CanvasRef) : s'.numberOf c = s.numberOf c := by
  rw [numberOf_eq_identity, numberOf_eq_identity, h.identity]

end Evolves

theorem SameStanding.evolves {s s' : Scene} (h : SameStanding s s') : Evolves s s' := by
  refine ⟨h.env, ?_, fun c hc => (h.isClosed c).trans hc⟩
  intro c
  have hstanding := congrArg (Option.map fun st => (st.manager, st.number)) (h.standing c)
  simpa [standing?, identity?, Option.map_map, Function.comp_def, CanvasEntry.standing]
    using hstanding

theorem evolves_modifyManager (s : Scene) (m : ManagerRef) (f : Manager → Manager) :
    Evolves s (s.modifyManager m f) :=
  ⟨rfl, fun _ => rfl, fun _ h => h⟩

theorem evolves_modifyEntry (s : Scene) (c : CanvasRef) (f : CanvasEntry → CanvasEntry)
    (hmanager : ∀ e, (f e).manager = e.manager) (hnumber : ∀ e, (f e).number = e.number)
    (hclosed : ∀ e, e.canvas.closed = true → (f e).canvas.closed = true) :
    Evolves s (s.modifyEntry c f) := by
  refine ⟨rfl, ?_, ?_⟩
  · intro c'
    unfold identity?
    rw [getElem?_modifyEntry]
    split
    · simp [Option.map_map, Function.comp_def, hmanager, hnumber]
    · rfl
  · intro c' h
    unfold isClosed at h ⊢
    rw [getElem?_modifyEntry]
    split
    · cases he : s.canvases[c']? with
      | none => simp [he] at h
      | some e => simpa [he] using hclosed e (by simpa [he] using h)
    · exact h

theorem evolves_addHandle (s : Scene) (c : CanvasRef) : Evolves s (s.addHandle c) :=
  evolves_modifyEntry s c _ (fun _ => rfl) (fun _ => rfl) fun _ h => h

theorem evolves_dropHandle (s : Scene) (c : CanvasRef) : Evolves s (s.dropHandle c) :=
  evolves_modifyEntry s c _ (fun _ => rfl) (fun _ => rfl) fun _ h => h

theorem evolves_modifyCanvas_close (s : Scene) (c : CanvasRef) :
    Evolves s (s.modifyCanvas c Canvas.close) :=
  evolves_modifyEntry s c _ (fun _ => rfl) (fun _ => rfl) fun _ _ => rfl

theorem evolves_addHandles (s : Scene) (cs : List CanvasRef) :
    Evolves s (cs.foldl addHandle s) := by
  induction cs generalizing s with
  | nil => rfl
  | cons c rest ih => exact (evolves_addHandle s c).trans (ih _)

theorem evolves_focus (s : Scene) (c : CanvasRef) : Evolves s (s.focus c).2 :=
  (evolves_modifyManager s _ _).trans (sameStanding_eraseAll _ _).evolves

theorem focused_modifyManager (s : Scene) (m m' : ManagerRef) (f : Manager → Manager) :
    (s.modifyManager m f).focused m' =
      if m = m' then s.managers[m']?.bind fun manager => (f manager).focused else s.focused m' := by
  unfold focused modifyManager
  rw [Array.getElem?_modify]
  split
  · rw [Option.bind_map]
    rfl
  · rfl

/-- A change of a manager that at most takes the focus away. -/
theorem focused_modifyManager_loosening (s : Scene) (m m' : ManagerRef) {f : Manager → Manager}
    (h : ∀ manager, (f manager).focused = manager.focused ∨ (f manager).focused = none) :
    (s.modifyManager m f).focused m' = s.focused m' ∨
      (s.modifyManager m f).focused m' = none := by
  rw [focused_modifyManager, focused]
  split
  · cases s.managers[m']? with
    | none => exact Or.inl rfl
    | some manager => exact h manager
  · exact Or.inl rfl

theorem focused_release (s : Scene) (guard : FocusGuard) (m : ManagerRef) :
    (s.release guard).focused m = s.focused m ∨ (s.release guard).focused m = none := by
  apply focused_modifyManager_loosening
  intro manager
  dsimp only
  split
  · exact Or.inr rfl
  · exact Or.inl rfl

theorem focused_deregister (s : Scene) (m m' : ManagerRef) (c : CanvasRef) :
    (s.deregister m c).focused m' = s.focused m' ∨ (s.deregister m c).focused m' = none := by
  apply focused_modifyManager_loosening
  intro manager
  dsimp only
  split
  · exact Or.inr rfl
  · exact Or.inl rfl

theorem managers_addHandles (s : Scene) (cs : List CanvasRef) :
    (cs.foldl addHandle s).managers = s.managers := by
  induction cs generalizing s with
  | nil => rfl
  | cons c rest ih => exact ih _

end Scene

end Inlay
