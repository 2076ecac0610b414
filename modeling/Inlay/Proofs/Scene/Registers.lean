import Inlay.Proofs.Scene.Guards
import Mathlib.Data.List.Nodup
/-!
The registers of the managers in every scene that calls lead to. A canvas stands in a register at
most once, as no two canvases with one number are registered together. Canvases of two managers can
have one number, so the numbers tell a canvas from those that are registered with it, and from all
others of its manager.
-/

namespace Inlay

namespace Scene

variable {s s' : Scene} {c : CanvasRef} {m : ManagerRef}

/-- Canvases of the scene that have different numbers. -/
structure Listed (s : Scene) (cs : List CanvasRef) : Prop where
  present : ∀ c ∈ cs, c < s.canvases.size
  apart : (cs.map s.numberOf).Nodup

theorem lt_size_iff : c < s.canvases.size ↔ (s.identity? c).isSome = true := by
  rw [identity?, Option.isSome_map, isSome_getElem?]

namespace Listed

variable {cs cs' : List CanvasRef}

theorem nil (s : Scene) : s.Listed [] :=
  ⟨nofun, List.nodup_nil⟩

theorem sublist (h : s.Listed cs) (sub : cs'.Sublist cs) : s.Listed cs' :=
  ⟨fun c hc => h.present c (sub.subset hc), h.apart.sublist (sub.map _)⟩

theorem concat (h : s.Listed cs) (here : c < s.canvases.size)
    (new : ∀ o ∈ cs, s.numberOf o ≠ s.numberOf c) : s.Listed (cs ++ [c]) := by
  constructor
  · intro o ho
    rcases List.mem_append.mp ho with hold | hnew
    · exact h.present o hold
    · rwa [List.mem_singleton.mp hnew]
  · rw [List.map_append, List.map_singleton, List.nodup_append]
    refine ⟨h.apart, List.nodup_singleton _, fun number hold number' hnew => ?_⟩
    obtain ⟨o, ho, rfl⟩ := List.mem_map.mp hold
    rw [List.mem_singleton.mp hnew]
    exact new o ho

theorem of_identity (h : s.Listed cs)
    (identity : ∀ c < s.canvases.size, s'.identity? c = s.identity? c) : s'.Listed cs := by
  constructor
  · intro c hc
    have here := h.present c hc
    rw [lt_size_iff, identity c here, ← lt_size_iff]
    exact here
  · have hnumbers : cs.map s'.numberOf = cs.map s.numberOf := by
      refine List.map_congr_left fun c hc => ?_
      rw [numberOf_eq_identity, identity c (h.present c hc), numberOf_eq_identity]
    rw [hnumbers]
    exact h.apart

theorem nodup (h : s.Listed cs) : cs.Nodup :=
  h.apart.of_map _

theorem eq_of_numberOf (h : s.Listed cs) {c c' : CanvasRef} (hc : c ∈ cs) (hc' : c' ∈ cs)
    (same : s.numberOf c = s.numberOf c') : c = c' :=
  List.inj_on_of_nodup_map h.apart hc hc' same

end Listed

/-- A change of one manager that keeps its register in order. -/
theorem listed_modifyManager (h : ∀ m, s.Listed (s.entries m)) (m : ManagerRef)
    {f : Manager → Manager}
    (listed : ∀ manager, s.Listed manager.entries → s.Listed (f manager).entries)
    (m' : ManagerRef) : (s.modifyManager m f).Listed ((s.modifyManager m f).entries m') := by
  suffices hentries : s.Listed ((s.modifyManager m f).entries m') from
    hentries.of_identity fun _ _ => rfl
  have hlisted := h m'
  unfold entries at hlisted ⊢
  rw [modifyManager, Array.getElem?_modify]
  split
  · cases hmanager : s.managers[m']? with
    | none => exact .nil s
    | some manager =>
        rw [hmanager] at hlisted
        exact listed manager hlisted
  · exact hlisted

/-- A canvas is registered only where no other has its number. -/
theorem listed_register (h : ∀ m, s.Listed (s.entries m)) (m : ManagerRef)
    (here : c < s.canvases.size) (m' : ManagerRef) :
    (s.register m c).Listed ((s.register m c).entries m') := by
  refine listed_modifyManager h m (fun manager hlisted => ?_) m'
  have halive := hlisted.sublist (List.filter_sublist (p := s.isAlive))
  dsimp only
  split
  · rename_i isNew
    refine halive.concat here fun o ho => ?_
    simpa using List.all_eq_true.mp isNew o ho
  · exact halive

/-- A scene with a new canvas that has its number and is not yet registered. -/
def withCanvas (s : Scene) (m : ManagerRef) (canvas : Canvas) : Scene :=
  let number := (s.managers[m]?.map Manager.nextNumber).getD 0
  Scene.modifyManager { s with canvases := s.canvases.push ⟨canvas, m, number, 1⟩ } m
    fun manager => { manager with nextNumber := number + 1 }

theorem canvases_withCanvas_of_lt (m : ManagerRef) (canvas : Canvas)
    (here : c < s.canvases.size) : (s.withCanvas m canvas).canvases[c]? = s.canvases[c]? :=
  Array.getElem?_push.trans (if_neg (Nat.ne_of_lt here))

theorem newCanvas_eq (s : Scene) (m : ManagerRef) (canvas : Canvas) :
    s.newCanvas m canvas =
      (s.canvases.size, (s.withCanvas m canvas).register m s.canvases.size) :=
  rfl

theorem entries_withCanvas (s : Scene) (m m' : ManagerRef) (canvas : Canvas) :
    (s.withCanvas m canvas).entries m' = s.entries m' :=
  entries_modifyManager _ m m' fun _ => rfl

/-- Numbers are given out once, by managers of the scene, and tell the canvases of each register
apart. -/
structure Orderly (s : Scene) : Prop where
  numbered : s.Numbered
  homed : ∀ c m, s.Belongs c m → m < s.managers.size
  listed : ∀ m, s.Listed (s.entries m)

namespace Orderly

theorem start (managers : s.managers = #[{}]) (canvases : s.canvases = #[]) : s.Orderly := by
  have nobody : ∀ c, s.identity? c = none := by
    intro c
    rw [identity?, canvases]
    rfl
  refine ⟨⟨?_, ?_⟩, ?_, fun m => ?_⟩
  · intro c c' id hc
    rw [nobody] at hc
    cases hc
  · intro c m number manager hc
    rw [nobody] at hc
    cases hc
  · rintro c m ⟨number, hc⟩
    rw [nobody] at hc
    cases hc
  · have hentries : s.entries m = [] := by
      rw [entries, managers]
      cases m <;> rfl
    rw [hentries]
    exact .nil s

theorem numbered_of_identity (h : s.Orderly) (identity : ∀ c, s'.identity? c = s.identity? c)
    (next : ∀ (m : ManagerRef) (old manager : Manager), s.managers[m]? = some old →
      s'.managers[m]? = some manager → old.nextNumber ≤ manager.nextNumber) :
    s'.Numbered := by
  constructor
  · intro c c' id hc hc'
    rw [identity] at hc hc'
    exact h.numbered.distinct c c' id hc hc'
  · intro c m number manager hc hmanager
    rw [identity] at hc
    have hold := Array.getElem?_eq_getElem (h.homed c m ⟨number, hc⟩)
    exact Nat.lt_of_lt_of_le (h.numbered.fresh c m number _ hc hold)
      (next m _ manager hold hmanager)

/-- What changes neither a manager nor the identity of a canvas. -/
theorem of_same (h : s.Orderly) (managers : s'.managers = s.managers)
    (identity : ∀ c, s'.identity? c = s.identity? c) : s'.Orderly := by
  constructor
  · refine h.numbered_of_identity identity fun m old manager hold hmanager => ?_
    rw [managers, hold] at hmanager
    exact Nat.le_of_eq (congrArg _ (Option.some.inj hmanager))
  · intro c m hc
    rw [managers]
    exact h.homed c m (hc.of_identity (identity c).symm)
  · intro m
    rw [entries_of_managers managers]
    exact (h.listed m).of_identity fun c _ => identity c

theorem modifyManager (h : s.Orderly) (m : ManagerRef) {f : Manager → Manager}
    (next : ∀ manager, (f manager).nextNumber = manager.nextNumber)
    (listed : ∀ m', (s.modifyManager m f).Listed ((s.modifyManager m f).entries m')) :
    (s.modifyManager m f).Orderly := by
  refine ⟨h.numbered_of_identity (fun _ => rfl) fun m' old manager hold hmanager => ?_, ?_, listed⟩
  · rw [Scene.modifyManager, Array.getElem?_modify, hold] at hmanager
    split at hmanager
    · rw [← Option.some.inj hmanager]
      exact Nat.le_of_eq (next old).symm
    · exact Nat.le_of_eq (congrArg _ (Option.some.inj hmanager))
  · exact fun c m' hc => Nat.lt_of_lt_of_eq (h.homed c m' hc) Array.size_modify.symm

theorem register (h : s.Orderly) (m : ManagerRef) (here : c < s.canvases.size) :
    (s.register m c).Orderly :=
  h.modifyManager m (fun _ => rfl) (listed_register h.listed m here)

theorem deregister (h : s.Orderly) (m : ManagerRef) (c : CanvasRef) : (s.deregister m c).Orderly :=
  h.modifyManager m (fun _ => rfl) <| listed_modifyManager h.listed m fun _ hlisted =>
    hlisted.sublist List.filter_sublist

theorem focus (h : s.Orderly) (c : CanvasRef) : (s.focus c).2.Orderly := by
  have granted := h.modifyManager (s.managerOf c)
    (f := fun manager => { manager with focused := some (s.numberOf c) }) (fun _ => rfl)
    (listed_modifyManager h.listed _ fun _ hlisted => hlisted)
  exact granted.of_same (sameStanding_eraseAll _ _).managers
    (sameStanding_eraseAll _ _).evolves.identity

theorem release (h : s.Orderly) (guard : FocusGuard) : (s.release guard).Orderly :=
  h.modifyManager _ (fun _ => rfl) (listed_modifyManager h.listed _ fun _ hlisted => hlisted)

theorem newManager (h : s.Orderly) : s.newManager.2.Orderly := by
  have hmanagers : s.newManager.2.managers = s.managers.push {} := rfl
  constructor
  · refine h.numbered_of_identity (fun _ => rfl) fun m old manager hold hmanager => ?_
    have there : m < s.managers.size := (Array.getElem?_eq_some_iff.mp hold).1
    rw [hmanagers, Array.getElem?_push, if_neg (Nat.ne_of_lt there), hold] at hmanager
    exact Nat.le_of_eq (congrArg _ (Option.some.inj hmanager))
  · intro c m hc
    rw [hmanagers, Array.size_push]
    exact Nat.lt_succ_of_lt (h.homed c m hc)
  · intro m
    suffices hentries : s.Listed (s.newManager.2.entries m) from
      hentries.of_identity fun _ _ => rfl
    unfold entries
    rw [hmanagers, Array.getElem?_push]
    split
    · exact .nil s
    · exact h.listed m

theorem newCanvas (h : s.Orderly) (there : m < s.managers.size) (canvas : Canvas) :
    (s.newCanvas m canvas).2.Orderly := by
  refine ⟨numbered_newCanvas h.numbered there canvas, ?_, ?_⟩
  · rintro c m' ⟨number, hc⟩
    have hsize : (s.newCanvas m canvas).2.managers.size = s.managers.size :=
      Array.size_modify.trans Array.size_modify
    rw [identity?_newCanvas] at hc
    rw [hsize]
    split at hc
    · obtain ⟨rfl, -⟩ := Prod.mk.inj (Option.some.inj hc)
      exact there
    · exact h.homed c m' ⟨number, hc⟩
  · have hlisted : ∀ m', (s.withCanvas m canvas).Listed ((s.withCanvas m canvas).entries m') := by
      intro m'
      rw [entries_withCanvas]
      exact (h.listed m').of_identity fun c hc =>
        congrArg _ (canvases_withCanvas_of_lt m canvas hc)
    have here : s.canvases.size < (s.withCanvas m canvas).canvases.size :=
      Nat.lt_of_lt_of_eq (Nat.lt_succ_self _) (Array.size_push _).symm
    rw [newCanvas_eq]
    exact listed_register hlisted m here

end Orderly

theorem entries_eq_of_getElem? {manager : Manager} (hmanager : s.managers[m]? = some manager) :
    s.entries m = manager.entries := by
  rw [entries, hmanager]
  rfl

theorem mem_entries_iff :
    c ∈ s.entries m ↔ ∃ manager, s.managers[m]? = some manager ∧ c ∈ manager.entries := by
  cases hmanager : s.managers[m]? with
  | none => simp [entries, hmanager]
  | some manager => simp [entries_eq_of_getElem? hmanager]

theorem mem_entries_modifyManager_iff {m' : ManagerRef} {f : Manager → Manager} :
    c ∈ (s.modifyManager m' f).entries m ↔
      ∃ manager, s.managers[m]? = some manager ∧
        c ∈ (if m' = m then f manager else manager).entries := by
  rw [mem_entries_iff, modifyManager, Array.getElem?_modify]
  split
  · simp only [Option.map_eq_some_iff]
    constructor
    · rintro ⟨_, ⟨manager, hmanager, rfl⟩, hmem⟩
      exact ⟨manager, hmanager, hmem⟩
    · rintro ⟨manager, hmanager, hmem⟩
      exact ⟨_, ⟨manager, hmanager, rfl⟩, hmem⟩
  · rfl

theorem entries_modifyManager_of_ne {m' : ManagerRef} (h : m ≠ m') (f : Manager → Manager) :
    (s.modifyManager m f).entries m' = s.entries m' := by
  rw [entries, modifyManager, Array.getElem?_modify, if_neg h, entries]

/-- A registration takes the dead off, and takes a canvas in where no other has its number. -/
theorem mem_entries_register_iff {m' : ManagerRef} {c' : CanvasRef} :
    c ∈ (s.register m' c').entries m ↔
      c ∈ s.entries m ∧ (m' = m → s.isAlive c = true) ∨
        m' = m ∧ c = c' ∧ m < s.managers.size ∧
          ∀ o ∈ s.entries m, s.isAlive o = true → s.numberOf o ≠ s.numberOf c' := by
  by_cases heq : m' = m
  · subst heq
    rw [register, mem_entries_modifyManager_iff]
    cases hmanager : s.managers[m']? with
    | none =>
        have absent : ¬ m' < s.managers.size :=
          Nat.not_lt.mpr (Array.getElem?_eq_none_iff.mp hmanager)
        simp [entries, absent]
    | some manager =>
        have there : m' < s.managers.size := (Array.getElem?_eq_some_iff.mp hmanager).1
        have isNew : ((manager.entries.filter s.isAlive).all fun o =>
            s.numberOf o ≠ s.numberOf c') = true ↔
              ∀ o ∈ manager.entries, s.isAlive o = true → s.numberOf o ≠ s.numberOf c' := by
          simp [imp_iff_not_or]
        rw [entries_eq_of_getElem? hmanager, ← isNew]
        simp only [Option.some.injEq, exists_eq_left', if_true, true_and, there, forall_const]
        split
        · rename_i new
          simp only [new, List.mem_append, List.mem_filter, List.mem_singleton, and_true]
        · rename_i old
          simp only [old, List.mem_filter, Bool.false_eq_true, and_false, or_false]
  · rw [register, entries_modifyManager_of_ne heq]
    simp only [heq, false_and, or_false, false_imp_iff, and_true]

/-- A deregistration takes the dead off, and the canvases with the number it is given. -/
theorem mem_entries_deregister_iff {m' : ManagerRef} {c' : CanvasRef} :
    c ∈ (s.deregister m' c').entries m ↔
      c ∈ s.entries m ∧ (m' = m → s.numberOf c ≠ s.numberOf c' ∧ s.isAlive c = true) := by
  rw [deregister, mem_entries_modifyManager_iff, mem_entries_iff, ← exists_and_right]
  refine exists_congr fun manager => ?_
  rw [and_assoc]
  refine and_congr_right fun _ => ?_
  split
  · rename_i heq
    simp [heq]
  · rename_i hne
    simp [hne]

/-- A new canvas is registered, unless a canvas of another manager stands in for its number. -/
theorem mem_entries_newCanvas (orderly : s.Orderly) (there : m < s.managers.size)
    (own : ∀ o ∈ s.entries m, s.Belongs o m) (canvas : Canvas) :
    s.canvases.size ∈ (s.newCanvas m canvas).2.entries m := by
  let t := s.withCanvas m canvas
  obtain ⟨manager, hmanager⟩ : ∃ manager, s.managers[m]? = some manager :=
    ⟨_, Array.getElem?_eq_getElem there⟩
  have hnumber : t.numberOf s.canvases.size = manager.nextNumber := by
    simp [t, withCanvas, modifyManager, numberOf, hmanager]
  have new : ∀ o ∈ s.entries m, t.numberOf o ≠ t.numberOf s.canvases.size := by
    intro o ho
    obtain ⟨number, hidentity⟩ := own o ho
    have here := (orderly.listed m).present o ho
    have hold : t.identity? o = some (m, number) :=
      (congrArg _ (canvases_withCanvas_of_lt m canvas here)).trans hidentity
    have hlower := orderly.numbered.fresh o m number manager hidentity hmanager
    rw [hnumber, numberOf_eq_identity, hold]
    exact Nat.ne_of_lt hlower
  rw [newCanvas_eq, mem_entries_register_iff, entries_withCanvas]
  exact .inr ⟨rfl, rfl, Nat.lt_of_lt_of_eq there Array.size_modify.symm, fun o ho _ => new o ho⟩

theorem entries_newCanvas_of_ne {m' : ManagerRef} (h : m ≠ m') (s : Scene) (canvas : Canvas) :
    (s.newCanvas m canvas).2.entries m' = s.entries m' := by
  rw [newCanvas_eq, register, entries_modifyManager_of_ne h, entries_withCanvas]

/-- Whatever was registered and is alive stays registered beside a new canvas. -/
theorem mem_entries_newCanvas_of_mem {m : ManagerRef} (orderly : s.Orderly)
    (alive : s.isAlive c = true) (hmem : c ∈ s.entries m) (m' : ManagerRef) (canvas : Canvas) :
    c ∈ (s.newCanvas m' canvas).2.entries m := by
  have here := (orderly.listed m).present c hmem
  have stays : (s.withCanvas m' canvas).isAlive c = true := by
    rw [isAlive] at alive ⊢
    rwa [canvases_withCanvas_of_lt m' canvas here]
  rw [newCanvas_eq, mem_entries_register_iff, entries_withCanvas]
  exact .inl ⟨hmem, fun _ => stays⟩

/-- A new canvas is the only one that its making can register. -/
theorem mem_of_mem_entries_newCanvas {m m' : ManagerRef} {canvas : Canvas}
    (hmem : c ∈ (s.newCanvas m' canvas).2.entries m) :
    c ∈ s.entries m ∨ c = s.canvases.size ∧ m = m' := by
  rw [newCanvas_eq, mem_entries_register_iff, entries_withCanvas] at hmem
  rcases hmem with ⟨hold, -⟩ | ⟨heq, hnew, -⟩
  · exact .inl hold
  · exact .inr ⟨hnew, heq.symm⟩

theorem mem_of_mem_entries_deregister {m m' : ManagerRef} {c' : CanvasRef}
    (hmem : c ∈ (s.deregister m' c').entries m) : c ∈ s.entries m :=
  (mem_entries_deregister_iff.mp hmem).1

theorem mem_entries_deregister {m m' : ManagerRef} {c' : CanvasRef} (alive : s.isAlive c = true)
    (apart : m' = m → s.numberOf c ≠ s.numberOf c') (hmem : c ∈ s.entries m) :
    c ∈ (s.deregister m' c').entries m :=
  mem_entries_deregister_iff.mpr ⟨hmem, fun heq => ⟨apart heq, alive⟩⟩

/-- The scenes that calls lead to. -/
inductive Possible : Scene → Prop where
  | start {s : Scene} (managers : s.managers = #[{}]) (canvases : s.canvases = #[]) : Possible s
  | newManager {s : Scene} : Possible s → Possible s.newManager.2
  | newCanvas {s : Scene} {m : ManagerRef} (canvas : Canvas) :
      Possible s → m < s.managers.size → Possible (s.newCanvas m canvas).2
  | register {s : Scene} {c : CanvasRef} (m : ManagerRef) :
      Possible s → c < s.canvases.size → Possible (s.register m c)
  | deregister {s : Scene} (m : ManagerRef) (c : CanvasRef) :
      Possible s → Possible (s.deregister m c)
  | focus {s : Scene} (c : CanvasRef) : Possible s → Possible (s.focus c).2
  | release {s : Scene} (guard : FocusGuard) : Possible s → Possible (s.release guard)
  /-- Drawing, writing, closing, taking and dropping handles, and all else that leaves the managers
  and the identity of every canvas as they are. -/
  | change {s s' : Scene} (managers : s'.managers = s.managers)
      (identity : ∀ c, s'.identity? c = s.identity? c) : Possible s → Possible s'

theorem Possible.orderly (possible : s.Possible) : s.Orderly := by
  induction possible with
  | start managers canvases => exact .start managers canvases
  | newManager _ ih => exact ih.newManager
  | newCanvas canvas _ there ih => exact ih.newCanvas there canvas
  | register m _ here ih => exact ih.register m here
  | deregister m c _ ih => exact ih.deregister m c
  | focus c _ ih => exact ih.focus c
  | release guard _ ih => exact ih.release guard
  | change managers identity _ ih => exact ih.of_same managers identity

theorem Possible.run (possible : s.Possible) (c : CanvasRef) : (s.run c).2.Possible :=
  possible.change (sameStanding_run s c).managers (sameStanding_run s c).evolves.identity

end Scene

end Inlay
