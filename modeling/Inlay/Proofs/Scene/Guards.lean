import Inlay.Proofs.Scene.Asking
import Inlay.Proofs.Threads.Focus

namespace Inlay

namespace Scene

variable {s : Scene}

theorem focused_focus (c : CanvasRef) (there : s.managerOf c < s.managers.size) :
    (s.focus c).2.focused (s.managerOf c) = some (s.numberOf c) := by
  have hmanager := Array.getElem?_eq_getElem there
  refine ((sameStanding_eraseAll _ _).focused _).trans ?_
  rw [focused_modifyManager, if_pos rfl, hmanager]
  rfl

theorem focused_release_eq (guard : FocusGuard) (m : ManagerRef) :
    (s.release guard).focused m =
      if guard.manager = m ∧ s.focused m = some guard.number then none else s.focused m := by
  rw [release, focused_modifyManager]
  by_cases hm : guard.manager = m
  · rw [if_pos hm, focused]
    cases s.managers[m]? with
    | none => simp
    | some manager => simp [hm]
  · rw [if_neg hm, if_neg fun h => hm h.1]

theorem focused_close_eq (c : CanvasRef) (m : ManagerRef) :
    (s.close c).focused m =
      if s.managerOf c = m ∧ s.focused m = some (s.numberOf c) then none else s.focused m := by
  change (s.deregister (s.managerOf c) c).focused m = _
  rw [deregister, focused_modifyManager]
  by_cases hm : s.managerOf c = m
  · rw [if_pos hm, focused]
    cases s.managers[m]? with
    | none => simp
    | some manager => simp [hm]
  · rw [if_neg hm, if_neg fun h => hm h.1]

theorem size_managers_focus (c : CanvasRef) :
    (s.focus c).2.managers.size = s.managers.size := by
  refine (congrArg Array.size (sameStanding_eraseAll _ _).managers).trans ?_
  exact Array.size_modify

end Scene

/-- A focus call that was made: its canvas, and its guard until that is let go. -/
structure Grant where
  canvas : CanvasRef
  guard : Option FocusGuard
deriving DecidableEq, Repr

/-- A scene and the grants of the focus made in it, in order. -/
structure Grants where
  scene : Scene
  made : List Grant := []

namespace Grants

inductive Turn where
  | focus (c : CanvasRef)
  /-- Releases or drops the guard of a grant, by the number of the grant. -/
  | release (grant : Nat)
  | close (c : CanvasRef)
  | draw (call : DrawCall) (c : CanvasRef)
deriving DecidableEq, Repr

def Turn.canvas? : Turn → Option CanvasRef
  | focus c | close c | draw _ c => some c
  | release _ => none

def guard? (g : Grants) (grant : Nat) : Option FocusGuard := g.made[grant]?.bind Grant.guard

def turn (g : Grants) : Turn → Grants
  | .focus c =>
      let (guard, s) := g.scene.focus c
      ⟨s, g.made ++ [⟨c, some guard⟩]⟩
  | .release grant =>
      match g.guard? grant with
      | some guard => ⟨g.scene.release guard, g.made.modify grant fun made => ⟨made.canvas, none⟩⟩
      | none => g
  | .close c => { g with scene := g.scene.close c }
  | .draw call c => { g with scene := (g.scene.draw c call).2 }

def after (g : Grants) (turns : List Turn) : Grants := turns.foldl turn g

def canvasOf? (g : Grants) (grant : Nat) : Option CanvasRef := g.made[grant]?.map Grant.canvas

/-- Whether a turn ends the focus of a canvas if that has it. -/
def EndsFocus (g : Grants) (c : CanvasRef) : Turn → Prop
  | .release grant => g.canvasOf? grant = some c
  | .close c' => c' = c
  | .focus _ | .draw _ _ => False

/-- What turns leave as it is: the canvases of a manager have their numbers, and each guard names
the canvas that its grant was made to. -/
structure Sound (m : ManagerRef) (s : Scene) (g : Grants) : Prop where
  evolves : s.Evolves g.scene
  managers : g.scene.managers.size = s.managers.size
  guards : ∀ grant ∈ g.made, s.Belongs grant.canvas m ∧
    ∀ guard, grant.guard = some guard → guard = ⟨m, s.numberOf grant.canvas⟩

variable {m : ManagerRef} {s : Scene} {g : Grants} {c : CanvasRef}

open Scene

theorem sound_start (m : ManagerRef) (s : Scene) : Sound m s { scene := s } :=
  ⟨.refl s, rfl, nofun⟩

theorem Sound.managerOf (h : Sound m s g) (belongs : s.Belongs c m) : g.scene.managerOf c = m := by
  rw [h.evolves.managerOf, belongs.managerOf]

theorem Sound.guard (h : Sound m s g) {grant : Nat} {guard : FocusGuard}
    (hguard : g.guard? grant = some guard) :
    ∃ c, g.canvasOf? grant = some c ∧ s.Belongs c m ∧ guard = ⟨m, s.numberOf c⟩ := by
  obtain ⟨made, hmade, hheld⟩ := Option.bind_eq_some_iff.mp hguard
  obtain ⟨belongs, names⟩ := h.guards made (List.mem_of_getElem? hmade)
  refine ⟨made.canvas, ?_, belongs, names guard hheld⟩
  rw [canvasOf?, hmade]
  rfl

theorem Sound.turn (h : Sound m s g) {turn : Turn}
    (belongs : ∀ c ∈ turn.canvas?, s.Belongs c m) : Sound m s (g.turn turn) := by
  cases turn with
  | focus c =>
      have hc := belongs c rfl
      refine ⟨h.evolves.trans (evolves_focus _ c), (size_managers_focus c).trans h.managers, ?_⟩
      intro grant hgrant
      rcases List.mem_append.mp hgrant with hold | hnew
      · exact h.guards grant hold
      · rw [List.mem_singleton.mp hnew]
        refine ⟨hc, ?_⟩
        rintro guard ⟨⟩
        rw [h.managerOf hc, h.evolves.numberOf]
  | release grant =>
      rw [Grants.turn]
      split
      · refine ⟨h.evolves.trans (evolves_modifyManager _ _ _), Array.size_modify.trans h.managers,
          ?_⟩
        intro made hmade
        obtain ⟨i, hi⟩ := List.mem_iff_getElem?.mp hmade
        rw [List.getElem?_modify] at hi
        obtain ⟨old, hold, rfl⟩ := Option.map_eq_some_iff.mp hi
        have hsound := h.guards old (List.mem_of_getElem? hold)
        split
        · exact ⟨hsound.1, nofun⟩
        · exact hsound
      · exact h
  | close c =>
      refine ⟨h.evolves.trans (evolves_close _ c), ?_, h.guards⟩
      exact Array.size_modify.trans h.managers
  | draw call c =>
      have hsame := sameStanding_draw g.scene c call
      refine ⟨h.evolves.trans hsame.evolves, ?_, h.guards⟩
      exact (congrArg Array.size hsame.managers).trans h.managers

theorem Sound.after (h : Sound m s g) {turns : List Turn}
    (belongs : ∀ turn ∈ turns, ∀ c ∈ turn.canvas?, s.Belongs c m) :
    Sound m s (g.after turns) := by
  induction turns generalizing g with
  | nil => exact h
  | cons turn rest ih =>
      rw [List.forall_mem_cons] at belongs
      exact ih (h.turn belongs.1) belongs.2

theorem canvasOf?_turn {turn : Turn} (h : ∀ c, turn ≠ .focus c) (grant : Nat) :
    (g.turn turn).canvasOf? grant = g.canvasOf? grant := by
  cases turn with
  | focus c => exact absurd rfl (h c)
  | release released =>
      rw [Grants.turn]
      split
      · rw [canvasOf?, List.getElem?_modify, canvasOf?]
        cases g.made[grant]? with
        | none => rfl
        | some made =>
            change some (if released = grant then _ else made).canvas = some made.canvas
            split
            · rfl
            · rfl
      · rfl
  | close c | draw call c => rfl

theorem canvasOf?_after {turns : List Turn} (h : ∀ c, .focus c ∉ turns) (grant : Nat) :
    (g.after turns).canvasOf? grant = g.canvasOf? grant := by
  induction turns generalizing g with
  | nil => rfl
  | cons turn rest ih =>
      have hturn : ∀ c, turn ≠ .focus c := by
        rintro c rfl
        exact h c List.mem_cons_self
      have hrest : ∀ c, .focus c ∉ rest := fun c hc => h c (List.mem_cons_of_mem _ hc)
      exact (ih hrest).trans (canvasOf?_turn hturn grant)

/-- Numbers tell the canvases of a manager apart. -/
theorem numberOf_inj (numbered : s.Numbered) {c c' : CanvasRef} (h : s.Belongs c m)
    (h' : s.Belongs c' m) (same : s.numberOf c = s.numberOf c') : c = c' := by
  obtain ⟨number, hidentity⟩ := h
  obtain ⟨number', hidentity'⟩ := h'
  rw [numberOf_eq_identity, numberOf_eq_identity, hidentity, hidentity'] at same
  change number = number' at same
  rw [← same] at hidentity'
  exact numbered.distinct c c' _ hidentity hidentity'

/-- Letting a guard go ends the focus of its canvas and of no other. -/
theorem Sound.focused_release (h : Sound m s g) (numbered : s.Numbered) (belongs : s.Belongs c m)
    (slot : g.scene.focused m = none ∨ g.scene.focused m = some (s.numberOf c)) {grant : Nat}
    {guard : FocusGuard} (held : g.guard? grant = some guard) :
    (g.turn (.release grant)).scene.focused m =
      if g.canvasOf? grant = some c then none else g.scene.focused m := by
  obtain ⟨c', hcanvas, belongs', rfl⟩ := h.guard held
  have hturn : (g.turn (.release grant)).scene = g.scene.release ⟨m, s.numberOf c'⟩ := by
    rw [Grants.turn, held]
  rw [hturn, focused_release_eq, hcanvas]
  rcases slot with hnone | hsome
  · simp [hnone]
  · rw [hsome]
    by_cases hc : c' = c
    · rw [hc, if_pos ⟨rfl, rfl⟩, if_pos rfl]
    · have hnumber : s.numberOf c ≠ s.numberOf c' := by
        intro same
        exact hc (numberOf_inj numbered belongs belongs' same).symm
      rw [if_neg fun h => hnumber (Option.some.inj h.2), if_neg fun h => hc (Option.some.inj h)]

/-- Between two focus calls the focus stays with a canvas or goes away, and it goes only by a turn
that ends the focus of that canvas. -/
theorem Sound.focused_turn (h : Sound m s g) (numbered : s.Numbered) (belongs : s.Belongs c m)
    {turn : Turn} (hbelongs : ∀ c ∈ turn.canvas?, s.Belongs c m) (hturn : ∀ c, turn ≠ .focus c)
    (slot : g.scene.focused m = none ∨ g.scene.focused m = some (s.numberOf c)) :
    ((g.turn turn).scene.focused m = none ∨
      (g.turn turn).scene.focused m = some (s.numberOf c)) ∧
    (¬ g.EndsFocus c turn → (g.turn turn).scene.focused m = g.scene.focused m) := by
  cases turn with
  | focus c' => exact absurd rfl (hturn c')
  | release grant =>
      cases held : g.guard? grant with
      | none =>
          have hturn : g.turn (.release grant) = g := by rw [Grants.turn, held]
          rw [hturn]
          exact ⟨slot, fun _ => rfl⟩
      | some guard =>
          rw [h.focused_release numbered belongs slot held]
          refine ⟨?_, fun hends => if_neg hends⟩
          split
          · exact Or.inl rfl
          · exact slot
  | close c' =>
      have hc' := hbelongs c' rfl
      have hclose := focused_close_eq (s := g.scene) c' m
      rw [h.managerOf hc', h.evolves.numberOf] at hclose
      change ((g.scene.close c').focused m = none ∨ (g.scene.close c').focused m = _) ∧
        (¬ c' = c → (g.scene.close c').focused m = _)
      rw [hclose]
      constructor
      · split
        · exact Or.inl rfl
        · exact slot
      · intro hne
        refine if_neg ?_
        rintro ⟨-, hfocused⟩
        rcases slot with hnone | hsome
        · rw [hnone] at hfocused
          cases hfocused
        · rw [hsome, Option.some.injEq] at hfocused
          exact hne (numberOf_inj numbered belongs hc' hfocused).symm
  | draw call c' =>
      have hsame := (sameStanding_draw g.scene c' call).focused m
      refine ⟨?_, fun _ => hsame⟩
      change (g.scene.draw c' call).2.focused m = none ∨ (g.scene.draw c' call).2.focused m = _
      rw [hsame]
      exact slot

theorem Sound.focused_after (h : Sound m s g) (numbered : s.Numbered) (belongs : s.Belongs c m)
    {turns : List Turn} (hbelongs : ∀ turn ∈ turns, ∀ c ∈ turn.canvas?, s.Belongs c m)
    (hturns : ∀ c, .focus c ∉ turns)
    (slot : g.scene.focused m = none ∨ g.scene.focused m = some (s.numberOf c)) :
    ((g.after turns).scene.focused m = none ∨
      (g.after turns).scene.focused m = some (s.numberOf c)) ∧
    ((∀ turn ∈ turns, ¬ g.EndsFocus c turn) →
      (g.after turns).scene.focused m = g.scene.focused m) := by
  induction turns generalizing g with
  | nil => exact ⟨slot, fun _ => rfl⟩
  | cons turn rest ih =>
      rw [List.forall_mem_cons] at hbelongs
      have hturn : ∀ c, turn ≠ .focus c := by
        rintro c rfl
        exact hturns c List.mem_cons_self
      have hrest : ∀ c, .focus c ∉ rest := fun c hc => hturns c (List.mem_cons_of_mem _ hc)
      obtain ⟨slot', stays⟩ := h.focused_turn numbered belongs hbelongs.1 hturn slot
      obtain ⟨slot'', stays'⟩ := ih (h.turn hbelongs.1) hbelongs.2 hrest slot'
      refine ⟨slot'', ?_⟩
      intro hends
      rw [List.forall_mem_cons] at hends
      refine (stays' ?_).trans (stays hends.1)
      intro later hlater
      have hlast := hends.2 later hlater
      cases later with
      | release grant => rwa [EndsFocus, canvasOf?_turn hturn]
      | focus c | close c | draw call c => exact hlast

theorem after_append (g : Grants) (turns turns' : List Turn) :
    g.after (turns ++ turns') = (g.after turns).after turns' :=
  List.foldl_append

theorem getLast?_made_after {turns : List Turn} (h : ∀ c, .focus c ∉ turns) :
    (g.after turns).made.getLast?.map Grant.canvas = g.made.getLast?.map Grant.canvas := by
  have hmap : (g.after turns).made.map Grant.canvas = g.made.map Grant.canvas := by
    apply List.ext_getElem?
    intro i
    rw [List.getElem?_map, List.getElem?_map]
    exact canvasOf?_after h i
  rw [← List.getLast?_map, hmap, List.getLast?_map]

/-- After a focus call that is the newest, its canvas has the focus until it is closed or a guard of
one of its grants is let go. Letting go a guard of that canvas, the newest one or any other, leaves
nobody with the focus; letting go the guard of another canvas changes nothing. -/
theorem release_heeds_canvas {s : Scene} {m : ManagerRef} (numbered : s.Numbered)
    (there : m < s.managers.size) {before later : List Turn} {c : CanvasRef}
    (belongs : ∀ turn ∈ before ++ .focus c :: later, ∀ c' ∈ turn.canvas?, s.Belongs c' m)
    (newest : ∀ c', .focus c' ∉ later) :
    let g := Grants.after { scene := s } (before ++ .focus c :: later)
    g.made.getLast?.map Grant.canvas = some c ∧
      (g.scene.focused m = none ∨ g.scene.focused m = some (s.numberOf c)) ∧
      ((∀ turn ∈ later, ¬ g.EndsFocus c turn) → g.scene.focused m = some (s.numberOf c)) ∧
      ∀ grant guard, g.guard? grant = some guard →
        (g.turn (.release grant)).scene.focused m =
          if g.canvasOf? grant = some c then none else g.scene.focused m := by
  intro g
  rw [List.forall_mem_append, List.forall_mem_cons] at belongs
  obtain ⟨hbefore, hfocus, hlater⟩ := belongs
  have hc := hfocus c rfl
  have sound := (sound_start m s).after hbefore
  have granted := sound.turn hfocus
  generalize hg₀ : Grants.after { scene := s } before = g₀ at sound granted
  have hg : g = (g₀.turn (.focus c)).after later := by
    change Grants.after _ (before ++ .focus c :: later) = _
    rw [after_append, hg₀]
    rfl
  have slot : (g₀.turn (.focus c)).scene.focused m = some (s.numberOf c) := by
    have hslot := focused_focus (s := g₀.scene) c
    rw [sound.managerOf hc, sound.managers, sound.evolves.numberOf] at hslot
    exact hslot there
  obtain ⟨hslot, stays⟩ :=
    granted.focused_after numbered hc hlater newest (Or.inr slot)
  rw [← hg] at hslot stays
  refine ⟨?_, hslot, ?_, ?_⟩
  · rw [hg, getLast?_made_after newest]
    change (g₀.made ++ [_]).getLast?.map Grant.canvas = _
    rw [List.getLast?_concat]
    rfl
  · intro undisturbed
    refine (stays ?_).trans slot
    intro turn hturn
    have hundisturbed := undisturbed turn hturn
    cases turn with
    | release grant => rwa [EndsFocus, hg, canvasOf?_after newest] at hundisturbed
    | focus c' | close c' | draw call c' => exact hundisturbed
  · intro grant guard held
    have final := granted.after hlater
    rw [← hg] at final
    exact final.focused_release numbered hc hslot held

open Threads in
/-- The focus goes to the first canvas, to the second and to the first again. The guard of the
second leaves it where it is, and then the newest guard ends it. -/
theorem release_heeds_canvas_thereAndBack :
    let turns : List Turn := [.focus 0, .focus 1, .focus 0, .draw .update 0]
    let g := Grants.after { scene := twoCanvases } turns
    twoCanvases.Numbered ∧ 0 < twoCanvases.managers.size ∧
      (∀ turn ∈ turns, ∀ c ∈ turn.canvas?, twoCanvases.Belongs c 0) ∧
      g.scene.focused 0 = some 0 ∧ (g.turn (.release 1)).scene.focused 0 = some 0 ∧
      (g.turn (.release 2)).scene.focused 0 = none := by
  intro turns g
  have belongs : ∀ turn ∈ ([.focus 0, .focus 1] ++ .focus 0 :: [.draw .update 0] : List Turn),
      ∀ c ∈ turn.canvas?, twoCanvases.Belongs c 0 := by
    have first : twoCanvases.Belongs 0 0 := ⟨0, rfl⟩
    have second : twoCanvases.Belongs 1 0 := ⟨1, rfl⟩
    simp [Turn.canvas?, first, second]
  obtain ⟨-, -, stays, releases⟩ :=
    release_heeds_canvas numbered_twoCanvases (by decide) belongs (by simp)
  have slot : g.scene.focused 0 = some 0 := stays (by simp [EndsFocus])
  refine ⟨numbered_twoCanvases, by decide, belongs, slot, ?_, ?_⟩
  · exact (releases 1 ⟨0, 1⟩ (by decide +kernel)).trans ((if_neg (by decide +kernel)).trans slot)
  · exact (releases 2 ⟨0, 0⟩ (by decide +kernel)).trans (if_pos (by decide +kernel))

open Threads in
/-- The guard of the first grant ends the focus that the same canvas was given later, after another
canvas had it, and that other canvas may be drawn while the newest guard is held. -/
theorem release_endsNewerGrant :
    let g := Grants.after { scene := twoCanvases } [.focus 0, .focus 1, .focus 0]
    g.scene.focused 0 = some 0 ∧ g.guard? 2 = some ⟨0, 0⟩ ∧
      (g.turn (.release 0)).scene.focused 0 = none ∧
      (g.turn (.release 0)).guard? 2 = some ⟨0, 0⟩ ∧
      (g.turn (.release 0)).scene.canUpdate 0 1 = true := by
  decide +kernel

end Grants

end Inlay
