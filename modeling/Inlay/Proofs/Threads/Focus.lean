import Inlay.Proofs.Threads.Sections

namespace Inlay

namespace Scene

/-- Canvases of one manager have different numbers, all of them below the next one. -/
structure Numbered (s : Scene) : Prop where
  distinct : ∀ c c' identity,
    s.identity? c = some identity → s.identity? c' = some identity → c = c'
  fresh : ∀ c m number manager, s.identity? c = some (m, number) →
    s.managers[m]? = some manager → number < manager.nextNumber

theorem numbered_empty : Numbered {} := by
  constructor
  · intro c c' identity h
    simp [identity?] at h
  · intro c m number manager h
    simp [identity?] at h

theorem identity?_newCanvas (s : Scene) (m : ManagerRef) (canvas : Canvas) (c : CanvasRef) :
    (s.newCanvas m canvas).2.identity? c =
      if c = s.canvases.size then some (m, (s.managers[m]?.map Manager.nextNumber).getD 0)
      else s.identity? c := by
  simp only [newCanvas, register, modifyManager, identity?, Array.getElem?_push]
  split
  · rfl
  · rfl

theorem nextNumber_newCanvas (s : Scene) (m m' : ManagerRef) (canvas : Canvas) :
    (s.newCanvas m canvas).2.managers[m']?.map Manager.nextNumber =
      if m = m' then s.managers[m']?.map fun manager => manager.nextNumber + 1
      else s.managers[m']?.map Manager.nextNumber := by
  simp only [newCanvas, register, modifyManager, Array.getElem?_modify]
  split
  · rename_i heq
    subst heq
    cases s.managers[m]? with
    | none => rfl
    | some manager => rfl
  · rfl

theorem numbered_newCanvas {s : Scene} (h : s.Numbered) {m : ManagerRef}
    (hm : m < s.managers.size) (canvas : Canvas) : (s.newCanvas m canvas).2.Numbered := by
  obtain ⟨manager, hmanager⟩ : ∃ manager, s.managers[m]? = some manager :=
    ⟨_, Array.getElem?_eq_getElem hm⟩
  constructor
  · intro c c' identity hc hc'
    rw [identity?_newCanvas] at hc hc'
    simp only [hmanager, Option.map_some, Option.getD_some] at hc hc'
    split at hc
    · split at hc'
      · rename_i hsize hsize'
        rw [hsize, hsize']
      · rw [Option.some.injEq] at hc
        rw [← hc] at hc'
        exact absurd (h.fresh _ _ _ _ hc' hmanager) (Nat.lt_irrefl _)
    · split at hc'
      · rw [Option.some.injEq] at hc'
        rw [← hc'] at hc
        exact absurd (h.fresh _ _ _ _ hc hmanager) (Nat.lt_irrefl _)
      · exact h.distinct c c' identity hc hc'
  · intro c m' number manager' hc hmanager'
    have hnext := nextNumber_newCanvas s m m' canvas
    rw [hmanager'] at hnext
    rw [identity?_newCanvas] at hc
    split at hc
    · simp only [hmanager, Option.map_some, Option.getD_some, Option.some.injEq,
        Prod.mk.injEq] at hc
      obtain ⟨rfl, rfl⟩ := hc
      simp only [hmanager, if_true, Option.map_some, Option.some.injEq] at hnext
      omega
    · split at hnext
      · rename_i heq
        subst heq
        simp only [hmanager, Option.map_some, Option.some.injEq] at hnext
        have := h.fresh _ _ _ _ hc hmanager
        omega
      · cases hold : s.managers[m']? with
        | none => simp [hold] at hnext
        | some old =>
            simp only [hold, Option.map_some, Option.some.injEq] at hnext
            have := h.fresh _ _ _ _ hc hold
            omega

end Scene

namespace Activity

open Scene

theorem holds?_evolves {s s' : Scene} (h : Evolves s s') (a : Activity) :
    a.holds? s' = a.holds? s := by
  cases a with
  | asking errand | leaving errand _ =>
      cases errand with
      | draw _ c | focus c => exact congrArg some (h.managerOf c)
      | release guard => rfl
  | drawing _ c | erasing c _ => exact congrArg some (h.managerOf c)
  | _ => rfl

def isFresh : Activity → Bool
  | preparing _ | waiting _ | deregistering _ | dropping _ | writing _ _ => true
  | _ => false

theorem isFresh_start (call : Call) : call.start.isFresh = true := by
  unfold Call.start
  split <;> rfl

theorem holds?_of_isFresh {s : Scene} {a : Activity} (h : a.isFresh = true) :
    a.holds? s = none := by
  cases a with
  | asking | leaving | drawing | erasing => cases h
  | _ => rfl

end Activity

namespace Threads

open Scene

/-- Whether the next section of a thread lets the visuals of a canvas paint. -/
def Renders (σ : Threads) (t : ThreadRef) (c : CanvasRef) : Prop :=
  (σ.activity t = .drawing .run c ∨ σ.activity t = .drawing .update c) ∧
    σ.scene.isClosed c = false

/-- The invariant of threads that share a scene. A thread that holds the update lock of a manager
is the one the lock names, and until it leaves nobody else can take the permission to draw away
from it. -/
structure Guarded (σ : Threads) : Prop where
  distinct : ∀ c c' identity, σ.scene.identity? c = some identity →
    σ.scene.identity? c' = some identity → c = c'
  holder : ∀ t m, (σ.activity t).holds? σ.scene = some m → σ.holder m = some t
  allowed : ∀ t call c, σ.activity t = .drawing call c →
    σ.scene.canUpdate (σ.scene.managerOf c) c = true
  outcome : ∀ t call c result, σ.activity t = .leaving (.draw call c) result →
    result = .ok () ∨ σ.scene.canUpdate (σ.scene.managerOf c) c = true
  shut : ∀ t c result, σ.activity t = .returned (.close c) result →
    σ.scene.identity? c = none ∨ σ.scene.isClosed c = true

theorem canUpdate_iff (s : Scene) (m : ManagerRef) (c : CanvasRef) :
    s.canUpdate m c = true ↔ s.focused m = none ∨ s.focused m = some (s.numberOf c) := by
  rw [canUpdate]
  cases s.focused m with
  | none => simp
  | some n => simp

theorem none_or_isClosed_modifyCanvas_close (s : Scene) (c : CanvasRef) :
    (s.modifyCanvas c Canvas.close).identity? c = none ∨
      (s.modifyCanvas c Canvas.close).isClosed c = true := by
  unfold identity? isClosed modifyCanvas
  rw [getElem?_modifyEntry, if_pos rfl]
  cases s.canvases[c]? with
  | none => exact Or.inl rfl
  | some e => exact Or.inr rfl

namespace Guarded

variable {σ σ' : Threads} {t : ThreadRef}

theorem start {s : Scene} (h : s.Numbered) : Guarded { scene := s } := by
  refine ⟨h.distinct, ?_, ?_, ?_, ?_⟩
  · intro t m hm
    cases hm
  · intro t call c hc
    cases hc
  · intro t call c result hc
    cases hc
  · intro t c result hc
    cases hc

/-- A lock that another thread has stays with it. -/
theorem holder_of_ne (g : Guarded σ) (h : Section σ t σ') {t' : ThreadRef} {m : ManagerRef}
    (hne : t' ≠ t) (held : σ.holder m = some t') : σ'.holder m = some t' := by
  cases h with
  | acquire errand doing free =>
      have hm : m ≠ errand.manager σ.scene := by
        rintro rfl
        rw [free] at held
        cases held
      rw [holder_withHolder_of_ne _ _ hm]
      exact held
  | leave errand result doing =>
      have hm : m ≠ errand.manager σ.scene := by
        rintro rfl
        rw [g.holder t _ (by rw [doing]; rfl), Option.some.injEq] at held
        exact hne held.symm
      rw [holder_withHolder_of_ne _ _ hm]
      exact held
  | _ => exact held

theorem holder_self (g : Guarded σ) (h : Section σ t σ') {m : ManagerRef}
    (hm : (σ'.activity t).holds? σ'.scene = some m) : σ'.holder m = some t := by
  rw [Activity.holds?_evolves h.evolves] at hm
  cases h with
  | rest => exact g.holder t m hm
  | acquire errand =>
      simp only [activity_withHolder, activity_enter_self, Activity.holds?,
        Option.some.injEq] at hm
      subst hm
      rw [holder_withHolder_self]
  | leave => simp [Activity.holds?] at hm
  | allow call c doing | refuse call c doing | grant c doing | release guard doing
  | draw call c doing | erased c doing | erase c other rest doing =>
      refine g.holder t m ?_
      rw [activity_enter_self] at hm
      rw [doing]
      exact hm
  | prepare | deregister | shut | drop | write =>
      simp [Activity.holds?] at hm

/-- While a thread has the update lock, nobody takes the permission to draw away from it. -/
theorem canUpdate_of_held (g : Guarded σ) (h : Section σ t σ') {t' : ThreadRef}
    {c : CanvasRef} (hne : t' ≠ t) (held : σ.holder (σ.scene.managerOf c) = some t')
    (allowed : σ.scene.canUpdate (σ.scene.managerOf c) c = true) :
    σ'.scene.canUpdate (σ'.scene.managerOf c) c = true := by
  rw [canUpdate_iff] at allowed ⊢
  rw [h.evolves.managerOf, h.evolves.numberOf]
  rcases h.focused (σ.scene.managerOf c) with hsame | hnone | ⟨c', doing, hm⟩
  · rw [hsame]
    exact allowed
  · exact Or.inl hnone
  · have := g.holder t _ (by rw [doing]; rfl)
    rw [Errand.manager, hm, held, Option.some.injEq] at this
    exact absurd this hne

theorem step (g : Guarded σ) (h : Section σ t σ') : Guarded σ' := by
  refine ⟨?_, ?_, ?_, ?_, ?_⟩
  · intro c c' identity hc hc'
    rw [h.evolves.identity] at hc hc'
    exact g.distinct c c' identity hc hc'
  · intro t' m hm
    by_cases hne : t' = t
    · subst hne
      exact g.holder_self h hm
    · rw [h.activity_of_ne hne, Activity.holds?_evolves h.evolves] at hm
      exact g.holder_of_ne h hne (g.holder t' m hm)
  -- a drawing goes on only under the lock, and while that is held the focus cannot move on
  · intro t' call c hc
    by_cases hne : t' = t
    · subst hne
      cases h with
      | rest => exact g.allowed _ _ _ hc
      | allow call' c' doing allowed =>
          rw [activity_enter_self, Activity.drawing.injEq] at hc
          obtain ⟨rfl, rfl⟩ := hc
          exact allowed
      | _ => simp at hc
    · rw [h.activity_of_ne hne] at hc
      exact g.canUpdate_of_held h hne (g.holder t' _ (by rw [hc]; rfl)) (g.allowed _ _ _ hc)
  · intro t' call c result hc
    by_cases hne : t' = t
    · subst hne
      cases h with
      | rest => exact g.outcome _ _ _ _ hc
      | refuse call' c' doing refused =>
          rw [activity_enter_self, Activity.leaving.injEq] at hc
          exact Or.inl hc.2.symm
      | draw call' c' doing =>
          rw [activity_enter_self, Activity.leaving.injEq, Errand.draw.injEq] at hc
          obtain ⟨⟨rfl, rfl⟩, rfl⟩ := hc
          have hsame := sameStanding_drawAllowed σ.scene c' call'
          right
          rw [scene_enter, canUpdate_iff, hsame.managerOf, hsame.numberOf, hsame.focused,
            ← canUpdate_iff]
          exact g.allowed _ _ _ doing
      | _ => simp at hc
    · rw [h.activity_of_ne hne] at hc
      rcases g.outcome _ _ _ _ hc with hok | hallowed
      · exact Or.inl hok
      · exact Or.inr (g.canUpdate_of_held h hne (g.holder t' _ (by rw [hc]; rfl)) hallowed)
  · intro t' c result hc
    by_cases hne : t' = t
    · subst hne
      cases h with
      | rest => exact g.shut _ _ _ hc
      | shut c' doing =>
          rw [activity_enter_self, Activity.returned.injEq, Call.close.injEq] at hc
          obtain ⟨rfl, -⟩ := hc
          exact none_or_isClosed_modifyCanvas_close σ.scene c'
      | _ => simp at hc
    · rw [h.activity_of_ne hne] at hc
      rw [h.evolves.identity]
      exact (g.shut _ _ _ hc).imp id (h.evolves.closed c)

theorem enterCall (g : Guarded σ) (t : ThreadRef) (call : Call) : Guarded (σ.enterCall t call) := by
  rw [Threads.enterCall]
  split
  · have hfresh := Activity.isFresh_start call
    refine ⟨g.distinct, ?_, ?_, ?_, ?_⟩
    · intro t' m hm
      by_cases hne : t' = t
      · subst hne
        rw [activity_enter_self, Activity.holds?_of_isFresh hfresh] at hm
        cases hm
      · rw [activity_enter_of_ne _ _ _ hne] at hm
        exact g.holder t' m hm
    · intro t' call' c hc
      by_cases hne : t' = t
      · subst hne
        rw [activity_enter_self] at hc
        rw [hc] at hfresh
        cases hfresh
      · rw [activity_enter_of_ne _ _ _ hne] at hc
        exact g.allowed t' call' c hc
    · intro t' call' c result hc
      by_cases hne : t' = t
      · subst hne
        rw [activity_enter_self] at hc
        rw [hc] at hfresh
        cases hfresh
      · rw [activity_enter_of_ne _ _ _ hne] at hc
        exact g.outcome t' call' c result hc
    · intro t' c result hc
      by_cases hne : t' = t
      · subst hne
        rw [activity_enter_self] at hc
        rw [hc] at hfresh
        cases hfresh
      · rw [activity_enter_of_ne _ _ _ hne] at hc
        exact g.shut t' c result hc
  · exact g

theorem move (g : Guarded σ) (m : Move) : Guarded (σ.move m) := by
  cases m with
  | enterCall t call => exact g.enterCall t call
  | advance t => exact g.step (section_advance σ t)

theorem after (g : Guarded σ) (moves : List Move) : Guarded (σ.after moves) := by
  induction moves generalizing σ with
  | nil => exact g
  | cons m rest ih => exact ih (g.move m)

end Guarded

@[simp] theorem scene_enterCall (σ : Threads) (t : ThreadRef) (call : Call) :
    (σ.enterCall t call).scene = σ.scene := by
  rw [enterCall]
  split
  · rfl
  · rfl

theorem evolves_move (σ : Threads) (m : Move) : Evolves σ.scene (σ.move m).scene := by
  cases m with
  | enterCall t call => rw [move, scene_enterCall]
  | advance t => exact (section_advance σ t).evolves

theorem face?_move_of_closed (σ : Threads) (m : Move) {c : CanvasRef}
    (h : σ.scene.isClosed c = true) : (σ.move m).scene.face? c = σ.scene.face? c := by
  cases m with
  | enterCall t call => rw [move, scene_enterCall]
  | advance t => exact (section_advance σ t).face?_eq (Or.inr h)

/-- A closed canvas stays closed and keeps its face, whatever the threads do. -/
theorem closed_after {σ : Threads} {c : CanvasRef} (h : σ.scene.isClosed c = true)
    (moves : List Move) :
    (σ.after moves).scene.isClosed c = true ∧
      (σ.after moves).scene.face? c = σ.scene.face? c := by
  induction moves generalizing σ with
  | nil => exact ⟨h, rfl⟩
  | cons m rest ih =>
      obtain ⟨hclosed, hface⟩ := ih ((evolves_move σ m).closed c h)
      exact ⟨hclosed, hface.trans (face?_move_of_closed σ m h)⟩

/-- A canvas that may not be drawn: a drawing call made on it in one go does nothing. -/
theorem draw_of_refused {s : Scene} {c : CanvasRef}
    (h : s.canUpdate (s.managerOf c) c = false) (call : DrawCall) :
    (s.draw c call).1 = .ok () ∧ (s.draw c call).2.face? c = s.face? c := by
  cases call with
  | run =>
      have hsame := sameStanding_preparePrinter s c
      have h' : (s.preparePrinter c).canUpdate ((s.preparePrinter c).managerOf c) c = false := by
        unfold canUpdate at h ⊢
        rw [hsame.managerOf, hsame.focused, hsame.numberOf]
        exact h
      simp only [draw, run, update, h']
      exact ⟨rfl, face?_preparePrinter s c c⟩
  | update | clear =>
      simp only [draw, update, clear, h]
      exact ⟨rfl, rfl⟩

/-- A drawing call under way on a canvas that may not be drawn has not been allowed to, and its next
section lets it draw nothing. -/
theorem advance_of_refused {σ : Threads} (g : Guarded σ) {t : ThreadRef} {call : DrawCall}
    {c : CanvasRef} (drawing : (σ.activity t).IsDrawing call c)
    (refused : σ.scene.canUpdate (σ.scene.managerOf c) c = false) :
    ¬ σ.Renders t c ∧ (σ.advance t).scene.face? c = σ.scene.face? c ∧
      ∀ result, (σ.advance t).activity t = .returned (.errand (.draw call c)) result →
        result = .ok () := by
  have hnot : ∀ call, σ.activity t ≠ .drawing call c := by
    intro call' hactivity
    rw [g.allowed t call' c hactivity] at refused
    cases refused
  refine ⟨?_, ?_, ?_⟩
  · rintro ⟨h | h, -⟩
    · exact hnot _ h
    · exact hnot _ h
  · apply (section_advance σ t).face?_eq
    left
    cases hactivity : σ.activity t with
    | drawing call' c' =>
        rw [Activity.touches?, ne_eq, Option.some.injEq]
        rintro rfl
        exact hnot _ hactivity
    | writing | erasing =>
        rw [hactivity] at drawing
        exact drawing.elim
    | _ => simp [Activity.touches?]
  · intro result hreturned
    have hsection := section_advance σ t
    generalize σ.advance t = σ' at hsection hreturned
    cases hsection with
    | rest =>
        rw [hreturned] at drawing
        exact drawing.elim
    | leave errand result' doing =>
        rw [activity_withHolder, activity_enter_self, Activity.returned.injEq,
          Call.errand.injEq] at hreturned
        obtain ⟨rfl, rfl⟩ := hreturned
        rcases g.outcome t call c _ doing with hok | hallowed
        · exact hok
        · rw [hallowed] at refused
          cases refused
    | _ => simp at hreturned

theorem refused_of_hasFocus {σ : Threads} (g : Guarded σ) {m : ManagerRef} {a b : CanvasRef}
    (ha : σ.scene.Belongs a m) (hb : σ.scene.Belongs b m) (other : b ≠ a)
    (focus : σ.scene.hasFocus m a = true) :
    σ.scene.canUpdate (σ.scene.managerOf b) b = false := by
  obtain ⟨n, ha⟩ := ha
  obtain ⟨n', hb⟩ := hb
  have hne : n ≠ n' := by
    rintro rfl
    exact other (g.distinct b a _ hb ha)
  have hfocused : σ.scene.focused m = some n := by
    simpa [hasFocus, numberOf_eq_identity, ha] using focus
  simpa [canUpdate, managerOf_eq_identity, numberOf_eq_identity, hb, hfocused] using hne

/-- In every state that threads bring about, while a canvas has the focus of its manager, a drawing
call on another canvas of the manager succeeds and does nothing to it: made in one go it leaves its
face as it was, and one that is under way between other threads' sections has not been allowed to
draw, changes no more of it and returns success. And once a close of a canvas has returned, no move
of any thread changes its face or lets its visuals paint. -/
theorem focus_excludes_closed_rests {s : Scene} (numbered : s.Numbered) (moves : List Move) :
    let σ := Threads.after { scene := s } moves
    (∀ m a b, σ.scene.Belongs a m → σ.scene.Belongs b m → b ≠ a →
      σ.scene.hasFocus m a = true → ∀ call,
        ((σ.scene.draw b call).1 = .ok () ∧
          (σ.scene.draw b call).2.face? b = σ.scene.face? b) ∧
        ∀ t, (σ.activity t).IsDrawing call b →
          ¬ σ.Renders t b ∧ (σ.advance t).scene.face? b = σ.scene.face? b ∧
            ∀ result, (σ.advance t).activity t = .returned (.errand (.draw call b)) result →
              result = .ok ()) ∧
      ∀ t c m result, σ.scene.Belongs c m → σ.activity t = .returned (.close c) result →
        ∀ later, (σ.after later).scene.face? c = σ.scene.face? c ∧
          ∀ t', ¬ (σ.after later).Renders t' c := by
  intro σ
  have g : Guarded σ := (Guarded.start numbered).after moves
  constructor
  · intro m a b ha hb other focus call
    have refused := refused_of_hasFocus g ha hb other focus
    exact ⟨draw_of_refused refused call, fun t drawing => advance_of_refused g drawing refused⟩
  · intro t c m result belongs hreturned later
    have hclosed : σ.scene.isClosed c = true := by
      refine (g.shut t c result hreturned).resolve_left ?_
      obtain ⟨number, hidentity⟩ := belongs
      rw [hidentity]
      exact Option.some_ne_none _
    obtain ⟨hstays, hface⟩ := closed_after hclosed later
    refine ⟨hface, ?_⟩
    rintro t' ⟨-, hopen⟩
    rw [hstays] at hopen
    cases hopen

def twoCanvases : Scene :=
  (((Scene.newCanvas {} 0 { visuals := [], width := .fixed 8 }).2).newCanvas 0
    { visuals := [.drawn (fun _ => [.print "no"]) 0], width := .fixed 8 }).2

theorem numbered_twoCanvases : twoCanvases.Numbered :=
  numbered_newCanvas (numbered_newCanvas numbered_empty (by decide) _) (by decide) _

/-- While an update of the second canvas waits, the first takes the focus and a third thread closes
the second. -/
def overlap : List Move :=
  [.enterCall 1 (.errand (.draw .update 1)), .enterCall 0 (.errand (.focus 0))] ++
    List.replicate 4 (.advance 0) ++
    [.enterCall 2 (.close 1), .advance 2, .advance 2, .advance 1]

theorem focus_excludes_closed_rests_overlap :
    let σ := Threads.after { scene := twoCanvases } overlap
    σ.scene.Belongs 0 0 ∧ σ.scene.Belongs 1 0 ∧ σ.scene.hasFocus 0 0 = true ∧
      (σ.activity 1).IsDrawing .update 1 ∧ σ.activity 2 = .returned (.close 1) (.ok ()) ∧
      (σ.scene.draw 1 .update).1 = .ok () ∧ ¬ σ.Renders 1 1 ∧
      ((σ.advance 0).advance 1).scene.face? 1 = σ.scene.face? 1 := by
  intro σ
  have h := focus_excludes_closed_rests numbered_twoCanvases overlap
  have focus := h.1 0 0 1 ⟨0, rfl⟩ ⟨1, rfl⟩ (by decide) rfl .update
  have closed := h.2 2 1 0 (.ok ()) ⟨1, rfl⟩ rfl [.advance 0, .advance 1]
  exact ⟨⟨0, rfl⟩, ⟨1, rfl⟩, rfl, rfl, rfl, focus.1.1, (focus.2 1 rfl).1, closed.1⟩

end Threads

end Inlay
