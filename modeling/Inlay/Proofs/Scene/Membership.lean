import Inlay.Proofs.Threads.Kept
import Mathlib.Data.Finset.Card

namespace Inlay

namespace Scene

/-- What a handle to a canvas is used for. The canvas is registered with its own manager. -/
inductive Deed where
  | register
  | deregister
  | close
  | focus
  | draw (call : DrawCall)
  | addHandle
  | dropHandle
deriving DecidableEq, Repr

def done (s : Scene) (c : CanvasRef) : Deed → Scene
  | .register => s.register (s.managerOf c) c
  | .deregister => s.deregister (s.managerOf c) c
  | .close => s.close c
  | .focus => (s.focus c).2
  | .draw call => (s.draw c call).2
  | .addHandle => s.addHandle c
  | .dropHandle => s.dropHandle c

inductive Turn where
  | newManager
  | newCanvas (m : ManagerRef) (canvas : Canvas)
  | release (guard : FocusGuard)
  | on (c : CanvasRef) (deed : Deed)

/-- No canvas is made for a manager that is not there, and nothing is done with a canvas that nobody
has a handle to. -/
def turn (s : Scene) : Turn → Scene
  | .newManager => s.newManager.2
  | .newCanvas m canvas => if m < s.managers.size then (s.newCanvas m canvas).2 else s
  | .release guard => s.release guard
  | .on c deed => if s.isAlive c then s.done c deed else s

def after (s : Scene) (turns : List Turn) : Scene := turns.foldl turn s

/-- The turns by which a canvas enters the register of its manager. -/
def Adds (s : Scene) (c : CanvasRef) : Turn → Prop
  | .newCanvas m _ => m < s.managers.size ∧ c = s.canvases.size
  | .on c' .register => c' = c ∧ s.isAlive c = true
  | _ => False

/-- The turns by which a canvas leaves the register of its manager. -/
def Removes (c : CanvasRef) : Turn → Prop
  | .on c' .deregister | .on c' .close => c' = c
  | _ => False

/-- Whether a canvas was taken in after it was last taken off. -/
def Enrolled (s : Scene) (turns : List Turn) (c : CanvasRef) : Prop :=
  ∃ before turn later, turns = before ++ turn :: later ∧ (s.after before).Adds c turn ∧
    ∀ turn' ∈ later, ¬ Removes c turn'

variable {s s' : Scene} {c c' o : CanvasRef} {m m' : ManagerRef} {turns : List Turn}

theorem after_append (s : Scene) (turns turns' : List Turn) :
    s.after (turns ++ turns') = (s.after turns).after turns' :=
  List.foldl_append

theorem after_concat (s : Scene) (turns : List Turn) (turn : Turn) :
    s.after (turns ++ [turn]) = (s.after turns).turn turn :=
  List.foldl_concat _ _ _ _

/-- The last turn decides, unless it neither adds nor removes. -/
theorem enrolled_concat {turn : Turn} :
    s.Enrolled (turns ++ [turn]) c ↔
      (s.after turns).Adds c turn ∨ s.Enrolled turns c ∧ ¬ Removes c turn := by
  constructor
  · rintro ⟨before, added, later, heq, adds, stays⟩
    rcases List.eq_nil_or_concat later with rfl | ⟨later, last, rfl⟩
    · obtain ⟨rfl, hlast⟩ := List.append_inj' heq rfl
      rw [List.singleton_inj.mp hlast]
      exact .inl adds
    · rw [List.concat_eq_append] at heq stays
      rw [← List.cons_append, ← List.append_assoc] at heq
      obtain ⟨rfl, hlast⟩ := List.append_inj' heq rfl
      rw [List.singleton_inj.mp hlast]
      rw [List.forall_mem_append] at stays
      exact .inr ⟨⟨before, added, later, rfl, adds, stays.1⟩,
        stays.2 last (List.mem_singleton_self last)⟩
  · rintro (adds | ⟨⟨before, added, later, rfl, adds, stays⟩, kept⟩)
    · exact ⟨turns, turn, [], rfl, adds, nofun⟩
    · refine ⟨before, added, later ++ [turn], by simp, adds, ?_⟩
      rw [List.forall_mem_append, List.forall_mem_singleton]
      exact ⟨stays, kept⟩

theorem lt_size_of_isAlive (alive : s.isAlive c = true) : c < s.canvases.size := by
  rw [isAlive, Option.any_eq_true] at alive
  obtain ⟨e, he, -⟩ := alive
  exact (Array.getElem?_eq_some_iff.mp he).1

theorem identity?_done (s : Scene) (c : CanvasRef) (deed : Deed) (o : CanvasRef) :
    (s.done c deed).identity? o = s.identity? o := by
  cases deed with
  | register | deregister => rfl
  | close => exact (evolves_close s c).identity o
  | focus => exact (evolves_focus s c).identity o
  | draw call => exact (sameStanding_draw s c call).evolves.identity o
  | addHandle => exact (evolves_addHandle s c).identity o
  | dropHandle => exact (evolves_dropHandle s c).identity o

theorem Possible.done (possible : s.Possible) (alive : s.isAlive c = true) (deed : Deed) :
    (s.done c deed).Possible := by
  cases deed with
  | register => exact possible.register _ (lt_size_of_isAlive alive)
  | deregister => exact possible.deregister _ c
  | close =>
      refine (possible.deregister (s.managerOf c) c).change ?_
        (evolves_modifyCanvas_close _ c).identity
      rfl
  | focus => exact possible.focus c
  | draw call =>
      exact possible.change (sameStanding_draw s c call).managers (s.identity?_done c (.draw call))
  | addHandle | dropHandle =>
      refine possible.change ?_ (s.identity?_done c _)
      rfl

theorem Possible.turn (possible : s.Possible) (turn : Turn) : (s.turn turn).Possible := by
  cases turn with
  | newManager => exact possible.newManager
  | newCanvas m canvas =>
      rw [Scene.turn]
      split
      · rename_i there
        exact possible.newCanvas canvas there
      · exact possible
  | release guard => exact possible.release guard
  | on c deed =>
      rw [Scene.turn]
      split
      · rename_i alive
        exact possible.done alive deed
      · exact possible

theorem lt_size_turn (here : c < s.canvases.size) (turn : Turn) :
    c < (s.turn turn).canvases.size := by
  cases turn with
  | newManager | release => exact here
  | newCanvas m canvas =>
      rw [Scene.turn]
      split
      · rw [size_canvases_newCanvas]
        exact Nat.lt_succ_of_lt here
      · exact here
  | on c' deed =>
      rw [Scene.turn]
      split
      · rwa [lt_size_iff, identity?_done, ← lt_size_iff]
      · exact here

theorem lt_size_after (here : c < s.canvases.size) (turns : List Turn) :
    c < (s.after turns).canvases.size := by
  induction turns generalizing s with
  | nil => exact here
  | cons turn rest ih => exact ih (lt_size_turn here turn)

/-- A canvas that is there already is added by a registration only. -/
theorem eq_register_of_adds {turn : Turn} (here : c < s.canvases.size) (adds : s.Adds c turn) :
    turn = .on c .register := by
  cases turn with
  | newManager | release => exact adds.elim
  | newCanvas m canvas => exact absurd adds.2 (Nat.ne_of_lt here)
  | on c' deed =>
      cases deed with
      | register => rw [adds.1]
      | _ => exact adds.elim

/-- A canvas that was taken off and not taken in again is not enrolled. -/
theorem not_enrolled_of_removes {before later : List Turn} {turn : Turn}
    (here : c < (s.after before).canvases.size) (removes : Removes c turn)
    (notAgain : .on c .register ∉ later) : ¬ s.Enrolled (before ++ turn :: later) c := by
  induction later using List.reverseRecOn with
  | nil =>
      rw [enrolled_concat]
      rintro (adds | ⟨-, kept⟩)
      · rw [eq_register_of_adds here adds] at removes
        exact removes
      · exact kept removes
  | append_singleton later last ih =>
      rw [← List.cons_append, ← List.append_assoc, enrolled_concat]
      rw [List.mem_append, not_or] at notAgain
      rintro (adds | ⟨henrolled, -⟩)
      · have stillHere : c < (s.after (before ++ turn :: later)).canvases.size := by
          rw [after_append]
          exact lt_size_after here _
        exact notAgain.2 (List.mem_singleton.mpr (eq_register_of_adds stillHere adds).symm)
      · exact ih notAgain.1 henrolled

/-- Registers that name canvases of their own managers only, and of those alive the ones that are
`enrolled`. -/
structure Exact (s : Scene) (enrolled : CanvasRef → Prop) : Prop where
  possible : s.Possible
  own : ∀ m, s.OwnRegister m
  -- the dead stay until some registration or removal prunes them, so nothing is said of them
  entered : ∀ m c, s.isAlive c = true → (c ∈ s.entries m ↔ s.Belongs c m ∧ enrolled c)

namespace Exact

variable {enrolled enrolled' : CanvasRef → Prop}

theorem congr (h : s.Exact enrolled)
    (same : ∀ c, s.isAlive c = true → (enrolled' c ↔ enrolled c)) : s.Exact enrolled' :=
  ⟨h.possible, h.own, fun m c alive => by rw [h.entered m c alive, same c alive]⟩

theorem idle {turn : Turn} (h : s'.Exact enrolled)
    (idle : ∀ c, s'.isAlive c = true → ¬ s.Adds c turn ∧ ¬ Removes c turn) :
    s'.Exact fun c => s.Adds c turn ∨ enrolled c ∧ ¬ Removes c turn :=
  h.congr fun c alive => by simp only [idle c alive, false_or, not_false_eq_true, and_true]

/-- What brings no canvas to life leaves the registers exact as far as it leaves them alone. -/
theorem of_entries (h : s.Exact enrolled) (possible : s'.Possible)
    (entries : ∀ m, s'.entries m = s.entries m) (identity : ∀ c, s'.identity? c = s.identity? c)
    (alive : ∀ c, s'.isAlive c = true → s.isAlive c = true) : s'.Exact enrolled := by
  refine ⟨possible, fun m c hmem => ?_, fun m c halive => ?_⟩
  · rw [entries] at hmem
    exact (h.own m c hmem).of_identity (identity c)
  · rw [entries, h.entered m c (alive c halive), Belongs, Belongs, identity]

theorem start (managers : s.managers = #[{}]) (canvases : s.canvases = #[]) :
    s.Exact (s.Enrolled []) := by
  have possible : s.Possible := .start managers canvases
  have nobody : ∀ c, ¬ c < s.canvases.size := by
    rw [canvases]
    exact fun c => Nat.not_lt_zero c
  exact ⟨possible, fun m c hmem => absurd ((possible.orderly.listed m).present c hmem) (nobody c),
    fun m c alive => absurd (lt_size_of_isAlive alive) (nobody c)⟩

theorem register (h : s.Exact enrolled) (alive' : s.isAlive c' = true) :
    (s.register (s.managerOf c') c').Exact fun c => c' = c ∨ enrolled c := by
  have here := lt_size_of_isAlive alive'
  refine ⟨h.possible.register _ here, fun m c hmem => ?_, fun m c alive => ?_⟩
  · rcases mem_entries_register_iff.mp hmem with ⟨hold, -⟩ | ⟨rfl, rfl, -⟩
    · exact h.own m c hold
    · exact belongs_managerOf here
  · have hentered := h.entered m c alive
    rw [mem_entries_register_iff]
    constructor
    · rintro (⟨hold, -⟩ | ⟨rfl, rfl, -⟩)
      · exact (hentered.mp hold).imp_right .inr
      · exact ⟨belongs_managerOf here, .inl rfl⟩
    · rintro ⟨belongs, rfl | henrolled⟩
      · obtain rfl : s.managerOf c' = m := Belongs.managerOf belongs
        by_cases old : c' ∈ s.entries (s.managerOf c')
        · exact .inl ⟨old, fun _ => alive⟩
        · have orderly := h.possible.orderly
          refine .inr ⟨rfl, rfl, orderly.homed c' _ belongs, fun o ho _ same => old ?_⟩
          obtain rfl : o = c' :=
            Grants.numberOf_inj orderly.numbered (h.own _ o ho) belongs same
          exact ho
      · exact .inl ⟨hentered.mpr ⟨belongs, henrolled⟩, fun _ => alive⟩

theorem deregister (h : s.Exact enrolled) (here : c' < s.canvases.size) :
    (s.deregister (s.managerOf c') c').Exact fun c => enrolled c ∧ c' ≠ c := by
  refine ⟨h.possible.deregister _ c', fun m c hmem => ?_, fun m c alive => ?_⟩
  · exact h.own m c (mem_of_mem_entries_deregister hmem)
  · rw [mem_entries_deregister_iff, h.entered m c alive]
    constructor
    · rintro ⟨⟨belongs, henrolled⟩, apart⟩
      refine ⟨belongs, henrolled, ?_⟩
      rintro rfl
      exact (apart belongs.managerOf).1 rfl
    · rintro ⟨belongs, henrolled, hne⟩
      refine ⟨⟨belongs, henrolled⟩, ?_⟩
      rintro rfl
      refine ⟨fun same => hne ?_, alive⟩
      exact Grants.numberOf_inj h.possible.orderly.numbered (belongs_managerOf here) belongs
        same.symm

theorem newCanvas (h : s.Exact enrolled) (there : m < s.managers.size) (canvas : Canvas) :
    (s.newCanvas m canvas).2.Exact fun c => c = s.canvases.size ∨ enrolled c := by
  have orderly := h.possible.orderly
  have own : ∀ m', (s.newCanvas m canvas).2.OwnRegister m' := fun m' =>
    (h.own m').newCanvas orderly m canvas
  refine ⟨h.possible.newCanvas canvas there, own, fun m' c alive => ?_⟩
  by_cases hnew : c = s.canvases.size
  · subst hnew
    constructor
    · exact fun hmem => ⟨own m' _ hmem, .inl rfl⟩
    · rintro ⟨⟨number, hidentity⟩, -⟩
      rw [identity?_newCanvas, if_pos rfl] at hidentity
      obtain ⟨rfl, -⟩ := Prod.mk.inj (Option.some.inj hidentity)
      exact mem_entries_newCanvas orderly there (h.own m) canvas
  · have here : c < s.canvases.size := by
      have hsize := lt_size_of_isAlive alive
      rw [size_canvases_newCanvas] at hsize
      exact Nat.lt_of_le_of_ne (Nat.le_of_lt_succ hsize) hnew
    rw [isAlive, canvases_newCanvas_of_lt m canvas here, ← isAlive] at alive
    have hentered := h.entered m' c alive
    have identity : (s.newCanvas m canvas).2.identity? c = s.identity? c := by
      rw [identity?_newCanvas, if_neg hnew]
    constructor
    · intro hmem
      have hold := (mem_of_mem_entries_newCanvas hmem).resolve_right fun hmade => hnew hmade.1
      exact ⟨own m' c hmem, .inr (hentered.mp hold).2⟩
    · rintro ⟨belongs, hmade⟩
      have hold := hentered.mpr
        ⟨Belongs.of_identity belongs identity.symm, hmade.resolve_left hnew⟩
      exact mem_entries_newCanvas_of_mem orderly alive hold m canvas

end Exact

theorem entries_newManager (s : Scene) (m : ManagerRef) :
    s.newManager.2.entries m = s.entries m := by
  unfold entries
  rw [newManager, Array.getElem?_push]
  split
  · rename_i heq
    rw [heq, Array.getElem?_eq_none_iff.mpr (Nat.le_refl _)]
    rfl
  · rfl

theorem isAlive_of_addHandle (alive' : s.isAlive c' = true)
    (alive : (s.addHandle c').isAlive c = true) : s.isAlive c = true := by
  by_cases heq : c' = c
  · rwa [← heq]
  · rwa [isAlive, addHandle, getElem?_modifyEntry, if_neg heq] at alive

theorem isAlive_of_dropHandle (alive : (s.dropHandle c').isAlive c = true) :
    s.isAlive c = true := by
  rw [isAlive_iff, handlesOf_dropHandle] at alive
  exact isAlive_iff.mpr (Nat.lt_of_lt_of_le alive (Nat.sub_le _ _))

/-- A deed adds and removes no other canvas. -/
theorem eq_of_adds_or_removes {deed : Deed}
    (h : s.Adds c (.on c' deed) ∨ Removes c (.on c' deed)) : c' = c := by
  cases deed with
  | register => exact (h.resolve_right id).1
  | deregister | close => exact h.resolve_left id
  | focus | draw | addHandle | dropHandle => exact (h.elim id id).elim

namespace Exact

variable {enrolled : CanvasRef → Prop}

/-- A deed with a canvas that somebody has a handle to. -/
theorem done (h : s.Exact enrolled) (alive' : s.isAlive c' = true) (deed : Deed) :
    (s.done c' deed).Exact fun c =>
      s.Adds c (.on c' deed) ∨ enrolled c ∧ ¬ Removes c (.on c' deed) := by
  have possible := h.possible.done alive' deed
  have here := lt_size_of_isAlive alive'
  cases deed with
  | register =>
      refine (h.register alive').congr fun c alive => ?_
      simp only [Adds, Removes, not_false_eq_true, and_true]
      exact or_congr_left (and_iff_left alive)
  | deregister =>
      exact (h.deregister here).congr fun c _ => by simp only [Adds, Removes, false_or]
  | close =>
      have closed := (h.deregister here).of_entries possible (fun _ => rfl)
        (s.identity?_done c' .close) fun c alive => ?_
      · exact closed.congr fun c _ => by simp only [Adds, Removes, false_or]
      · rwa [isAlive_iff, Scene.done, close, handlesOf_modifyCanvas, ← isAlive_iff] at alive
  | focus =>
      have focused := h.of_entries possible (entries_focus s c') (s.identity?_done c' .focus)
        fun c alive => (isAlive_focus s c' c).symm.trans alive
      exact focused.idle fun _ _ => ⟨id, id⟩
  | draw call =>
      have same := sameStanding_draw s c' call
      have drawn := h.of_entries possible (entries_of_managers same.managers)
        (s.identity?_done c' (.draw call)) fun c alive => (same.isAlive c).symm.trans alive
      exact drawn.idle fun _ _ => ⟨id, id⟩
  | addHandle =>
      have shared := h.of_entries possible (fun _ => rfl) (s.identity?_done c' .addHandle)
        fun c alive => isAlive_of_addHandle alive' alive
      exact shared.idle fun _ _ => ⟨id, id⟩
  | dropHandle =>
      have dropped := h.of_entries possible (fun _ => rfl) (s.identity?_done c' .dropHandle)
        fun c alive => isAlive_of_dropHandle alive
      exact dropped.idle fun _ _ => ⟨id, id⟩

theorem turn (h : s.Exact enrolled) (turn : Turn) :
    (s.turn turn).Exact fun c => s.Adds c turn ∨ enrolled c ∧ ¬ Removes c turn := by
  have possible := h.possible.turn turn
  cases turn with
  | newManager =>
      have made := h.of_entries possible s.entries_newManager (fun _ => rfl) fun _ alive => alive
      exact made.idle fun _ _ => ⟨id, id⟩
  | newCanvas m canvas =>
      rw [Scene.turn]
      split
      · rename_i there
        refine (h.newCanvas there canvas).congr fun c _ => ?_
        simp only [Adds, Removes, there, true_and, not_false_eq_true, and_true]
      · rename_i absent
        exact h.idle fun _ _ => ⟨fun adds => absent adds.1, id⟩
  | release guard =>
      have released := h.of_entries possible (fun m => entries_modifyManager s _ m fun _ => rfl)
        (fun _ => rfl) fun _ alive => alive
      exact released.idle fun _ _ => ⟨id, id⟩
  | on c' deed =>
      rw [Scene.turn]
      split
      · rename_i alive'
        exact h.done alive' deed
      · rename_i dead
        refine h.idle fun c alive => not_or.mp fun touches => dead ?_
        rwa [eq_of_adds_or_removes touches]

/-- After any turns the registers are exact. -/
theorem after (h : s.Exact (s.Enrolled [])) (turns : List Turn) :
    (s.after turns).Exact (s.Enrolled turns) := by
  induction turns using List.reverseRecOn with
  | nil => exact h
  | append_singleton turns turn ih =>
      rw [after_concat]
      exact (ih.turn turn).congr fun _ _ => enrolled_concat

/-- The canvases of a manager that are alive and enrolled are counted. -/
theorem registered (h : s.Exact enrolled) (m : ManagerRef) :
    ∃ members : Finset CanvasRef,
      (∀ c, c ∈ members ↔ s.Belongs c m ∧ s.isAlive c = true ∧ enrolled c) ∧
        s.registered m = members.card ∧ ∀ c ∈ members, (s.entries m).count c = 1 := by
  have nodup := (h.possible.orderly.listed m).nodup
  refine ⟨((s.entries m).filter s.isAlive).toFinset, fun c => ?_, ?_, fun c hc => ?_⟩
  · rw [List.mem_toFinset, List.mem_filter]
    constructor
    · rintro ⟨hmem, alive⟩
      obtain ⟨belongs, henrolled⟩ := (h.entered m c alive).mp hmem
      exact ⟨belongs, alive, henrolled⟩
    · rintro ⟨belongs, alive, henrolled⟩
      exact ⟨(h.entered m c alive).mpr ⟨belongs, henrolled⟩, alive⟩
  · rw [List.toFinset_card_of_nodup (nodup.filter _), ← List.countP_eq_length_filter]
    rfl
  · exact List.count_eq_one_of_mem nodup (List.mem_filter.mp (List.mem_toFinset.mp hc)).1

/-- A grant of the focus erases nothing of a canvas that is not enrolled. -/
theorem spared (h : s.Exact enrolled) (gone : ¬ enrolled c) (o : CanvasRef) :
    c ∉ s.others (s.managerOf o) o ∧ (s.focus o).2.canvases[c]? = s.canvases[c]? := by
  have notOther : c ∉ s.others (s.managerOf o) o := by
    intro hmem
    obtain ⟨hentry, hfacts⟩ := List.mem_filter.mp hmem
    exact gone ((h.entered _ c (Bool.and_eq_true_iff.mp hfacts).2).mp hentry).2
  refine ⟨notOther, ?_⟩
  rw [focus_snd, others_withFocusOn, canvases_eraseAll_of_notMem notOther]
  rfl

end Exact

/-- The register of a manager counts its canvases that are alive and were taken in after they were
last taken off, and names each of them once. A canvas that was taken off or closed and not taken in
again keeps its frame when the focus is granted. -/
theorem registered_exact (managers : s.managers = #[{}]) (canvases : s.canvases = #[])
    (turns : List Turn) (m : ManagerRef) :
    (∃ members : Finset CanvasRef,
      (∀ c, c ∈ members ↔
        (s.after turns).Belongs c m ∧ (s.after turns).isAlive c = true ∧ s.Enrolled turns c) ∧
      (s.after turns).registered m = members.card ∧
      ∀ c ∈ members, ((s.after turns).entries m).count c = 1) ∧
    ∀ before turn later c, turns = before ++ turn :: later → (s.after before).isAlive c = true →
      Removes c turn → .on c .register ∉ later →
      ∀ o, c ∉ (s.after turns).others ((s.after turns).managerOf o) o ∧
        ((s.after turns).focus o).2.canvases[c]? = (s.after turns).canvases[c]? := by
  have registers := (Exact.start managers canvases).after turns
  refine ⟨registers.registered m, ?_⟩
  rintro before turn later c rfl alive removes notAgain o
  exact registers.spared (not_enrolled_of_removes (lt_size_of_isAlive alive) removes notAgain) o

/-- Of three spinners the first is drawn and taken off, the second is closed and taken in twice, and
the last handle to the third is dropped. -/
def comings : List Turn :=
  List.replicate 3 (.newCanvas 0 (spinner .faultless)) ++
    [.on 0 (.draw .run), .on 0 .deregister, .on 1 .close, .on 1 .register, .on 1 .register,
      .on 2 .dropHandle]

/-- Only the second is counted, and the first keeps its frame when the second has the focus. -/
theorem registered_exact_comings :
    ({} : Scene).managers = #[{}] ∧ ({} : Scene).canvases = #[] ∧
      (after {} comings).registered 0 = 1 ∧ ((after {} comings).entries 0).count 1 = 1 ∧
      0 ∉ (after {} comings).others 0 1 ∧
      (((after {} comings).focus 1).2.printer? 0).map Printer.size = some ⟨1, 7⟩ := by
  obtain ⟨⟨members, hmembers, -, once⟩, spared⟩ := registered_exact (s := {}) rfl rfl comings 0
  have second : 1 ∈ members := by
    refine (hmembers 1).mpr ⟨⟨1, by decide +kernel⟩, by decide +kernel, ?_⟩
    exact ⟨comings.take 7, .on 1 .register, [.on 2 .dropHandle], rfl, ⟨rfl, by decide +kernel⟩,
      by simp [Removes]⟩
  obtain ⟨notOther, same⟩ := spared (comings.take 4) (.on 0 .deregister) (comings.drop 5) 0 rfl
    (by decide +kernel) rfl (by simp [comings]) 1
  refine ⟨rfl, rfl, by decide +kernel, once 1 second, ?_, ?_⟩
  · exact notOther
  · rw [printer?, same]
    decide +kernel

end Scene

end Inlay
