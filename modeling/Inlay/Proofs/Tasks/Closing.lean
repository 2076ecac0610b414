import Inlay.Proofs.Scene.Registers
import Inlay.Proofs.Scene.Repeated

namespace Inlay

namespace Canvas

/-- A frame fails with the fault of its one write. -/
theorem flush_fst_cases (c : Canvas) (p : Printer) :
    (c.flush p).1 = .ok () ∨ ∃ text, (c.flush p).1 = (c.sink.write text).1 := by
  unfold flush writeLog
  dsimp only
  split
  · split
    · exact .inl rfl
    · exact .inr ⟨_, rfl⟩
  · split
    · exact .inl rfl
    · exact .inr ⟨_, rfl⟩

/-- Where no visual fails, a repaint fails by a refusal of the sink only. -/
theorem refused_of_repaint {c : Canvas} {env : Environment} {gallery : Gallery}
    {failure : Failure} (hg : gallery.Succeeds) (hvisuals : ∀ v ∈ c.visuals, v.Succeeds)
    (h : (c.repaint env gallery).result = .error failure) :
    ∃ text fault, (c.sink.write text).1 = .error fault ∧ failure = .output fault := by
  have painted := (Frame.succeeds_paint hg (c.printerIn env).clear hvisuals).1
  unfold repaint at h
  dsimp only at h
  rw [painted] at h
  rcases flush_fst_cases { c with visuals := (Frame.paint gallery (c.printerIn env).clear
    c.visuals).visuals } (Frame.paint gallery (c.printerIn env).clear c.visuals).printer with
    hflushed | ⟨text, hflushed⟩
  · rw [hflushed] at h
    cases h
  · rw [hflushed] at h
    cases hwritten : (c.sink.write text).1 with
    | ok =>
        rw [hwritten] at h
        cases h
    | error fault =>
        rw [hwritten] at h
        exact ⟨text, fault, hwritten, (Except.error.inj h).symm⟩

end Canvas

namespace Scene

variable {s s' s'' : Scene} {w : Nat} {c : CanvasRef} {m : ManagerRef} {l : TaskList}
  {options : CanvasOptions} {thread : Except Fault Unit} {result : Except Failure Unit}
  {failure : Failure}

theorem entries_close_of_ne (h : s.managerOf c ≠ m) : (s.close c).entries m = s.entries m :=
  entries_modifyManager_of_ne h _

theorem entries_resolve (s : Scene) (w : Nat) (options : CanvasOptions) (m : ManagerRef) :
    (s.resolve w (.owned options)).2.entries m =
      (s.newCanvas options.manager (options.canvasOf w)).2.entries m := by
  unfold resolve
  dsimp only
  split
  · rfl
  · rfl

/-- The first frame of a list fails only if the sink refuses the first text of all. -/
theorem refused_of_openTasks (slot : l.slot = .owned options)
    (hdrawn : (s.openTasks w l).drawn = .error failure) :
    ∃ text fault, (Sink.write { behavior := options.behavior } text).1 = .error fault ∧
      failure = .output fault := by
  obtain ⟨number, he⟩ := canvas_resolve s w options
  have hrun : ((s.resolve w (.owned options)).2.run s.canvases.size).1 = .error failure := by
    rw [openTasks, slot] at hdrawn
    exact hdrawn
  have hprepared := canvases_modifyCanvas_self he
    (·.withPrinter (s.resolve w (.owned options)).2.env)
  rw [run, update] at hrun
  split at hrun
  · rw [preparePrinter, result_repaintUnlessClosed hprepared rfl] at hrun
    apply Canvas.refused_of_repaint (succeeds_gallery _) ?_ hrun
    exact List.forall_mem_singleton.mpr trivial
  · cases hrun

/-- How a run of a list returns: at once, if its first frame is not drawn or no thread can be made
for its clockwork, or with all tasks done under some order of sections. -/
inductive Returned (w : Nat) (s : Scene) (thread : Except Fault Unit) :
    Except Failure Unit → Scene → Prop
  | unready {l : TaskList} {failure : Failure} (hl : s.tasks? w = some l)
      (hready : (s.openTasks w l).ready thread = .error failure) :
      Returned w s thread (s.runTasks w thread).1 (s.runTasks w thread).2
  | ran {history : List Deed} {result : Except Failure Unit} {s' : Scene}
      (made : thread = .ok ()) (ran : Ran w s history result s') : Returned w s thread result s'

theorem Opening.drawn_of_ready {o : Opening} (h : o.ready thread = .ok ()) :
    o.drawn = .ok () ∧ thread = .ok () := by
  unfold ready at h
  cases hdrawn : o.drawn with
  | error failure =>
      rw [hdrawn] at h
      cases h
  | ok =>
      rw [hdrawn] at h
      cases thread with
      | error fault => cases h
      | ok => exact ⟨rfl, rfl⟩

theorem Opening.cases_of_unready {o : Opening} (h : o.ready thread = .error failure) :
    o.drawn = .error failure ∨
      o.drawn = .ok () ∧ ∃ fault, thread = .error fault ∧ failure = .output fault := by
  unfold ready at h
  cases hdrawn : o.drawn with
  | error failure' =>
      rw [hdrawn] at h
      exact .inl h
  | ok =>
      rw [hdrawn] at h
      cases thread with
      | error fault => exact .inr ⟨rfl, fault, rfl, (Except.error.inj h).symm⟩
      | ok => cases h

theorem exists_returned (hl : s.tasks? w = some l) (thread : Except Fault Unit) :
    Returned w s thread (s.runTasks w thread).1 (s.runTasks w thread).2 := by
  cases hready : (s.openTasks w l).ready thread with
  | error failure => exact .unready hl hready
  | ok =>
      obtain ⟨hdrawn, rfl⟩ := Opening.drawn_of_ready hready
      obtain ⟨history, ran⟩ := ran_of_drawn hl hdrawn
      exact .ran rfl ran

/-- A run without its first frame or its clockwork ends before the tasks. -/
theorem runTasks_unready (hl : s.tasks? w = some l)
    (hready : (s.openTasks w l).ready thread = .error failure) :
    (s.runTasks w thread).1 = .error failure ∧
      SameStanding (s.resolve w l.slot).2 (s.runTasks w thread).2 ∧
      (s.runTasks w thread).2.place? w = (s.resolve w l.slot).2.place? w := by
  have opened : Idle w 0 (s.resolve w l.slot).2 (s.openTasks w l).scene := idle_openTasks s w l
  unfold runTasks
  rw [hl]
  unfold Opening.ready openTasks at *
  dsimp only at *
  have drawn := sameStanding_run (s.resolve w l.slot).2 (s.resolve w l.slot).1.1
  have widgets := widgets_run (s.resolve w l.slot).2 (s.resolve w l.slot).1.1
  generalize (s.resolve w l.slot).2.run (s.resolve w l.slot).1.1 = ran at *
  obtain ⟨result, s'⟩ := ran
  cases result with
  | error failure' => exact ⟨hready, drawn, place?_of_widgets widgets w⟩
  | ok =>
      cases thread with
      | error fault => exact ⟨hready, drawn.trans (sameStanding_modifyTasks _ w _), opened.place⟩
      | ok => cases hready

theorem sameStanding_after (σ : Crew) (moves : List Crew.Move) :
    SameStanding σ.scene (σ.after w c moves).scene :=
  Crew.related_after SameStanding.refl (fun s _ _ => sameStanding_modifyTasks s w _)
    SameStanding.trans sameStanding_update sameStanding_note
    (fun _ _ => ⟨rfl, rfl, fun _ => rfl⟩) σ moves

/-- What a run comes to on its way, and what it does at its end. -/
theorem Returned.cases (returned : Returned w s thread result s') (hl : s.tasks? w = some l) :
    ∃ t, SameStanding (s.resolve w l.slot).2 t ∧
      t.place? w = (s.resolve w l.slot).2.place? w ∧
      ((∃ failure, (s.openTasks w l).ready thread = .error failure ∧ result = .error failure ∧
          s' = t) ∨
        (s.openTasks w l).ready thread = .ok () ∧
          s' = if (s.openTasks w l).owned then t.close (s.openTasks w l).canvas else t) := by
  cases returned with
  | unready hl' hready =>
      obtain rfl := Option.some.inj (hl'.symm.trans hl)
      obtain ⟨hresult, same, hplace⟩ := runTasks_unready hl hready
      exact ⟨_, same, hplace, .inl ⟨_, hready, hresult, rfl⟩⟩
  | ran made ran =>
      obtain ⟨l₁, moves, hl₁, hdrawn, -, -, hconclude⟩ := ran
      obtain rfl := Option.some.inj (hl₁.symm.trans hl)
      have hready : (s.openTasks w l₁).ready thread = .ok () := by
        rw [Opening.ready, hdrawn, made]
        rfl
      refine ⟨((s.crewAfter w l₁ moves).scene.update (s.openTasks w l₁).canvas).2, ?_, ?_,
        .inr ⟨hready, ?_⟩⟩
      · have opened : SameStanding (s.resolve w l₁.slot).2 (s.openTasks w l₁).scene :=
          (sameStanding_run _ _).trans (sameStanding_modifyTasks _ w _)
        have crew : SameStanding (s.openTasks w l₁).scene (s.crewAfter w l₁ moves).scene :=
          sameStanding_after (Crew.start (s.openTasks w l₁).scene l₁) moves
        exact (opened.trans crew).trans (sameStanding_update _ _)
      · have opened : Idle w 0 (s.resolve w l₁.slot).2 (s.openTasks w l₁).scene :=
          idle_openTasks s w l₁
        have crew : Idle w 0 (s.openTasks w l₁).scene (s.crewAfter w l₁ moves).scene :=
          idle_after (Crew.start (s.openTasks w l₁).scene l₁) moves
        exact ((opened.trans crew).trans (idle_update _ _)).place
      · have hs' : s' = (s.conclude w l₁ (s.crewAfter w l₁ moves)).2 :=
          (congrArg Prod.snd hconclude).symm
        rw [hs', conclude, closeTasks_snd]

/-- What adding to a list and running it lead to. -/
inductive Later (w : Nat) (s : Scene) : Scene → Prop
  | start : Later w s s
  | add {s' : Scene} (later : Later w s s') (task : NewTask) : Later w s (s'.addTask w task)
  | run {s' s'' : Scene} {thread : Except Fault Unit} {result : Except Failure Unit}
      (later : Later w s s') (returned : Returned w s' thread result s'') : Later w s s''

/-- A list on a canvas that it does not count as its own leaves the canvas where it stands. -/
theorem Later.sameStanding (later : Later w s s') (place : s.place? w = some (.tasks, .shared c)) :
    s'.place? w = some (.tasks, .shared c) ∧ SameStanding s s' := by
  induction later with
  | start => exact ⟨place, .refl s⟩
  | @add s₁ later task ih =>
      have added : Idle w c s₁ (s₁.addTask w task) := idle_addTask s₁ w task
      exact ⟨added.place.trans ih.1, ih.2.trans (sameStanding_modifyTasks _ w _)⟩
  | run later returned ih =>
      obtain ⟨l, hl, slot⟩ := exists_tasks ih.1
      obtain ⟨t, same, hplace, hend⟩ := returned.cases hl
      rw [slot] at same hplace
      rcases hend with ⟨failure, -, -, rfl⟩ | ⟨-, hclosed⟩
      · exact ⟨hplace.trans ih.1, ih.2.trans same⟩
      · rw [openTasks, slot] at hclosed
        subst hclosed
        exact ⟨hplace.trans ih.1, ih.2.trans same⟩

/-- A list closes the canvas that it made and takes it off the register, whatever else fails, if
its first frame is drawn and a thread can be made for its clockwork. The frame fails only if the
sink refuses its first text. Without the frame or the thread the run returns the failure of it, and
from there on the canvas stays open and registered, whatever is added and run. -/
theorem returned_closesOwn (possible : s.Possible) (hl : s.tasks? w = some l)
    (slot : l.slot = .owned options) (there : options.manager < s.managers.size)
    (returned : Returned w s thread result s') :
    ((s.openTasks w l).ready thread = .ok () →
      s'.isClosed s.canvases.size = true ∧ ∀ m, s.canvases.size ∉ s'.entries m) ∧
    ∀ failure, (s.openTasks w l).ready thread = .error failure →
      (((s.openTasks w l).drawn = .error failure ∧
          ∃ text fault, (Sink.write { behavior := options.behavior } text).1 = .error fault ∧
            failure = .output fault) ∨
        (s.openTasks w l).drawn = .ok () ∧
          ∃ fault, thread = .error fault ∧ failure = .output fault) ∧
      result = .error failure ∧
      ∀ s'', Later w s' s'' →
        s''.isClosed s.canvases.size = false ∧ s''.isAlive s.canvases.size = true ∧
          ((∀ o ∈ s.entries options.manager, s.Belongs o options.manager) →
            s.canvases.size ∈ s''.entries options.manager) := by
  obtain ⟨t, same, hplace, hend⟩ := returned.cases hl
  obtain ⟨number, he⟩ := canvas_resolve s w options
  obtain ⟨hcanvas, howned⟩ := canvas_openTasks (s := s) (w := w) slot
  have resolved := place?_resolve (slot ▸ place?_of_tasks? hl)
  rw [slot] at same hplace
  constructor
  · intro hready
    rcases hend with ⟨failure, hfails, -⟩ | ⟨-, hs'⟩
    · cases hready.symm.trans hfails
    · rw [howned, if_pos rfl, hcanvas] at hs'
      have hstanding := same.standing s.canvases.size
      rw [standing?, standing?, he] at hstanding
      obtain ⟨e, he', hsame⟩ := Option.map_eq_some_iff.mp hstanding
      have hmanager : t.managerOf s.canvases.size = options.manager := by
        rw [managerOf, he']
        exact congrArg Standing.manager hsame
      subst hs'
      refine ⟨isClosed_close he', fun m => ?_⟩
      by_cases hm : t.managerOf s.canvases.size = m
      · rw [← hm]
        exact notMem_entries_close t s.canvases.size
      · rw [entries_close_of_ne hm, entries_of_managers same.managers, entries_resolve,
          entries_newCanvas_of_ne (hmanager ▸ hm)]
        exact fun hmem => Nat.lt_irrefl _ ((possible.orderly.listed m).present _ hmem)
  · intro failure hready
    rcases hend with ⟨failure', hfails, hresult, rfl⟩ | ⟨hready', -⟩
    · obtain rfl := Except.error.inj (hfails.symm.trans hready)
      have cause := (Opening.cases_of_unready hready).imp_left fun hdrawn =>
        And.intro hdrawn (refused_of_openTasks slot hdrawn)
      refine ⟨cause, hresult, fun s'' later => ?_⟩
      have stays := same.trans (later.sameStanding (hplace.trans resolved)).2
      refine ⟨?_, ?_, fun own => ?_⟩
      · rw [stays.isClosed, isClosed, he]
        rfl
      · rw [stays.isAlive, isAlive, he]
        rfl
      · rw [entries_of_managers stays.managers, entries_resolve]
        exact mem_entries_newCanvas possible.orderly there own _
    · cases hready'.symm.trans hready

/-- A list with one task, whose sink refuses one call. -/
def refusedAt (call : Nat) : Scene :=
  let behavior := Sink.Behavior.ofTrouble
    { first := some call, count := some 1, trouble := .refuse ⟨.brokenPipe, "gone"⟩ }
  Scene.addTask { widgets := #[.tasks { slot := .owned { behavior := behavior } }] } 0 fineTask

theorem possible_refusedAt (call : Nat) : (refusedAt call).Possible := .start rfl rfl

/-- The first frame or the last is refused, or a thread for the clockwork. -/
theorem returned_closesOwn_refused :
    let again := ((refusedAt 0).runTasks 0).2.addTask 0 failingTask
    let fault : Fault := ⟨.wouldBlock, "Resource temporarily unavailable (os error 11)"⟩
    (refusedAt 1).Possible ∧ 0 < (refusedAt 1).managers.size ∧
    ((refusedAt 1).runTasks 0).1 = .error (.output ⟨.brokenPipe, "gone"⟩) ∧
    ((refusedAt 1).runTasks 0).2.isClosed 0 = true ∧
    0 ∉ ((refusedAt 1).runTasks 0).2.entries 0 ∧
    ((refusedAt 0).runTasks 0).1 = .error (.output ⟨.brokenPipe, "gone"⟩) ∧
    (again.runTasks 0).2.isClosed 0 = false ∧ 0 ∈ (again.runTasks 0).2.entries 0 ∧
    ((refusedAt 1).runTasks 0 (.error fault)).1 = .error (.output fault) ∧
    ((refusedAt 1).runTasks 0 (.error fault)).2.isClosed 0 = false := by
  intro again fault
  have there (call : Nat) : 0 < (refusedAt call).managers.size := Nat.zero_lt_one
  have drawn : Returned 0 (refusedAt 1) _ _ _ := exists_returned rfl (.ok ())
  have undrawn : Returned 0 (refusedAt 0) _ _ _ := exists_returned rfl (.ok ())
  have unclocked : Returned 0 (refusedAt 1) _ _ _ := exists_returned rfl (.error fault)
  have listed : (again.tasks? 0).isSome = true := by decide +kernel
  obtain ⟨l, hl⟩ := Option.isSome_iff_exists.mp listed
  have ran := ((Later.start (w := 0)).add failingTask).run (exists_returned hl (.ok ()))
  have closes := returned_closesOwn (possible_refusedAt 1) rfl rfl (there 1) drawn
  have leaves := returned_closesOwn (possible_refusedAt 0) rfl rfl (there 0) undrawn
  have stops := returned_closesOwn (possible_refusedAt 1) rfl rfl (there 1) unclocked
  obtain ⟨hclosed, hentries⟩ := closes.1 (by decide +kernel)
  obtain ⟨-, hresult, hleft⟩ := leaves.2 (.output ⟨.brokenPipe, "gone"⟩) (by decide +kernel)
  obtain ⟨hopen, -, hregistered⟩ := hleft _ ran
  obtain ⟨-, hrefused, hstopped⟩ := stops.2 (.output fault) (by decide +kernel)
  exact ⟨possible_refusedAt 1, there 1, by decide +kernel, hclosed, hentries 0, hresult, hopen,
    hregistered nofun, hrefused, (hstopped _ .start).1⟩

/-- The list that was not drawn leaves its canvas in the register, and so does its next run, which
succeeds. -/
theorem runTasks_leavesOwn :
    let ran := (refusedAt 0).runTasks 0
    let ranAgain := ran.2.runTasks 0
    (refusedAt 0).registered 0 = 0 ∧
    ran.1 = .error (.output ⟨.brokenPipe, "gone"⟩) ∧
    ran.2.isClosed 0 = false ∧ ran.2.registered 0 = 1 ∧
    ranAgain.1 = .ok () ∧
    ranAgain.2.isClosed 0 = false ∧ ranAgain.2.registered 0 = 1 := by
  decide +kernel

end Scene

end Inlay
