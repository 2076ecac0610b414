import Inlay.Proofs.Tasks.Crew
import Mathlib.Data.List.Perm.Basic
/-!
The ledger of a crew: how far each task has come. Every step leaves the ledger as it was, but for
the order, or moves one task on by one point; the record of the task and the history of calls
follow. So the ledger covers all tasks at any time, and the records can be read off it.
-/

namespace Inlay

/-- How far a task has come. -/
inductive Point where
  | waiting
  | begun
  | acting
  | ended
  | executed
  | skipped
deriving DecidableEq, Repr

namespace Point

def status (task : QueuedTask) : Point → TaskStatus
  | waiting => (.pending, none)
  | begun | acting | ended => (.running, none)
  | executed => task.action.outcome.status
  | skipped => (.skipped, none)

def calls : Point → Nat
  | acting | ended | executed => 1
  | waiting | begun | skipped => 0

def returns : Point → Nat
  | ended | executed => 1
  | waiting | begun | acting | skipped => 0

/-- What is done by going on to a point. -/
def deeds (index : Nat) : Point → List Deed
  | acting => [.called index]
  | ended => [.returned index]
  | waiting | begun | executed | skipped => []

inductive Next : Point → Point → Prop
  | skip : Next waiting skipped
  | start : Next waiting begun
  | call : Next begun acting
  | complete : Next acting ended
  | finish : Next ended executed

variable {p p' : Point} (index : Nat)

theorem Next.count_called (h : p.Next p') :
    p.calls + (p'.deeds index).count (.called index) = p'.calls := by
  cases h <;> simp [calls, deeds]

theorem Next.count_returned (h : p.Next p') :
    p.returns + (p'.deeds index).count (.returned index) = p'.returns := by
  cases h <;> simp [returns, deeds]

theorem index_of_mem_deeds {deed : Deed} (h : deed ∈ p.deeds index) : deed.index = index := by
  cases p with
  | acting | ended => rw [List.mem_singleton.mp h]; rfl
  | waiting | begun | executed | skipped => cases h

end Point

def Fate.point : Fate → Point
  | executed => .executed
  | skipped => .skipped

abbrev Entry := QueuedTask × Point

def Stage.entry? : Stage → Option Entry
  | free | gone => none
  | taken task => some (task, .waiting)
  | begun task => some (task, .begun)
  | acting task _ _ => some (task, .acting)
  | ended task => some (task, .ended)

namespace Crew

variable {w : Nat} {c : CanvasRef} {σ σ' : Crew}

def stages (σ : Crew) : List Stage := σ.main :: σ.workers

def held (σ : Crew) : List Entry := σ.stages.filterMap Stage.entry?

def settled (σ : Crew) : List Entry := σ.through.map fun task => (task.1, task.2.point)

/-- The tasks that nobody has taken, those that the threads are at and those that are through. -/
def ledger (σ : Crew) : List Entry :=
  (σ.queue ++ σ.inOrder).map (·, .waiting) ++ σ.held ++ σ.settled

theorem settled_of_through {task : QueuedTask} {fate : Fate}
    (h : σ'.through = σ.through ++ [(task, fate)]) :
    σ'.settled = σ.settled ++ [(task, fate.point)] := by
  rw [settled, h, List.map_append]
  rfl

section

variable (σ) (stage : Stage) (thread : CrewThread)

@[simp] theorem queue_withStage : (σ.withStage stage thread).queue = σ.queue := by
  cases thread <;> rfl

@[simp] theorem inOrder_withStage : (σ.withStage stage thread).inOrder = σ.inOrder := by
  cases thread <;> rfl

@[simp] theorem through_withStage : (σ.withStage stage thread).through = σ.through := by
  cases thread <;> rfl

@[simp] theorem settled_withStage : (σ.withStage stage thread).settled = σ.settled := by
  cases thread <;> rfl

@[simp] theorem history_withStage : (σ.withStage stage thread).history = σ.history := by
  cases thread <;> rfl

end

/-- A thread's stage among those of the others, whatever else of the crew has changed. -/
theorem stages_withStage {stage : Stage} {thread : CrewThread}
    (h : σ.stage? thread = some stage) : ∃ others, σ.stages.Perm (stage :: others) ∧
      ∀ σ' : Crew, σ'.main = σ.main → σ'.workers = σ.workers →
        ∀ stage', (σ'.withStage stage' thread).stages.Perm (stage' :: others) := by
  cases thread with
  | main =>
      obtain rfl := Option.some.inj h
      refine ⟨σ.workers, .refl _, ?_⟩
      intro σ' _ hworkers stage'
      rw [← hworkers]
      exact .refl _
  | worker number =>
      obtain ⟨hlt, hstage⟩ := List.getElem?_eq_some_iff.mp h
      refine ⟨σ.main :: σ.workers.eraseIdx number, ?_, ?_⟩
      · have hworkers := (List.getElem_cons_eraseIdx_perm hlt).symm
        rw [hstage] at hworkers
        exact (hworkers.cons σ.main).trans (.swap _ _ _)
      · intro σ' hmain hworkers stage'
        have hset := List.set_perm_cons_eraseIdx (l := σ.workers) hlt stage'
        change (σ'.main :: σ'.workers.set number stage').Perm _
        rw [hmain, hworkers]
        exact (hset.cons σ.main).trans (.swap _ _ _)

theorem held_withStage {stage : Stage} {thread : CrewThread} (h : σ.stage? thread = some stage) :
    ∃ others, σ.held.Perm (stage.entry?.toList ++ others) ∧
      ∀ σ' : Crew, σ'.main = σ.main → σ'.workers = σ.workers →
        ∀ stage', (σ'.withStage stage' thread).held.Perm (stage'.entry?.toList ++ others) := by
  have hentries (stage : Stage) (others : List Stage) :
      (stage :: others).filterMap Stage.entry? =
        stage.entry?.toList ++ others.filterMap Stage.entry? := by
    cases hentry : stage.entry? <;> simp [hentry]
  obtain ⟨others, hstages, hstages'⟩ := stages_withStage h
  refine ⟨others.filterMap Stage.entry?, ?_, ?_⟩
  · rw [← hentries]
    exact hstages.filterMap _
  · intro σ' hmain hworkers stage'
    rw [← hentries]
    exact (hstages' σ' hmain hworkers stage').filterMap _

/-- The record of a task goes from one status to another; the other records keep theirs. -/
structure RecordMoves (w : Nat) (c : CanvasRef) (task : QueuedTask) (p p' : Point)
    (s s' : Scene) : Prop where
  tasks : ∀ l, s.tasks? w = some l → l.status? task.index = some (p.status task) →
    ∃ l', s'.tasks? w = some l' ∧ l' = { l with records := l'.records } ∧ l'.titles = l.titles ∧
      l'.status? task.index = some (p'.status task) ∧
      ∀ i, i ≠ task.index → l'.status? i = l.status? i
  reliable : s.Reliable c → s'.Reliable c

theorem recordMoves_modifyRecord {task : QueuedTask} {p p' : Point} (σ : Crew)
    {f : TaskRecord → TaskRecord} (htitle : ∀ r, (f r).title = r.title)
    (hstatus : ∀ r, r.status = p.status task → (f r).status = p'.status task) :
    RecordMoves w c task p p' σ.scene (σ.modifyRecord w task f).scene := by
  refine ⟨fun l hl hbefore => ?_, fun h => h.modifyTasks w _⟩
  refine ⟨_, Scene.tasks?_modifyTasks hl _, rfl, l.titles_modifyRecord _ htitle,
    TaskList.status?_modifyRecord hbefore hstatus, fun i hi => ?_⟩
  exact l.status?_modifyRecord_of_ne hi f

theorem recordMoves_refl {task : QueuedTask} {p p' : Point} (h : p.status task = p'.status task)
    (s : Scene) : RecordMoves w c task p p' s s :=
  ⟨fun l hl hbefore => ⟨l, hl, rfl, rfl, h ▸ hbefore, fun _ _ => rfl⟩, id⟩

/-- One task comes one point further. -/
structure Shift (w : Nat) (c : CanvasRef) (σ σ' : Crew) (task : QueuedTask) (p p' : Point) :
    Prop where
  next : p.Next p'
  ledger : ∃ others, σ.ledger.Perm ((task, p) :: others) ∧ σ'.ledger.Perm ((task, p') :: others)
  history : σ'.history = σ.history ++ p'.deeds task.index
  scene : RecordMoves w c task p p' σ.scene σ'.scene

/-- No task comes further. -/
structure Still (w : Nat) (c : CanvasRef) (σ σ' : Crew) : Prop where
  ledger : σ'.ledger.Perm σ.ledger
  history : σ'.history = σ.history
  scene : Scene.TasksKept w c σ.scene σ'.scene

theorem perm_insert {α : Type} {a : α} {parts others : List α} (before after : List α)
    (h : parts.Perm (a :: others)) :
    (before ++ parts ++ after).Perm (a :: (before ++ others ++ after)) := by
  refine ((h.append_left before).append_right after).trans ?_
  rw [List.append_assoc, List.append_assoc, List.cons_append]
  exact List.perm_middle

/-- A thread goes on in the middle of a task. -/
theorem ledger_withStage {thread : CrewThread} {stage stage' : Stage} {e e' : Entry}
    (h : σ.stage? thread = some stage) (he : stage.entry? = some e)
    (he' : stage'.entry? = some e') (hmain : σ'.main = σ.main)
    (hworkers : σ'.workers = σ.workers) (hqueue : σ'.queue = σ.queue)
    (hinOrder : σ'.inOrder = σ.inOrder) (hsettled : σ'.settled = σ.settled) :
    ∃ others, σ.ledger.Perm (e :: others) ∧
      (σ'.withStage stage' thread).ledger.Perm (e' :: others) := by
  obtain ⟨others, hheld, hheld'⟩ := held_withStage h
  have hheld'' := hheld' σ' hmain hworkers stage'
  rw [he] at hheld
  rw [he'] at hheld''
  refine ⟨_, perm_insert _ _ hheld, ?_⟩
  unfold ledger
  rw [queue_withStage, inOrder_withStage, settled_withStage, hqueue, hinOrder, hsettled]
  exact perm_insert _ _ hheld''

/-- A thread goes on without coming further in a task. -/
theorem ledger_withStage_of_eq {thread : CrewThread} {stage stage' : Stage}
    (h : σ.stage? thread = some stage) (he : stage'.entry? = stage.entry?)
    (hmain : σ'.main = σ.main) (hworkers : σ'.workers = σ.workers) (hqueue : σ'.queue = σ.queue)
    (hinOrder : σ'.inOrder = σ.inOrder) (hsettled : σ'.settled = σ.settled) :
    (σ'.withStage stage' thread).ledger.Perm σ.ledger := by
  obtain ⟨others, hheld, hheld'⟩ := held_withStage h
  have hheld'' := hheld' σ' hmain hworkers stage'
  rw [he] at hheld''
  unfold ledger
  rw [queue_withStage, inOrder_withStage, settled_withStage, hqueue, hinOrder, hsettled]
  exact ((hheld''.trans hheld.symm).append_left _).append_right _

/-- A free thread takes a task that waits. -/
theorem ledger_taken {thread : CrewThread} {task : QueuedTask} (h : σ.stage? thread = some .free)
    (hmain : σ'.main = σ.main) (hworkers : σ'.workers = σ.workers)
    (hwaiting : (σ.queue ++ σ.inOrder).Perm (task :: (σ'.queue ++ σ'.inOrder)))
    (hsettled : σ'.settled = σ.settled) :
    (σ'.withStage (.taken task) thread).ledger.Perm σ.ledger := by
  obtain ⟨others, hheld, hheld'⟩ := held_withStage h
  have hheld'' := hheld' σ' hmain hworkers (.taken task)
  unfold ledger
  rw [queue_withStage, inOrder_withStage, settled_withStage, hsettled]
  refine (perm_insert _ _ hheld'').trans ?_
  exact (((hwaiting.map (·, Point.waiting)).append hheld).symm).append_right _

/-- A thread comes to the end of a task. -/
theorem ledger_ended {thread : CrewThread} {stage : Stage} {e : Entry} (task : QueuedTask)
    (fate : Fate) (h : σ.stage? thread = some stage) (he : stage.entry? = some e)
    (hmain : σ'.main = σ.main) (hworkers : σ'.workers = σ.workers) (hqueue : σ'.queue = σ.queue)
    (hinOrder : σ'.inOrder = σ.inOrder) (hthrough : σ'.through = σ.through ++ [(task, fate)]) :
    ∃ others, σ.ledger.Perm (e :: others) ∧
      (σ'.withStage .free thread).ledger.Perm ((task, fate.point) :: others) := by
  obtain ⟨others, hheld, hheld'⟩ := held_withStage h
  have hheld'' := hheld' σ' hmain hworkers .free
  rw [he] at hheld
  refine ⟨_, perm_insert _ _ hheld, ?_⟩
  unfold ledger
  rw [queue_withStage, inOrder_withStage, settled_withStage, hqueue, hinOrder,
    settled_of_through hthrough, ← List.append_assoc]
  refine (List.perm_append_singleton _ _).trans (.cons _ ?_)
  exact (hheld''.append_left _).append_right _

/-- A task that waits is passed over. -/
theorem ledger_skipped {task : QueuedTask} (hheld : σ'.held = σ.held)
    (hwaiting : (σ.queue ++ σ.inOrder).Perm (task :: (σ'.queue ++ σ'.inOrder)))
    (hthrough : σ'.through = σ.through ++ [(task, .skipped)]) :
    ∃ others, σ.ledger.Perm ((task, .waiting) :: others) ∧
      σ'.ledger.Perm ((task, .skipped) :: others) := by
  unfold ledger
  rw [hheld, settled_of_through hthrough, ← List.append_assoc]
  refine ⟨_, ?_, List.perm_append_singleton _ _⟩
  exact ((hwaiting.map (·, Point.waiting)).append_right σ.held).append_right _

theorem shift_or_still (h : Step w c σ σ') :
    Still w c σ σ' ∨ ∃ task p p', Shift w c σ σ' task p p' := by
  cases h with
  | rest => exact Or.inl ⟨.refl _, rfl, .refl w c _⟩
  | aside kept => exact Or.inl ⟨.refl _, rfl, kept⟩
  | @leave number free none =>
      have hfree : σ.stage? (.worker number) = some .free := free
      refine Or.inl ⟨?_, history_withStage .., ?_⟩
      · exact ledger_withStage_of_eq hfree rfl rfl rfl rfl rfl rfl
      · rw [scene_withStage]
  | @take number task rest free next =>
      refine Or.inl ⟨?_, history_withStage .., ?_⟩
      · refine ledger_taken (σ := σ) free rfl rfl ?_ rfl
        rw [next]
        exact .refl _
      · rw [scene_withStage]
  | retire free joined none =>
      refine Or.inl ⟨?_, history_withStage .., ?_⟩
      · exact ledger_withStage_of_eq (congrArg some free) rfl rfl rfl rfl rfl rfl
      · rw [scene_withStage]
  | @skip task rest free joined next heeds =>
      refine Or.inr ⟨task, .waiting, .skipped, .skip, ?_, (List.append_nil _).symm, ?_⟩
      · refine ledger_skipped rfl ?_ rfl
        rw [next]
        exact List.perm_middle
      · refine recordMoves_modifyRecord σ (fun _ => rfl) fun r hr => ?_
        exact congrArg (Prod.mk TaskState.skipped) (congrArg Prod.snd hr)
  | @follow task rest free joined next heeds =>
      refine Or.inl ⟨?_, history_withStage .., ?_⟩
      · refine ledger_taken (σ := σ) (congrArg some free) rfl rfl ?_ rfl
        rw [next]
        exact List.perm_middle
      · rw [scene_withStage]
  | @start thread task taken =>
      refine Or.inr ⟨task, .waiting, .begun, .start, ?_, ?_, ?_⟩
      · exact ledger_withStage taken rfl rfl rfl rfl rfl rfl rfl
      · rw [history_withStage]
        exact (List.append_nil _).symm
      · rw [scene_withStage]
        refine recordMoves_modifyRecord σ (fun _ => rfl) fun r hr => ?_
        exact congrArg (Prod.mk TaskState.running) (congrArg Prod.snd hr)
  | @call thread task title begun =>
      have hstatus : Point.begun.status task = Point.acting.status task := rfl
      refine Or.inr ⟨task, .begun, .acting, .call, ?_, ?_, ?_⟩
      · exact ledger_withStage begun rfl rfl rfl rfl rfl rfl rfl
      · rw [history_withStage]
        rfl
      · rw [scene_withStage]
        exact recordMoves_refl hstatus σ.scene
  | @act thread task title step steps scene acting kept =>
      refine Or.inl ⟨?_, history_withStage .., ?_⟩
      · exact ledger_withStage_of_eq acting rfl rfl rfl rfl rfl rfl
      · rw [scene_withStage]
        exact kept
  | @complete thread task title acting =>
      have hstatus : Point.acting.status task = Point.ended.status task := rfl
      refine Or.inr ⟨task, .acting, .ended, .complete, ?_, ?_, ?_⟩
      · exact ledger_withStage acting rfl rfl rfl rfl rfl rfl rfl
      · rw [history_withStage]
        rfl
      · rw [scene_withStage]
        exact recordMoves_refl hstatus σ.scene
  | @finish thread task ended =>
      refine Or.inr ⟨task, .ended, .executed, .finish, ?_, ?_, ?_⟩
      · exact ledger_ended task .executed ended rfl rfl rfl rfl rfl rfl
      · rw [history_withStage]
        exact (List.append_nil _).symm
      · rw [scene_withStage]
        refine recordMoves_modifyRecord σ (fun r => ?_) fun r hr => ?_
        · cases task.action.outcome with
          | done state => rfl
          | failed state message => rfl
        · exact TaskRecord.status_finish (congrArg Prod.snd hr) _ _

end Crew

end Inlay
