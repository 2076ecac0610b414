import Inlay.Proofs.Tasks.Records
/-!
The crew that runs the tasks of a list: workers that take the concurrent tasks from one queue, and
the thread that started them, which waits for all of them to leave and then follows the other tasks
one by one. A task is executed in sections, between which every other thread may make its own, and
meanwhile the list is redrawn and time passes.
-/

namespace Inlay

inductive CrewThread where
  | main
  | worker (number : Nat)
deriving DecidableEq, Repr

/-- Where a thread of a crew is: between two tasks, in the middle of one, or gone. -/
inductive Stage where
  | free
  | taken (task : QueuedTask)
  | begun (task : QueuedTask)
  /-- In the action, with the steps that are left. -/
  | acting (task : QueuedTask) (title : Text) (steps : List TaskStep)
  | ended (task : QueuedTask)
  | gone
deriving DecidableEq, Repr

/-- An action is called, or it returns. -/
inductive Deed where
  | called (index : Nat)
  | returned (index : Nat)
deriving DecidableEq, Repr

namespace Deed

def index : Deed → Nat
  | called index | returned index => index

def isCall : Deed → Bool
  | called _ => true
  | returned _ => false

def isReturn (deed : Deed) : Bool := !deed.isCall

end Deed

/-- What became of a task. -/
inductive Fate where
  | executed
  | skipped
deriving DecidableEq, Repr

structure Crew where
  scene : Scene
  /-- Concurrent tasks that no worker has taken yet. -/
  queue : List QueuedTask
  /-- The other tasks that are still to follow. -/
  inOrder : List QueuedTask
  main : Stage := .free
  workers : List Stage
  /-- The tasks that are through. The program keeps their number only. -/
  through : List (QueuedTask × Fate) := []
  history : List Deed := []

namespace Scene

def titleOf (s : Scene) (w : Nat) (index : Nat) : Text :=
  ((s.tasks? w).bind fun l => (l.records[index]?).map TaskRecord.title).getD []

/-- The first drawing of a run, with the canvas that was found or made for it, and the scene after
it with the queue taken. -/
structure Opening where
  drawn : Except Failure Unit
  canvas : CanvasRef
  owned : Bool
  scene : Scene

/-- Opens a run as far as its tasks need no thread. -/
def openTasks (s : Scene) (w : Nat) (l : TaskList) : Opening :=
  let ((c, owned), s) := s.resolve w l.slot
  let (drawn, s) := s.run c
  ⟨drawn, c, owned, s.modifyTasks w fun l => { l with queue := [] }⟩

/-- What a run needs before its tasks: the first frame is drawn, and a thread can be made for the
clockwork. -/
def Opening.ready (o : Opening) (thread : Except Fault Unit) : Except Failure Unit :=
  o.drawn.bind fun _ => asOutput thread

/-- What a run does after the last task, and its result. -/
def closeTasks (s : Scene) (w : Nat) (c : CanvasRef) (owned : Bool) :
    Except Failure Unit × Scene :=
  let (drawn, s) := s.update c
  let s := if owned then s.close c else s
  match drawn with
  | .error failure => (.error failure, s)
  | .ok () =>
      match ((s.tasks? w).map TaskList.failures).getD [] with
      | [] => (.ok (), s)
      | failures => (.error (.tasks failures), s)

theorem closeTasks_snd (s : Scene) (w : Nat) (c : CanvasRef) (owned : Bool) :
    (s.closeTasks w c owned).2 = if owned then (s.update c).2.close c else (s.update c).2 := by
  unfold closeTasks
  dsimp only
  split
  · rfl
  · split
    · rfl
    · rfl

/-- A run that is drawn and gets a thread for its clockwork is the drawing, the tasks in order and
the end. -/
theorem runTasks_eq {s : Scene} {w : Nat} {l : TaskList} (hl : s.tasks? w = some l)
    (hdrawn : (s.openTasks w l).drawn = .ok ()) :
    s.runTasks w = ((s.openTasks w l).scene.executeQueue w (s.openTasks w l).canvas
      l.queue).closeTasks w (s.openTasks w l).canvas (s.openTasks w l).owned := by
  unfold runTasks
  rw [hl]
  unfold openTasks at *
  dsimp only at *
  split
  · rename_i failure s' hrun
    rw [hrun] at hdrawn
    cases hdrawn
  · rename_i s' hrun
    rw [hrun]
    rfl

end Scene

namespace Crew

def stage? (σ : Crew) : CrewThread → Option Stage
  | .main => some σ.main
  | .worker number => σ.workers[number]?

def withStage (σ : Crew) (stage : Stage) : CrewThread → Crew
  | .main => { σ with main := stage }
  | .worker number => { σ with workers := σ.workers.set number stage }

/-- Whether all workers have left. -/
def isJoined (σ : Crew) : Bool := σ.workers.all (· = .gone)

def isOver (σ : Crew) : Bool := σ.main = .gone

def modifyRecord (σ : Crew) (w : Nat) (task : QueuedTask) (f : TaskRecord → TaskRecord) : Crew :=
  { σ with scene := σ.scene.modifyTasks w (·.modifyRecord task.index f) }

def record (σ : Crew) (deed : Deed) : Crew := { σ with history := σ.history ++ [deed] }

def settle (σ : Crew) (task : QueuedTask) (fate : Fate) : Crew :=
  { σ with through := σ.through ++ [(task, fate)] }

def heedsFailure (σ : Crew) (w : Nat) : Bool :=
  (σ.scene.tasks? w).any fun l => !l.continueOnError && l.hasFailures

/-- A free thread looks for its next task. A worker leaves when the queue is empty; the main thread
waits until all workers have left. -/
def pick (σ : Crew) (w : Nat) : CrewThread → Crew
  | .worker number =>
      match σ.queue with
      | [] => σ.withStage .gone (.worker number)
      | task :: rest => { σ with queue := rest }.withStage (.taken task) (.worker number)
  | .main =>
      if σ.isJoined then
        match σ.inOrder with
        | [] => σ.withStage .gone .main
        | task :: rest =>
            if σ.heedsFailure w then
              ({ σ with inOrder := rest }.modifyRecord w task TaskRecord.skip).settle task .skipped
            else { σ with inOrder := rest }.withStage (.taken task) .main
      else σ

/-- The next section of a thread. -/
def advance (σ : Crew) (w : Nat) (c : CanvasRef) (thread : CrewThread) : Crew :=
  match σ.stage? thread with
  | none | some .gone => σ
  | some .free => σ.pick w thread
  | some (.taken task) =>
      (σ.modifyRecord w task (·.start σ.scene.watch.now)).withStage (.begun task) thread
  | some (.begun task) =>
      (σ.record (.called task.index)).withStage
        (.acting task (σ.scene.titleOf w task.index) task.action.steps) thread
  | some (.acting task title (step :: rest)) =>
      { σ with scene := σ.scene.taskStep w c task.index title step }.withStage
        (.acting task title rest) thread
  | some (.acting task _ []) => (σ.record (.returned task.index)).withStage (.ended task) thread
  | some (.ended task) =>
      ((σ.modifyRecord w task (·.finish σ.scene.watch.now task.action.outcome)).settle task
        .executed).withStage .free thread

/-- A thread makes a section, the clockwork redraws the list, or time passes. The clockwork may
do so at any time here. -/
inductive Move where
  | advance (thread : CrewThread)
  | redraw
  | elapse (nanos : Nat)

def move (σ : Crew) (w : Nat) (c : CanvasRef) : Move → Crew
  | .advance thread => σ.advance w c thread
  | .redraw => { σ with scene := (σ.scene.update c).2 }
  | .elapse nanos =>
      { σ with scene := { σ.scene with watch := σ.scene.watch.advance nanos } }

/-- The crew after moves in any order. -/
def after (σ : Crew) (w : Nat) (c : CanvasRef) (moves : List Move) : Crew :=
  moves.foldl (fun σ move => σ.move w c move) σ

/-- The crew for the tasks of a list. Each of its workers has got a thread. -/
def start (s : Scene) (l : TaskList) : Crew where
  scene := s
  queue := l.queue.filter QueuedTask.concurrent
  inOrder := l.queue.filter fun task => !task.concurrent
  workers := List.replicate (l.workers (l.queue.countP QueuedTask.concurrent)) .free

/-- What a move can do. -/
inductive Step (w : Nat) (c : CanvasRef) (σ : Crew) : Crew → Prop
  | rest : Step w c σ σ
  | aside {scene : Scene} (kept : Scene.TasksKept w c σ.scene scene) :
      Step w c σ { σ with scene := scene }
  | leave {number : Nat} (free : σ.workers[number]? = some .free) (none : σ.queue = []) :
      Step w c σ (σ.withStage .gone (.worker number))
  | take {number : Nat} {task : QueuedTask} {rest : List QueuedTask}
      (free : σ.workers[number]? = some .free) (next : σ.queue = task :: rest) :
      Step w c σ ({ σ with queue := rest }.withStage (.taken task) (.worker number))
  | retire (free : σ.main = .free) (joined : σ.isJoined = true) (none : σ.inOrder = []) :
      Step w c σ (σ.withStage .gone .main)
  | skip {task : QueuedTask} {rest : List QueuedTask} (free : σ.main = .free)
      (joined : σ.isJoined = true) (next : σ.inOrder = task :: rest)
      (heeds : σ.heedsFailure w = true) :
      Step w c σ
        (({ σ with inOrder := rest }.modifyRecord w task TaskRecord.skip).settle task .skipped)
  | follow {task : QueuedTask} {rest : List QueuedTask} (free : σ.main = .free)
      (joined : σ.isJoined = true) (next : σ.inOrder = task :: rest)
      (heeds : σ.heedsFailure w = false) :
      Step w c σ ({ σ with inOrder := rest }.withStage (.taken task) .main)
  | start {thread : CrewThread} {task : QueuedTask}
      (taken : σ.stage? thread = some (.taken task)) :
      Step w c σ
        ((σ.modifyRecord w task (·.start σ.scene.watch.now)).withStage (.begun task) thread)
  | call {thread : CrewThread} {task : QueuedTask} {title : Text}
      (begun : σ.stage? thread = some (.begun task)) :
      Step w c σ ((σ.record (.called task.index)).withStage
        (.acting task title task.action.steps) thread)
  | act {thread : CrewThread} {task : QueuedTask} {title : Text} {step : TaskStep}
      {steps : List TaskStep} {scene : Scene}
      (acting : σ.stage? thread = some (.acting task title (step :: steps)))
      (kept : Scene.TasksKept w c σ.scene scene) :
      Step w c σ ({ σ with scene := scene }.withStage (.acting task title steps) thread)
  | complete {thread : CrewThread} {task : QueuedTask} {title : Text}
      (acting : σ.stage? thread = some (.acting task title [])) :
      Step w c σ ((σ.record (.returned task.index)).withStage (.ended task) thread)
  | finish {thread : CrewThread} {task : QueuedTask}
      (ended : σ.stage? thread = some (.ended task)) :
      Step w c σ (((σ.modifyRecord w task
        (·.finish σ.scene.watch.now task.action.outcome)).settle task .executed).withStage .free
        thread)

variable {w : Nat} {c : CanvasRef}

theorem step_pick {σ : Crew} {thread : CrewThread} (free : σ.stage? thread = some .free) :
    Step w c σ (σ.pick w thread) := by
  cases thread with
  | worker number =>
      unfold pick
      dsimp only
      split
      · rename_i hqueue
        exact .leave free hqueue
      · rename_i task rest hqueue
        exact .take free hqueue
  | main =>
      rw [stage?, Option.some.injEq] at free
      unfold pick
      dsimp only
      split
      · rename_i joined
        split
        · rename_i hrest
          exact .retire free joined hrest
        · rename_i task rest hrest
          split
          · rename_i heeds
            exact .skip free joined hrest heeds
          · rename_i heeds
            exact .follow free joined hrest (Bool.eq_false_iff.mpr heeds)
      · exact .rest

theorem step_advance (σ : Crew) (thread : CrewThread) : Step w c σ (σ.advance w c thread) := by
  unfold advance
  split
  · exact .rest
  · exact .rest
  · rename_i free
    exact step_pick free
  · rename_i task taken
    exact .start taken
  · rename_i task begun
    exact .call begun
  · rename_i task title step steps acting
    exact .act acting (Scene.tasksKept_taskStep _ _ _ _)
  · rename_i task title acting
    exact .complete acting
  · rename_i task ended
    exact .finish ended

theorem step_move (σ : Crew) (move : Move) : Step w c σ (σ.move w c move) := by
  cases move with
  | advance thread => exact step_advance σ thread
  | redraw => exact .aside (Scene.tasksKept_update σ.scene c)
  | elapse nanos => exact .aside (Scene.tasksKept_elapse σ.scene nanos)

/-- What every step preserves holds after all moves. -/
theorem preserved_after {p : Crew → Prop} (step : ∀ σ σ', Step w c σ σ' → p σ → p σ') {σ : Crew}
    (h : p σ) (moves : List Move) : p (σ.after w c moves) := by
  induction moves generalizing σ with
  | nil => exact h
  | cons move moves ih => exact ih (step _ _ (step_move σ move) h)

@[simp] theorem scene_withStage (σ : Crew) (stage : Stage) (thread : CrewThread) :
    (σ.withStage stage thread).scene = σ.scene := by
  cases thread with
  | main => rfl
  | worker number => rfl

section

variable {R : Scene → Scene → Prop} (refl : ∀ s, R s s)
  (modified : ∀ s index f, R s (s.modifyTasks w (·.modifyRecord index f)))

include refl modified

theorem related_pick (σ : Crew) (thread : CrewThread) : R σ.scene (σ.pick w thread).scene := by
  unfold pick
  split
  · split
    · exact refl σ.scene
    · exact refl σ.scene
  · split
    · split
      · exact refl σ.scene
      · split
        · exact modified σ.scene _ _
        · exact refl σ.scene
    · exact refl σ.scene

variable (trans : ∀ {s s' s''}, R s s' → R s' s'' → R s s'')
  (updated : ∀ s c', R s (s.update c').2) (noted : ∀ (s : Scene) notes, R s (s.note notes))

include trans updated noted

theorem related_advance (σ : Crew) (thread : CrewThread) :
    R σ.scene (σ.advance w c thread).scene := by
  unfold advance
  split
  · exact refl σ.scene
  · exact refl σ.scene
  · exact related_pick refl modified σ thread
  · rw [scene_withStage]
    exact modified σ.scene _ _
  · rw [scene_withStage]
    exact refl σ.scene
  · rw [scene_withStage]
    exact Scene.related_taskStep refl trans updated noted (fun s _ _ => modified s _ _) _ _ _ _
  · rw [scene_withStage]
    exact refl σ.scene
  · rw [scene_withStage]
    exact modified σ.scene _ _

/-- What everything that a crew does to its scene agrees with, all moves agree with. -/
theorem related_after
    (elapsed : ∀ (s : Scene) nanos, R s { s with watch := s.watch.advance nanos }) (σ : Crew)
    (moves : List Move) : R σ.scene (σ.after w c moves).scene := by
  induction moves generalizing σ with
  | nil => exact refl σ.scene
  | cons move moves ih =>
      refine trans ?_ (ih (σ.move w c move))
      cases move with
      | advance thread => exact related_advance refl modified trans updated noted σ thread
      | redraw => exact updated σ.scene c
      | elapse nanos => exact elapsed σ.scene nanos

end

end Crew

end Inlay
