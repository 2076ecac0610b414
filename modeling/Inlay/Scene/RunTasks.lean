import Inlay.Scene

namespace Inlay.Scene

def tasks? (s : Scene) (w : Nat) : Option TaskList :=
  match s.widgets[w]? with
  | some (.tasks l) => some l
  | _ => none

def modifyTasks (s : Scene) (w : Nat) (f : TaskList → TaskList) : Scene :=
  match s.tasks? w with
  | some l => s.setWidget w (.tasks (f l))
  | none => s

def redraw (s : Scene) (c : CanvasRef) : Nat → Scene
  | 0 => s
  | n + 1 => (s.update c).2.redraw c n

/-- One step of an action of the task with number `index`, in a list drawn on `c`. -/
def taskStep (s : Scene) (w : Nat) (c : CanvasRef) (index : Nat) (title : Text) : TaskStep → Scene
  | .progress text => s.modifyTasks w (·.setProgress index text)
  | .note text => s.note [.task title text]
  | .update canvas =>
      let (result, s) := s.update canvas
      s.note [.update title result]
  | .redraws count => (s.redraw c count).note [.redrawn title]

def execute (s : Scene) (w : Nat) (c : CanvasRef) (task : QueuedTask) : Scene :=
  let s := s.modifyTasks w (·.modifyRecord task.index (·.start s.watch.now))
  let title := ((s.tasks? w).bind fun l => (l.records[task.index]?).map TaskRecord.title).getD []
  let s := task.action.steps.foldl (fun s step => s.taskStep w c task.index title step) s
  s.modifyTasks w (·.modifyRecord task.index (·.finish s.watch.now task.action.outcome))

/-- Runs tasks one by one. Each is skipped if an earlier one has failed and failures count. -/
def executeInOrder (s : Scene) (w : Nat) (c : CanvasRef) : List QueuedTask → Scene
  | [] => s
  | task :: rest =>
      let skips := (s.tasks? w).any fun l => !l.continueOnError && l.hasFailures
      let s :=
        if skips then s.modifyTasks w (·.modifyRecord task.index TaskRecord.skip)
        else s.execute w c task
      s.executeInOrder w c rest

/-- Runs the tasks of a queue: the concurrent ones first, then the others. -/
def executeQueue (s : Scene) (w : Nat) (c : CanvasRef) (queue : List QueuedTask) : Scene :=
  let s := (queue.filter QueuedTask.concurrent).foldl (fun s task => s.execute w c task) s
  s.executeInOrder w c (queue.filter fun task => !task.concurrent)

/-- Runs every task added since the last run and reports the failures of the list. `thread` is what
comes of making a thread for the clockwork that redraws the list. If that fails, so does the run,
and its tasks are gone. Threads for the workers can always be made: without one the program would
panic. -/
def runTasks (s : Scene) (w : Nat) (thread : Except Fault Unit := .ok ()) :
    Except Failure Unit × Scene :=
  match s.tasks? w with
  | none => (.ok (), s)
  | some l =>
      let ((c, owned), s) := s.resolve w l.slot
      match s.run c with
      | (.error failure, s) => (.error failure, s)
      | (.ok (), s) =>
          let s := s.modifyTasks w fun l => { l with queue := [] }
          match thread with
          | .error fault => (.error (.output fault), s)
          | .ok () =>
              let s := s.executeQueue w c l.queue
              let (drawn, s) := s.update c
              let s := if owned then s.close c else s
              match drawn with
              | .error failure => (.error failure, s)
              | .ok () =>
                  match ((s.tasks? w).map TaskList.failures).getD [] with
                  | [] => (.ok (), s)
                  | failures => (.error (.tasks failures), s)

end Inlay.Scene
