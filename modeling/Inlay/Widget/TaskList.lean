import Inlay.Token
import Inlay.Widget.Slot

namespace Inlay

inductive TaskState where
  | pending
  | running
  | skipped
  | warning
  | error
  | success
deriving DecidableEq, Repr

/-- How an action ends: in a state, or with a failure that is shown in a state. -/
inductive TaskOutcome where
  | done (state : TaskState)
  | failed (state : TaskState) (message : Text)
deriving DecidableEq, Repr

inductive TaskStep where
  | progress (text : Text)
  | note (text : Text)
  /-- Asks a canvas for an update and notes what came of it. -/
  | update (canvas : CanvasRef)
  /-- Runs long enough for the list to be redrawn some times. -/
  | redraws (count : Nat)
deriving DecidableEq, Repr

structure TaskAction where
  steps : List TaskStep := []
  outcome : TaskOutcome
deriving DecidableEq, Repr

structure TaskRecord where
  title : Text
  state : TaskState := .pending
  error : Option Text := none
  progress : Text := []
  started : Option Instant := none
  ended : Option Instant := none
deriving DecidableEq, Repr

/-- The leading words of a row in each state. -/
structure TaskLabels where
  success : Text := "(✔) Done"
  error : Text := "(x) Error"
  warning : Text := "(!) Warning"
  running : Text := "(-) Running"
  skipped : Text := "(-) Skipped"
  pending : Text := "(o) Pending"
deriving DecidableEq, Repr

/-- An action that waits for the next run, with the number of its record. -/
structure QueuedTask where
  index : Nat
  concurrent : Bool
  action : TaskAction
deriving DecidableEq, Repr

structure TaskList where
  records : List TaskRecord := []
  queue : List QueuedTask := []
  /-- Run the tasks after a failure instead of skipping them. -/
  continueOnError : Bool := false
  maxConcurrent : Nat := 5
  labels : TaskLabels := {}
  slot : Slot

namespace TaskRecord

def start (r : TaskRecord) (now : Instant) : TaskRecord :=
  { r with state := .running, started := some now }

def finish (r : TaskRecord) (now : Instant) : TaskOutcome → TaskRecord
  | .done state => { r with ended := some now, state := state }
  | .failed state message =>
      { r with ended := some now, state := state, error := some message }

def skip (r : TaskRecord) : TaskRecord := { r with state := .skipped }

def failure? (r : TaskRecord) : Option TaskFailure := r.error.map fun message => ⟨r.title, message⟩

def hasFailed (r : TaskRecord) : Bool := r.error.isSome

/-- Finished tasks are shown first, then the running and then the pending ones. -/
def rank (r : TaskRecord) : Nat :=
  match r.state with
  | .running => 1
  | .pending => 2
  | _ => 0

def elapsed (r : TaskRecord) (style : Style) (now : Instant) : Text :=
  match r.started with
  | none => []
  | some started =>
      let d : Duration := ⟨r.ended.getD now - started⟩
      style.gray ("(" ++ d.spelled ++ ")")

def complaint (r : TaskRecord) (style : Style) : Text :=
  match r.error with
  | some message => style.error ("(" ++ message ++ ")")
  | none => []

def parts (r : TaskRecord) (labels : TaskLabels) (style : Style) (now : Instant) : List Text :=
  let elapsed := r.elapsed style now
  let complaint := r.complaint style
  match r.state with
  | .pending => [style.gray labels.pending, r.title]
  | .running =>
      let title := if r.progress.isEmpty then r.title else r.title ++ " (" ++ r.progress ++ ")"
      [style.highlight labels.running, title, elapsed]
  | .warning => [style.warning labels.warning, r.title, elapsed, complaint]
  | .error => [style.error labels.error, r.title, elapsed, complaint]
  | .success => [style.success labels.success, r.title, elapsed]
  | .skipped => [style.gray labels.skipped, r.title, complaint]

/-- A row: the parts that are not empty, with blanks between them. -/
def row (r : TaskRecord) (labels : TaskLabels) (style : Style) (now : Instant) : Text :=
  Text.join " " ((r.parts labels style now).filter fun part => !part.isEmpty)

end TaskRecord

namespace TaskList

def states (l : TaskList) : List TaskState := l.records.map TaskRecord.state

def add (l : TaskList) (title : Text) (concurrent : Bool) (action : TaskAction) : TaskList :=
  { l with
    records := l.records ++ [{ title := title }]
    queue := l.queue ++ [⟨l.records.length, concurrent, action⟩] }

def modifyRecord (l : TaskList) (index : Nat) (f : TaskRecord → TaskRecord) : TaskList :=
  { l with records := l.records.modify index f }

def setProgress (l : TaskList) (index : Nat) (text : Text) : TaskList :=
  l.modifyRecord index fun r => { r with progress := text }

def hasFailures (l : TaskList) : Bool := l.records.any TaskRecord.hasFailed

def failures (l : TaskList) : List TaskFailure := l.records.filterMap TaskRecord.failure?

def ordered (l : TaskList) : List TaskRecord :=
  [0, 1, 2].flatMap fun rank => l.records.filter fun r => r.rank = rank

def painting (l : TaskList) (now : Instant) (style : Style) : Painting :=
  .printLine [] :: (l.ordered.map fun r => .printLine (r.row l.labels style now)) ++
    [.printLine []]

def workers (l : TaskList) (tasks : Nat) : Nat := min (max l.maxConcurrent 1) tasks

end TaskList

end Inlay
