import Inlay.Proofs.Tasks.Outcome
/-!
Runs of one list after each other. A list keeps the records of all its runs, so that a run reports
the failures of the runs before it again, and passes over tasks on account of them. It is
independent of the runs before exactly as far as none of their tasks has failed.
-/

namespace Inlay

/-- A task is added to a list, or the list is run, with the deeds of the run and its result. -/
inductive TaskCall where
  | add (task : NewTask)
  | run (history : List Deed) (result : Except Failure Unit)

/-- What calls of a list amount to: the tasks added, how many of them were there when the list was
run last, and the deeds of all runs. -/
structure TaskPast where
  tasks : List NewTask := []
  first : Nat := 0
  deeds : List Deed := []

namespace TaskPast

def after (p : TaskPast) : TaskCall → TaskPast
  | .add task => { p with tasks := p.tasks ++ [task] }
  | .run history _ => { p with first := p.tasks.length, deeds := p.deeds ++ history }

def ofCalls (calls : List TaskCall) : TaskPast := calls.foldl after {}

theorem ofCalls_append (calls : List TaskCall) (call : TaskCall) :
    ofCalls (calls ++ [call]) = (ofCalls calls).after call := by
  rw [ofCalls, List.foldl_append]
  rfl

end TaskPast

namespace Scene

variable {s s' : Scene} {w : Nat} {l : TaskList}

def addTask (s : Scene) (w : Nat) (task : NewTask) : Scene :=
  s.modifyTasks w fun l => l.add task.title task.concurrent task.action

/-- A whole run of the list of a widget under some order of sections. The clockwork and the workers
have got their threads. -/
def Ran (w : Nat) (s : Scene) (history : List Deed) (result : Except Failure Unit)
    (s' : Scene) : Prop :=
  ∃ l moves, s.tasks? w = some l ∧ (s.openTasks w l).drawn = .ok () ∧
    (s.crewAfter w l moves).isOver = true ∧ (s.crewAfter w l moves).history = history ∧
    s.conclude w l (s.crewAfter w l moves) = (result, s')

/-- One task at a time is one order of sections. -/
theorem ran_of_drawn (hl : s.tasks? w = some l) (hdrawn : (s.openTasks w l).drawn = .ok ()) :
    ∃ history, Ran w s history (s.runTasks w).1 (s.runTasks w).2 := by
  obtain ⟨moves, ended, hscene⟩ := Crew.exists_oneByOne w (s.openTasks w l).canvas
    (s.openTasks w l).scene l
  refine ⟨_, l, moves, hl, hdrawn, ended, rfl, ?_⟩
  rw [runTasks_eq hl hdrawn, ← hscene]
  rfl

theorem ran_runTasks (hl : s.tasks? w = some l) (reliable : s.ReliableSlot l.slot) :
    ∃ history, Ran w s history (s.runTasks w).1 (s.runTasks w).2 :=
  ran_of_drawn hl (openTasks_of_reliable hl reliable).1

/-- A sequence of calls of the list of a widget. -/
inductive TaskSession (w : Nat) (s : Scene) : List TaskCall → Scene → Prop
  | start : TaskSession w s [] s
  | add {calls : List TaskCall} {s' : Scene} (session : TaskSession w s calls s')
      (task : NewTask) : TaskSession w s (calls ++ [.add task]) (s'.addTask w task)
  | run {calls : List TaskCall} {s' s'' : Scene} {history : List Deed}
      {result : Except Failure Unit} (session : TaskSession w s calls s')
      (ran : Ran w s' history result s'') :
      TaskSession w s (calls ++ [.run history result]) s''

theorem reliableSlot_modifyTasks {slot : Slot} (h : s.ReliableSlot slot) (f : TaskList → TaskList) :
    (s.modifyTasks w f).ReliableSlot slot := by
  cases slot with
  | owned options => exact h
  | shared c => exact Reliable.modifyTasks h w f

/-- A list stands at any time of a session as its calls say. -/
theorem stands_session {calls : List TaskCall} (records : l.records = []) (queue : l.queue = [])
    (hl : s.tasks? w = some l) (reliable : s.ReliableSlot l.slot)
    (session : TaskSession w s calls s') : ∃ l', s'.tasks? w = some l' ∧
      s'.ReliableSlot l'.slot ∧ l'.continueOnError = l.continueOnError ∧
      l'.Stands (TaskPast.ofCalls calls).tasks (TaskPast.ofCalls calls).first
        (TaskPast.ofCalls calls).deeds := by
  induction session with
  | start => exact ⟨l, hl, reliable, rfl, TaskList.stands_fresh records queue⟩
  | add session task ih =>
      obtain ⟨l', hl', hreliable, hcontinues, stands⟩ := ih
      rw [TaskPast.ofCalls_append]
      refine ⟨_, tasks?_modifyTasks hl' _, ?_, hcontinues, stands.add task⟩
      exact reliableSlot_modifyTasks hreliable _
  | run session ran ih =>
      obtain ⟨l', hl', hreliable, hcontinues, stands⟩ := ih
      obtain ⟨l₁, moves, hl₁, -, ended, rfl, hconclude⟩ := ran
      obtain rfl := Option.some.inj (hl₁.symm.trans hl')
      obtain ⟨l'', hl'', hreliable', hcontinues', stands', -⟩ :=
        concluded_crewAfter stands hl' hreliable ended
      rw [hconclude] at hl'' hreliable'
      rw [TaskPast.ofCalls_append]
      exact ⟨l'', hl'', hreliable', hcontinues'.trans hcontinues, stands'⟩

end Scene

/-- What a run comes to that looks at its own tasks only. -/
structure Independent (tasks : List NewTask) (continues : Bool) (first : Nat)
    (history : List Deed) (result : Except Failure Unit) : Prop where
  skipped : ∀ i task, first ≤ i → tasks[i]? = some task → task.concurrent = false →
    .called i ∉ history → continues = false ∧ ∃ j other, first ≤ j ∧ tasks[j]? = some other ∧
      other.fails = true ∧ .called j ∈ history ∧ (other.concurrent = true ∨ j < i)
  result : result = reported (failuresIn tasks history)

/-- A run is independent of those before it if none of their tasks has failed. -/
theorem Concluded.independent {tasks : List NewTask} {continues : Bool} {first : Nat}
    {past history : List Deed} {result : Except Failure Unit} {l : TaskList}
    (h : Concluded tasks continues first past history result l)
    (succeeded : ∀ i task, tasks[i]? = some task → task.fails = true → .called i ∉ past) :
    Independent tasks continues first history result := by
  constructor
  case skipped =>
    intro i task hi htask hinOrder hskipped
    obtain ⟨hcontinues, j, other, hother, hfails, hcalled, hcause⟩ :=
      (h.skipped i task hi htask hinOrder).mp hskipped
    have hcalled' := (List.mem_append.mp hcalled).resolve_left (succeeded j other hother hfails)
    exact ⟨hcontinues, j, other, h.own _ hcalled', hother, hfails, hcalled', hcause⟩
  case result =>
    have hfailures : failuresIn tasks (past ++ history) = failuresIn tasks history := by
      refine List.filterMap_congr fun e he => ?_
      have htask : tasks[e.2]? = some e.1 := List.mem_zipIdx_iff_getElem?.mp he
      cases hfails : e.1.fails with
      | true => simp only [List.mem_append, succeeded e.2 e.1 htask hfails, false_or]
      | false => rw [NewTask.failure?_eq_none hfails, ite_self, ite_self]
    rw [h.result, hfailures]

namespace Scene

variable {s s' : Scene} {w : Nat} {l : TaskList}

/-- Whatever was added and run before, a list can be run again, and a run comes to what the deeds of
all runs so far call for. If no task of an earlier run failed, that is what its own deeds call
for. It is taken that threads can be made, for every run. -/
theorem runs_accumulate {calls : List TaskCall} (records : l.records = []) (queue : l.queue = [])
    (hl : s.tasks? w = some l) (reliable : s.ReliableSlot l.slot)
    (session : TaskSession w s calls s') :
    (∃ history, Ran w s' history (s'.runTasks w).1 (s'.runTasks w).2) ∧
      ∀ history result s'', Ran w s' history result s'' →
        (∃ l', s''.tasks? w = some l' ∧ Concluded (TaskPast.ofCalls calls).tasks l.continueOnError
          (TaskPast.ofCalls calls).first (TaskPast.ofCalls calls).deeds history result l') ∧
        ((∀ i task, (TaskPast.ofCalls calls).tasks[i]? = some task → task.fails = true →
            .called i ∉ (TaskPast.ofCalls calls).deeds) →
          Independent (TaskPast.ofCalls calls).tasks l.continueOnError
            (TaskPast.ofCalls calls).first history result) := by
  obtain ⟨l', hl', hreliable, hcontinues, stands⟩ :=
    stands_session records queue hl reliable session
  refine ⟨ran_runTasks hl' hreliable, fun history result s'' ran => ?_⟩
  obtain ⟨l₁, moves, hl₁, -, ended, rfl, hconclude⟩ := ran
  obtain rfl := Option.some.inj (hl₁.symm.trans hl')
  obtain ⟨l'', hl'', -, -, -, settled⟩ := concluded_crewAfter stands hl' hreliable ended
  rw [hconclude] at hl'' settled
  rw [hcontinues] at settled
  exact ⟨⟨l'', hl'', settled⟩, settled.independent⟩

def failingTask : NewTask :=
  { title := "Build", action := { outcome := .failed .error "no space" } }

def fineTask : NewTask := { title := "Deploy", action := { outcome := .done .success } }

def freshScene : Scene := { widgets := #[.tasks { slot := .owned {} }] }

/-- The first run fails on its task, and the second, of a task that would not fail, reports the
failure again and passes over the task. -/
theorem runTasks_repeatsFailure :
    let ran := (freshScene.addTask 0 failingTask).runTasks 0
    let ranAgain := (ran.2.addTask 0 fineTask).runTasks 0
    ran.1 = .error (.tasks [⟨"Build", "no space"⟩]) ∧
    ranAgain.1 = .error (.tasks [⟨"Build", "no space"⟩]) ∧
    (ranAgain.2.tasks? 0).map TaskList.states = some [.error, .skipped] ∧
    ¬∃ history : List Deed, (∀ deed ∈ history, 1 ≤ deed.index) ∧
      Independent [failingTask, fineTask] false 1 history ranAgain.1 := by
  intro ran ranAgain
  have hagain : ranAgain.1 = .error (.tasks [⟨"Build", "no space"⟩]) := by decide +kernel
  refine ⟨by decide +kernel, hagain, by decide +kernel, ?_⟩
  rintro ⟨history, own, independent⟩
  have hresult := independent.result
  have hfirst : .called 0 ∉ history := fun hmem => absurd (own _ hmem) (Nat.lt_irrefl 0)
  have hnone : failuresIn [failingTask, fineTask] history = [] := by
    simp [failuresIn, hfirst, failingTask, fineTask, NewTask.failure?]
  rw [hagain, hnone] at hresult
  cases hresult

/-- The main thread takes a task, executes it and leaves. -/
def leaderMoves : List Crew.Move := List.replicate 6 (.advance .main)

/-- The run of the failing task. -/
def failedRun : Except Failure Unit × Scene :=
  (freshScene.addTask 0 failingTask).conclude 0
    (TaskList.addAll { slot := .owned {} } [failingTask])
    ((freshScene.addTask 0 failingTask).crewAfter 0
      (TaskList.addAll { slot := .owned {} } [failingTask]) leaderMoves)

theorem ran_failedRun : Ran 0 (freshScene.addTask 0 failingTask) [.called 0, .returned 0]
    failedRun.1 failedRun.2 :=
  ⟨_, leaderMoves, rfl, by decide +kernel, by decide +kernel, by decide +kernel, rfl⟩

theorem runs_accumulate_failedRun :
    let l : TaskList := { slot := .owned {} }
    let s := failedRun.2.addTask 0 fineTask
    let calls := [.add failingTask, .run [.called 0, .returned 0] failedRun.1, .add fineTask]
    (l.records = [] ∧ l.queue = [] ∧ freshScene.tasks? 0 = some l ∧
      freshScene.ReliableSlot l.slot ∧ TaskSession 0 freshScene calls s) ∧
    ∃ history, Ran 0 s history (s.runTasks 0).1 (s.runTasks 0).2 ∧
      ∃ l', (s.runTasks 0).2.tasks? 0 = some l' ∧
        Concluded [failingTask, fineTask] false 1 [.called 0, .returned 0] history
          (s.runTasks 0).1 l' := by
  have session := ((TaskSession.start.add failingTask).run ran_failedRun).add fineTask
  have fresh : freshScene.ReliableSlot (.owned {}) := Sink.Behavior.willing_faultless
  obtain ⟨⟨history, again⟩, accumulate⟩ := runs_accumulate rfl rfl rfl fresh session
  obtain ⟨settled, -⟩ := accumulate history _ _ again
  exact ⟨⟨rfl, rfl, rfl, fresh, session⟩, history, again, settled⟩

end Scene

end Inlay
