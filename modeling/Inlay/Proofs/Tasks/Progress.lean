import Inlay.Proofs.Tasks.Order
import Mathlib.Algebra.GroupWithZero.Nat

namespace Inlay

/-- The most sections that a thread still has to make for the task that it is at, with one for
the leaving. -/
def Stage.weight : Stage → Nat
  | free => 1
  | taken task => task.action.steps.length + 5
  | begun task => task.action.steps.length + 4
  | acting _ _ steps => steps.length + 3
  | ended _ => 2
  | gone => 0

namespace Crew

variable {w : Nat} {c : CanvasRef} {σ σ' : Crew}

/-- A bound for the sections until all threads are gone. -/
def weight (σ : Crew) : Nat :=
  ((σ.queue ++ σ.inOrder).map fun task => task.action.steps.length + 6).sum +
    (σ.stages.map Stage.weight).sum

theorem weight_withStage {thread : CrewThread} {stage stage' : Stage} (waiting : Nat)
    (h : σ.stage? thread = some stage) (hmain : σ'.main = σ.main)
    (hworkers : σ'.workers = σ.workers)
    (hwaiting : ((σ.queue ++ σ.inOrder).map fun task => task.action.steps.length + 6).sum =
      ((σ'.queue ++ σ'.inOrder).map fun task => task.action.steps.length + 6).sum + waiting)
    (hlt : stage'.weight < stage.weight + waiting) :
    (σ'.withStage stage' thread).weight < σ.weight := by
  obtain ⟨others, hstages, hstages'⟩ := stages_withStage h
  have hsum := (hstages.map Stage.weight).sum_nat
  have hsum' := ((hstages' σ' hmain hworkers stage').map Stage.weight).sum_nat
  rw [List.map_cons, List.sum_cons] at hsum hsum'
  unfold weight
  rw [queue_withStage, inOrder_withStage, hwaiting, hsum, hsum']
  omega

theorem weight_advance_lt {thread : CrewThread} {stage : Stage}
    (h : σ.stage? thread = some stage) (hgone : stage ≠ .gone)
    (hjoined : thread = .main → stage = .free → σ.isJoined = true) :
    (σ.advance w c thread).weight < σ.weight := by
  unfold advance
  rw [h]
  cases stage with
  | free =>
      cases thread with
      | worker number =>
          dsimp only [pick]
          split
          · exact weight_withStage 0 h rfl rfl (Nat.add_zero _).symm Nat.one_pos
          · rename_i task rest next
            refine weight_withStage (task.action.steps.length + 6) h rfl rfl ?_ ?_
            · rw [next, List.cons_append, List.map_cons, List.sum_cons]
              exact Nat.add_comm _ _
            · simp only [Stage.weight]
              omega
      | main =>
          dsimp only [pick]
          rw [if_pos (hjoined rfl rfl)]
          split
          · exact weight_withStage 0 h rfl rfl (Nat.add_zero _).symm Nat.one_pos
          · rename_i task rest next
            split
            · change ((σ.queue ++ rest).map _).sum + (σ.stages.map Stage.weight).sum < _
              rw [weight, next]
              simp
            · refine weight_withStage (task.action.steps.length + 6) h rfl rfl ?_ ?_
              · rw [next, List.map_append, List.map_cons, List.sum_append, List.sum_cons]
                change _ = ((σ.queue ++ rest).map _).sum + _
                rw [List.map_append, List.sum_append]
                omega
              · simp only [Stage.weight]
                omega
  | taken task => exact weight_withStage 0 h rfl rfl (Nat.add_zero _).symm (Nat.lt_succ_self _)
  | begun task => exact weight_withStage 0 h rfl rfl (Nat.add_zero _).symm (Nat.lt_succ_self _)
  | acting task title steps =>
      cases steps with
      | nil => exact weight_withStage 0 h rfl rfl (Nat.add_zero _).symm (Nat.lt_succ_self _)
      | cons step steps =>
          exact weight_withStage 0 h rfl rfl (Nat.add_zero _).symm (Nat.lt_succ_self _)
  | ended task => exact weight_withStage 0 h rfl rfl (Nat.add_zero _).symm (Nat.lt_succ_self _)
  | gone => exact absurd rfl hgone

/-- As long as the run is not over, some thread can go on. -/
theorem exists_advance (hover : σ.isOver = false) :
    ∃ thread, (σ.advance w c thread).weight < σ.weight := by
  have hmain : σ.main ≠ .gone := by simpa [isOver] using hover
  by_cases hjoined : σ.isJoined = true
  · exact ⟨.main, weight_advance_lt rfl hmain fun _ _ => hjoined⟩
  · have hworker : ∃ stage ∈ σ.workers, stage ≠ .gone := by simpa [isJoined] using hjoined
    obtain ⟨stage, hstage, hgone⟩ := hworker
    obtain ⟨number, hnumber⟩ := List.getElem?_of_mem hstage
    exact ⟨.worker number, weight_advance_lt hnumber hgone fun hmain => by cases hmain⟩

theorem exists_over (w : Nat) (c : CanvasRef) (σ : Crew) :
    ∃ moves, (σ.after w c moves).isOver = true := by
  induction hn : σ.weight using Nat.strongRecOn generalizing σ with
  | ind n ih =>
      cases hover : σ.isOver with
      | true => exact ⟨[], hover⟩
      | false =>
          obtain ⟨thread, hlt⟩ := exists_advance (w := w) (c := c) hover
          obtain ⟨moves, hmoves⟩ := ih _ (hn ▸ hlt) (σ.advance w c thread) rfl
          exact ⟨.advance thread :: moves, hmoves⟩

def Reaches (w : Nat) (c : CanvasRef) (σ σ' : Crew) : Prop := ∃ moves, σ.after w c moves = σ'

namespace Reaches

@[refl] theorem refl (σ : Crew) : Reaches w c σ σ := ⟨[], rfl⟩

theorem trans {σ'' : Crew} (h : Reaches w c σ σ') (h' : Reaches w c σ' σ'') :
    Reaches w c σ σ'' := by
  obtain ⟨moves, rfl⟩ := h
  obtain ⟨moves', rfl⟩ := h'
  exact ⟨moves ++ moves', List.foldl_append⟩

theorem advance (σ : Crew) (thread : CrewThread) : Reaches w c σ (σ.advance w c thread) :=
  ⟨[.advance thread], rfl⟩

theorem advance_trans (thread : CrewThread) (h : Reaches w c (σ.advance w c thread) σ') :
    Reaches w c σ σ' :=
  (advance σ thread).trans h

end Reaches

section

variable {thread : CrewThread} (there : (σ.stage? thread).isSome)

include there

theorem stage?_withStage (stage : Stage) :
    (σ.withStage stage thread).stage? thread = some stage := by
  cases thread with
  | main => rfl
  | worker number =>
      have hlt : number < σ.workers.length := by simpa [stage?] using there
      exact List.getElem?_set_self hlt

theorem reaches_steps (task : QueuedTask) (title : Text) (steps : List TaskStep) :
    Reaches w c (σ.withStage (.acting task title steps) thread)
      ({ σ with
          scene := steps.foldl (fun s step => s.taskStep w c task.index title step) σ.scene
        }.withStage (.acting task title []) thread) := by
  induction steps generalizing σ with
  | nil => exact .refl _
  | cons step steps ih =>
      have hadvance : (σ.withStage (.acting task title (step :: steps)) thread).advance w c thread =
          { σ with scene := σ.scene.taskStep w c task.index title step }.withStage
            (.acting task title steps) thread := by
        rw [Crew.advance, stage?_withStage there]
        cases thread with
        | main => rfl
        | worker number => simp [withStage, List.set_set]
      refine Reaches.advance_trans thread ?_
      rw [hadvance]
      refine ih ?_
      cases thread with
      | main => exact there
      | worker number => exact there

/-- Executing a task is one way to the end of it. -/
theorem reaches_execute (task : QueuedTask) : ∃ through history,
    Reaches w c (σ.withStage (.taken task) thread)
      ({ σ with
          scene := σ.scene.execute w c task
          through := through
          history := history
        }.withStage .free thread) := by
  have hother (σ' : Crew) (hworkers : σ'.workers = σ.workers) : (σ'.stage? thread).isSome := by
    cases thread with
    | main => rfl
    | worker number => rw [stage?, hworkers]; exact there
  let begun := σ.modifyRecord w task (·.start σ.scene.watch.now)
  let title := begun.scene.titleOf w task.index
  let called := begun.record (.called task.index)
  let acted : Crew :=
    { called with
      scene := task.action.steps.foldl (fun s step => s.taskStep w c task.index title step)
        begun.scene }
  let ended := acted.record (.returned task.index)
  have hbegun : (σ.withStage (.taken task) thread).advance w c thread =
      begun.withStage (.begun task) thread := by
    rw [Crew.advance, stage?_withStage there]
    cases thread with
    | main => rfl
    | worker number => simp [withStage, begun, modifyRecord, List.set_set]
  have hcalled : (begun.withStage (.begun task) thread).advance w c thread =
      called.withStage (.acting task title task.action.steps) thread := by
    rw [Crew.advance, stage?_withStage (hother begun rfl)]
    cases thread with
    | main => rfl
    | worker number => simp [withStage, called, title, record, List.set_set]
  have hacted : Reaches w c (called.withStage (.acting task title task.action.steps) thread)
      (acted.withStage (.acting task title []) thread) :=
    reaches_steps (hother called rfl) task title task.action.steps
  have hended : (acted.withStage (.acting task title []) thread).advance w c thread =
      ended.withStage (.ended task) thread := by
    rw [Crew.advance, stage?_withStage (hother acted rfl)]
    cases thread with
    | main => rfl
    | worker number => simp [withStage, ended, record, List.set_set]
  refine ⟨ended.through ++ [(task, Fate.executed)], ended.history, ?_⟩
  refine Reaches.advance_trans thread (hbegun ▸ ?_)
  refine Reaches.advance_trans thread (hcalled ▸ hacted.trans ?_)
  refine Reaches.advance_trans thread (hended ▸ ?_)
  have hfinished : (ended.withStage (.ended task) thread).advance w c thread =
      { σ with
        scene := σ.scene.execute w c task
        through := ended.through ++ [(task, Fate.executed)]
        history := ended.history }.withStage .free thread := by
    rw [Crew.advance, stage?_withStage (hother ended rfl)]
    cases thread with
    | main => rfl
    | worker number =>
        simp only [withStage, modifyRecord, settle, List.set_set]
        rfl
  exact hfinished ▸ Reaches.advance _ thread

end

/-- One worker alone empties the queue. -/
theorem reaches_queue {queue : List QueuedTask} (hqueue : σ.queue = queue)
    (free : queue ≠ [] → σ.workers[0]? = some .free) : ∃ σ', Reaches w c σ σ' ∧ σ'.queue = [] ∧
      σ'.inOrder = σ.inOrder ∧ σ'.main = σ.main ∧ σ'.workers = σ.workers ∧
      σ'.scene = queue.foldl (fun s task => s.execute w c task) σ.scene := by
  induction queue generalizing σ with
  | nil => exact ⟨σ, .refl σ, hqueue, rfl, rfl, rfl, rfl⟩
  | cons task rest ih =>
      have hfree := free (List.cons_ne_nil _ _)
      have hself : σ.workers.set 0 .free = σ.workers := by
        obtain ⟨hlt, hstage⟩ := List.getElem?_eq_some_iff.mp hfree
        rw [← hstage, List.set_getElem_self]
      have htaken : σ.advance w c (.worker 0) =
          { σ with queue := rest }.withStage (.taken task) (.worker 0) := by
        rw [Crew.advance, stage?, hfree]
        dsimp only [pick]
        rw [hqueue]
      have there : (({ σ with queue := rest } : Crew).stage? (.worker 0)).isSome := by
        rw [stage?, hfree]
        rfl
      obtain ⟨through, history, hexecuted⟩ := reaches_execute (w := w) (c := c) there task
      obtain ⟨σ', hreaches, hqueue', hinOrder, hmain, hworkers, hscene⟩ := ih (σ := { σ with
        scene := σ.scene.execute w c task
        queue := rest
        workers := σ.workers.set 0 .free
        through := through
        history := history }) rfl fun _ => (congrArg (·[0]?) hself).trans hfree
      refine ⟨σ', ?_, hqueue', hinOrder, hmain, hworkers.trans hself, hscene⟩
      exact .advance_trans (.worker 0) (htaken ▸ hexecuted.trans hreaches)

/-- Workers that find the queue empty leave. -/
theorem reaches_joined (hqueue : σ.queue = []) {left remaining : Nat}
    (hworkers : σ.workers = List.replicate left .gone ++ List.replicate remaining .free) :
    ∃ σ', Reaches w c σ σ' ∧ σ'.isJoined = true ∧ σ'.inOrder = σ.inOrder ∧ σ'.main = σ.main ∧
      σ'.scene = σ.scene := by
  induction remaining generalizing σ left with
  | zero =>
      refine ⟨σ, .refl σ, List.all_eq_true.mpr fun stage hstage => ?_, rfl, rfl, rfl⟩
      rw [hworkers, List.replicate_zero, List.append_nil] at hstage
      exact decide_eq_true (List.eq_of_mem_replicate hstage)
  | succ remaining ih =>
      have hfree : σ.workers[left]? = some .free := by
        rw [hworkers, List.getElem?_append_right (by simp)]
        simp
      have hset : σ.workers.set left .gone =
          List.replicate (left + 1) .gone ++ List.replicate remaining .free := by
        have hgone : List.replicate (left + 1) Stage.gone = List.replicate left .gone ++ [.gone] :=
          List.replicate_succ'
        rw [hworkers, List.set_append_right _ _ (by simp), hgone, List.append_assoc]
        simp [List.replicate_succ]
      have hleft : σ.advance w c (.worker left) = σ.withStage .gone (.worker left) := by
        rw [Crew.advance, stage?, hfree]
        dsimp only [pick]
        rw [hqueue]
      obtain ⟨σ', hreaches, hjoined⟩ := ih (σ := σ.withStage .gone (.worker left)) hqueue hset
      exact ⟨σ', .advance_trans (.worker left) (hleft ▸ hreaches), hjoined⟩

/-- The main thread follows the other tasks. -/
theorem reaches_over {tasks : List QueuedTask} (free : σ.main = .free)
    (joined : σ.isJoined = true) (hinOrder : σ.inOrder = tasks) : ∃ σ',
    Reaches w c σ σ' ∧ σ'.isOver = true ∧ σ'.scene = σ.scene.executeInOrder w c tasks := by
  have hstage : σ.stage? .main = some .free := congrArg some free
  induction tasks generalizing σ with
  | nil =>
      refine ⟨σ.withStage .gone .main, ?_, rfl, rfl⟩
      have hgone : σ.advance w c .main = σ.withStage .gone .main := by
        rw [Crew.advance, hstage]
        dsimp only [pick]
        rw [if_pos joined, hinOrder]
      exact hgone ▸ .advance σ .main
  | cons task rest ih =>
      have hpick : σ.advance w c .main =
          if σ.heedsFailure w then
            ({ σ with inOrder := rest }.modifyRecord w task TaskRecord.skip).settle task .skipped
          else { σ with inOrder := rest }.withStage (.taken task) .main := by
        rw [Crew.advance, hstage]
        dsimp only [pick]
        rw [if_pos joined, hinOrder]
      have hrest : σ.scene.executeInOrder w c (task :: rest) =
          (if σ.heedsFailure w then
            σ.scene.modifyTasks w (·.modifyRecord task.index TaskRecord.skip)
          else σ.scene.execute w c task).executeInOrder w c rest :=
        rfl
      rw [hrest]
      cases heeds : σ.heedsFailure w with
      | true =>
          rw [heeds, if_pos rfl] at hpick
          obtain ⟨σ', hreaches, hover, hscene⟩ := ih (σ := ({ σ with
            inOrder := rest }.modifyRecord w task TaskRecord.skip).settle task .skipped)
            free joined rfl hstage
          exact ⟨σ', .advance_trans .main (hpick ▸ hreaches), hover, hscene⟩
      | false =>
          rw [heeds, if_neg Bool.false_ne_true] at hpick
          have there : ({ σ with inOrder := rest }.stage? .main).isSome = true := rfl
          obtain ⟨through, history, hexecuted⟩ := reaches_execute (w := w) (c := c) there task
          obtain ⟨σ', hreaches, hover, hscene⟩ := ih (σ := { σ with
            scene := σ.scene.execute w c task
            inOrder := rest
            main := .free
            through := through
            history := history }) rfl joined rfl rfl
          exact ⟨σ', .advance_trans .main (hpick ▸ hexecuted.trans hreaches), hover, hscene⟩

/-- The tasks one by one, the concurrent ones first, are one order of sections. -/
theorem exists_oneByOne (w : Nat) (c : CanvasRef) (s : Scene) (l : TaskList) : ∃ moves,
    ((start s l).after w c moves).isOver = true ∧
      ((start s l).after w c moves).scene = s.executeQueue w c l.queue := by
  have hfree : (start s l).queue ≠ [] → (start s l).workers[0]? = some .free := by
    intro hsome
    have hcount : 0 < l.queue.countP QueuedTask.concurrent := by
      rw [List.countP_eq_length_filter]
      exact List.length_pos_iff.mpr hsome
    refine List.getElem?_replicate_of_lt ?_
    unfold TaskList.workers
    omega
  obtain ⟨σ, hreaches, hempty, hinOrder, hmain, hworkers, hscene⟩ :=
    reaches_queue (w := w) (c := c) rfl hfree
  have hworkers' : σ.workers = List.replicate 0 .gone ++
      List.replicate (l.workers (l.queue.countP QueuedTask.concurrent)) .free := hworkers
  obtain ⟨σ', hreaches', hjoined, hinOrder', hmain', hscene'⟩ :=
    reaches_joined (w := w) (c := c) hempty hworkers'
  obtain ⟨σ'', hreaches'', hover, hscene''⟩ := reaches_over (w := w) (c := c)
    (hmain'.trans hmain) hjoined (hinOrder'.trans hinOrder)
  obtain ⟨moves, rfl⟩ := (hreaches.trans hreaches').trans hreaches''
  refine ⟨moves, hover, ?_⟩
  rw [hscene'', hscene', hscene]
  rfl

end Crew

end Inlay
