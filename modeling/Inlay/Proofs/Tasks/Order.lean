import Inlay.Proofs.Tasks.Accounts
import Mathlib.Data.List.Nodup

namespace Inlay

/-- Whether a task that was executed is among those that failed. -/
def failedIn (settled : List (QueuedTask × Fate)) : Bool :=
  settled.any fun task => task.2 = .executed && task.1.fails

theorem failedIn_executed (settled : List (QueuedTask × Fate)) (task : QueuedTask) :
    failedIn (settled ++ [(task, .executed)]) = (failedIn settled || task.fails) := by
  simp [failedIn]

theorem failedIn_skipped (settled : List (QueuedTask × Fate)) (task : QueuedTask) :
    failedIn (settled ++ [(task, .skipped)]) = failedIn settled := by
  simp [failedIn]

/-- What becomes of tasks that are followed in order, when there was a failure before or not. -/
def followedBy (heeds failed : Bool) : List QueuedTask → List (QueuedTask × Fate)
  | [] => []
  | task :: rest =>
      if heeds && failed then (task, .skipped) :: followedBy heeds failed rest
      else (task, .executed) :: followedBy heeds (failed || task.fails) rest

theorem map_fst_followedBy (heeds failed : Bool) (tasks : List QueuedTask) :
    (followedBy heeds failed tasks).map Prod.fst = tasks := by
  fun_induction followedBy heeds failed tasks with
  | case1 failed => rfl
  | case2 failed task rest skips ih => rw [List.map_cons, ih]
  | case3 failed task rest executes ih => rw [List.map_cons, ih]

/-- A task is skipped if failures are heeded and there was one before it. -/
theorem skipped_iff {heeds failed : Bool} {tasks : List QueuedTask}
    {before after : List (QueuedTask × Fate)} {task : QueuedTask} {fate : Fate}
    (h : followedBy heeds failed tasks = before ++ (task, fate) :: after) :
    fate = .skipped ↔ heeds = true ∧ (failed = true ∨ failedIn before = true) := by
  fun_induction followedBy heeds failed tasks generalizing before with
  | case1 failed => cases before <;> cases h
  | case2 failed task' rest skips ih =>
      rw [Bool.and_eq_true] at skips
      cases before with
      | nil =>
          cases h
          simp [skips]
      | cons first before =>
          obtain ⟨rfl, hrest⟩ := List.cons.inj h
          rw [ih hrest]
          simp [skips]
  | case3 failed task' rest executes ih =>
      cases before with
      | nil =>
          cases h
          simpa [failedIn] using executes
      | cons first before =>
          obtain ⟨rfl, hrest⟩ := List.cons.inj h
          rw [ih hrest]
          simp [failedIn, or_assoc]

/-- What a thread does in the middle of a task, with the deeds that this is. -/
inductive Stage.Goes : Stage → Stage → List Deed → Prop
  | start {task : QueuedTask} : Goes (.taken task) (.begun task) []
  | call {task : QueuedTask} {title : Text} :
      Goes (.begun task) (.acting task title task.action.steps) [.called task.index]
  | act {task : QueuedTask} {title : Text} {step : TaskStep} {steps : List TaskStep} :
      Goes (.acting task title (step :: steps)) (.acting task title steps) []
  | complete {task : QueuedTask} {title : Text} :
      Goes (.acting task title []) (.ended task) [.returned task.index]

/-- What a thread has done for the task that it is at. -/
def Stage.deeds : Stage → List Deed
  | acting task _ _ => [.called task.index]
  | ended task => [.called task.index, .returned task.index]
  | free | taken _ | begun _ | gone => []

theorem Stage.Goes.deeds_eq {stage stage' : Stage} {deeds : List Deed}
    (h : stage.Goes stage' deeds) : stage'.deeds = stage.deeds ++ deeds := by
  cases h <;> rfl

theorem Stage.Goes.exists_task {stage stage' : Stage} {deeds : List Deed}
    (h : stage.Goes stage' deeds) : ∃ task p p', stage.entry? = some (task, p) ∧
      stage'.entry? = some (task, p') ∧ ∀ deed ∈ deeds, deed.index = task.index := by
  cases h with
  | @start task => exact ⟨task, _, _, rfl, rfl, nofun⟩
  | @call task title => exact ⟨task, _, _, rfl, rfl, by simp [Deed.index]⟩
  | @act task title step steps => exact ⟨task, _, _, rfl, rfl, nofun⟩
  | @complete task title => exact ⟨task, _, _, rfl, rfl, by simp [Deed.index]⟩

namespace TaskList

/-- The tasks that are followed in order. -/
def followers (l : TaskList) : List QueuedTask := l.queue.filter fun task => !task.concurrent

/-- Whether there is a failure before the first of them: of a task that was run earlier, or of one
that runs beside others. -/
def failsFirst (l : TaskList) : Bool :=
  l.hasFailures || l.queue.any fun task => task.concurrent && task.fails

/-- Whether a deed is about a task that is followed in order. -/
def follows (l : TaskList) (deed : Deed) : Bool :=
  l.followers.any fun task => task.index = deed.index

end TaskList

namespace Crew

/-- The tasks followed so far. -/
def followed (σ : Crew) : List (QueuedTask × Fate) :=
  σ.through.filter fun task => !task.1.concurrent

/-- What is going to become of the tasks that are to be followed still. -/
def ahead (l : TaskList) (σ : Crew) : List (QueuedTask × Fate) :=
  let failed := l.failsFirst || failedIn σ.followed
  match σ.main.entry? with
  | some e => (e.1, .executed) :: followedBy (!l.continueOnError) (failed || e.1.fails) σ.inOrder
  | none => followedBy (!l.continueOnError) failed σ.inOrder

/-- The deeds of tasks that were executed one after the other. -/
def deedsOf (settled : List (QueuedTask × Fate)) : List Deed :=
  (settled.filter (·.2 = .executed)).flatMap fun task =>
    [.called task.1.index, .returned task.1.index]

structure Order (l : TaskList) (σ : Crew) : Prop where
  size : σ.workers.length = l.workers (l.queue.countP QueuedTask.concurrent)
  queued : ∀ task ∈ σ.queue, task.concurrent = true
  byWorker : ∀ stage ∈ σ.workers, ∀ e, stage.entry? = some e → e.1.concurrent = true
  drained : σ.workers = [] ∨ .gone ∈ σ.workers → σ.queue = []
  executed : ∀ task ∈ σ.through, task.1.concurrent = true → task.2 = .executed
  joined : σ.main ≠ .free ∨ σ.followed ≠ [] → σ.isJoined = true
  retired : σ.main = .gone → σ.inOrder = []
  sequence : σ.followed ++ σ.ahead l = followedBy (!l.continueOnError) l.failsFirst l.followers
  history : σ.history.filter l.follows = deedsOf σ.followed ++ σ.main.deeds

variable {w : Nat} {c : CanvasRef} {l : TaskList} {σ σ' : Crew}

theorem ahead_of_some {e : Entry} (h : σ.main.entry? = some e) : σ.ahead l =
    (e.1, .executed) :: followedBy (!l.continueOnError)
      (l.failsFirst || failedIn σ.followed || e.1.fails) σ.inOrder := by
  rw [ahead, h]

theorem ahead_of_none (h : σ.main.entry? = none) : σ.ahead l =
    followedBy (!l.continueOnError) (l.failsFirst || failedIn σ.followed) σ.inOrder := by
  rw [ahead, h]

namespace Order

theorem map_fst_ahead (l : TaskList) (σ : Crew) :
    (σ.ahead l).map Prod.fst = σ.main.entry?.toList.map Prod.fst ++ σ.inOrder := by
  unfold ahead
  cases σ.main.entry? with
  | none => exact map_fst_followedBy _ _ _
  | some e => rw [List.map_cons, map_fst_followedBy]; rfl

theorem mem_followers (h : σ.Order l) {task : QueuedTask}
    (htask : task ∈ σ.main.entry?.toList.map Prod.fst ++ σ.inOrder) : task ∈ l.followers := by
  rw [← map_fst_followedBy (!l.continueOnError) l.failsFirst l.followers, ← h.sequence,
    List.map_append, map_fst_ahead]
  exact List.mem_append_right _ htask

theorem queue_of_joined (h : σ.Order l) (joined : σ.isJoined = true) : σ.queue = [] := by
  refine h.drained ?_
  cases hworkers : σ.workers with
  | nil => exact Or.inl rfl
  | cons stage rest =>
      unfold isJoined at joined
      rw [hworkers, List.all_cons, Bool.and_eq_true, decide_eq_true_eq] at joined
      exact Or.inr (joined.1 ▸ List.mem_cons_self)

theorem main_of_mem_held (joined : σ.isJoined = true) {e : Entry} (he : e ∈ σ.held) :
    σ.main.entry? = some e := by
  obtain ⟨stage, hstage, hentry⟩ := List.mem_filterMap.mp he
  rcases List.mem_cons.mp hstage with rfl | hstage
  · exact hentry
  · have hgone := List.all_eq_true.mp joined stage hstage
    rw [decide_eq_true_eq] at hgone
    rw [hgone] at hentry
    cases hentry

/-- Tasks of a ready list are told apart by their numbers. -/
theorem eq_of_index_eq (ready : l.Ready) {task task' : QueuedTask} (h : task ∈ l.queue)
    (h' : task' ∈ l.queue) (heq : task.index = task'.index) : task = task' :=
  List.inj_on_of_nodup_map ready.nodup h h' heq

theorem follows_of_mem {task : QueuedTask} (h : task ∈ l.followers) {deed : Deed}
    (hdeed : deed.index = task.index) : l.follows deed = true :=
  List.any_eq_true.mpr ⟨task, h, decide_eq_true hdeed.symm⟩

theorem not_follows_of_concurrent (ready : l.Ready) {task : QueuedTask} (h : task ∈ l.queue)
    (concurrent : task.concurrent = true) {deed : Deed} (hdeed : deed.index = task.index) :
    l.follows deed = false := by
  rw [Bool.eq_false_iff]
  intro hfollows
  obtain ⟨task', htask', heq⟩ := List.any_eq_true.mp hfollows
  obtain ⟨hmem, hinOrder⟩ := List.mem_filter.mp htask'
  rw [decide_eq_true_eq, hdeed] at heq
  rw [eq_of_index_eq ready hmem h heq, concurrent] at hinOrder
  cases hinOrder

theorem entry_mem_ledger {thread : CrewThread} {stage : Stage} (h : σ.stage? thread = some stage)
    {e : Entry} (he : stage.entry? = some e) : e ∈ σ.ledger := by
  obtain ⟨others, hledger, -⟩ := ledger_withStage h he he rfl rfl rfl rfl rfl
  exact hledger.mem_iff.mpr List.mem_cons_self

theorem not_isJoined {number : Nat} {stage : Stage} (h : σ.workers[number]? = some stage)
    (hgone : stage ≠ .gone) : σ.isJoined ≠ true := by
  intro joined
  exact hgone (by simpa using List.all_eq_true.mp joined stage (List.mem_of_getElem? h))

/-- A worker changes its stage while the queue, the main thread and what it has done stay. -/
theorem worker (h : σ.Order l) {number : Nat} {stage stage' : Stage}
    (hstage : σ.workers[number]? = some stage) (hgone : stage ≠ .gone)
    (hentry : ∀ e, stage'.entry? = some e → e.1.concurrent = true)
    (hqueued : ∀ task ∈ σ'.queue, task.concurrent = true)
    (hdrained : .gone ∈ σ'.workers → σ'.queue = [])
    (hworkers : σ'.workers = σ.workers.set number stage') (hmain : σ'.main = σ.main)
    (hinOrder : σ'.inOrder = σ.inOrder) (hfollowed : σ'.followed = σ.followed)
    (hexecuted : ∀ task ∈ σ'.through, task.1.concurrent = true → task.2 = .executed)
    (hhistory : σ'.history.filter l.follows = σ.history.filter l.follows) : σ'.Order l := by
  have hahead : σ'.ahead l = σ.ahead l := by
    unfold ahead
    rw [hmain, hinOrder, hfollowed]
  constructor
  case size => rw [hworkers, List.length_set, h.size]
  case queued => exact hqueued
  case byWorker =>
    intro other hother e he
    rw [hworkers] at hother
    rcases List.mem_or_eq_of_mem_set hother with hother | rfl
    · exact h.byWorker other hother e he
    · exact hentry e he
  case drained =>
    rintro (hnone | hmem)
    · rw [hworkers, List.set_eq_nil_iff] at hnone
      rw [hnone] at hstage
      cases hstage
    · exact hdrained hmem
  case executed => exact hexecuted
  case joined =>
    intro hbegun
    rw [hmain, hfollowed] at hbegun
    exact absurd (h.joined hbegun) (not_isJoined hstage hgone)
  case retired => rw [hmain, hinOrder]; exact h.retired
  case sequence => rw [hfollowed, hahead, h.sequence]
  case history => rw [hhistory, hfollowed, hmain, h.history]

/-- The main thread goes on once all workers have left. -/
theorem leader (h : σ.Order l) (joined : σ.isJoined = true) (hworkers : σ'.workers = σ.workers)
    (hqueue : σ'.queue = σ.queue)
    (hexecuted : ∀ task ∈ σ'.through, task.1.concurrent = true → task.2 = .executed)
    (hretired : σ'.main = .gone → σ'.inOrder = [])
    (hsequence : σ'.followed ++ σ'.ahead l = σ.followed ++ σ.ahead l)
    (hhistory : σ'.history.filter l.follows = deedsOf σ'.followed ++ σ'.main.deeds) :
    σ'.Order l := by
  constructor
  case size => rw [hworkers, h.size]
  case queued => rw [hqueue]; exact h.queued
  case byWorker => rw [hworkers]; exact h.byWorker
  case drained => rw [hworkers, hqueue]; exact h.drained
  case executed => exact hexecuted
  case joined =>
    intro _
    rw [isJoined, hworkers]
    exact joined
  case retired => exact hretired
  case sequence => rw [hsequence, h.sequence]
  case history => exact hhistory

theorem go (ready : l.Ready) (accounts : σ.Accounts w c l) (h : σ.Order l) {thread : CrewThread}
    {stage stage' : Stage} {deeds : List Deed} (hstage : σ.stage? thread = some stage)
    (goes : stage.Goes stage' deeds) (hmain : σ'.main = σ.main) (hworkers : σ'.workers = σ.workers)
    (hqueue : σ'.queue = σ.queue) (hinOrder : σ'.inOrder = σ.inOrder)
    (hthrough : σ'.through = σ.through) (hhistory : σ'.history = σ.history ++ deeds) :
    (σ'.withStage stage' thread).Order l := by
  obtain ⟨task, p, p', hentry, hentry', hdeeds⟩ := goes.exists_task
  have hmem : task ∈ l.queue := accounts.mem_queue (entry_mem_ledger hstage hentry)
  have hfollowed : σ'.followed = σ.followed := by rw [followed, hthrough, followed]
  cases thread with
  | worker number =>
      have hworker : stage ∈ σ.workers := List.mem_of_getElem? hstage
      have hconcurrent : task.concurrent = true := h.byWorker stage hworker _ hentry
      refine h.worker hstage ?_ ?_ ?_ ?_ (congrArg (List.set · number stage') hworkers) hmain
        hinOrder
        hfollowed ?_ ?_
      · rintro rfl
        cases hentry
      · intro e he
        rw [hentry', Option.some.injEq] at he
        rw [← he]
        exact hconcurrent
      · exact fun task htask => h.queued task (hqueue ▸ htask)
      · intro hgone
        refine hqueue.trans (h.drained (Or.inr ?_))
        change .gone ∈ σ'.workers.set number stage' at hgone
        rw [hworkers] at hgone
        rcases List.mem_or_eq_of_mem_set hgone with hgone | rfl
        · exact hgone
        · cases hentry'
      · exact fun task htask => h.executed task (hthrough ▸ htask)
      · have hnone : deeds.filter l.follows = [] := by
          rw [List.filter_eq_nil_iff]
          intro deed hdeed
          rw [not_follows_of_concurrent ready hmem hconcurrent (hdeeds deed hdeed)]
          exact Bool.false_ne_true
        change σ'.history.filter l.follows = _
        rw [hhistory, List.filter_append, hnone, List.append_nil]
  | main =>
      obtain rfl := Option.some.inj hstage
      have hbusy : σ.main ≠ .free := by
        intro hfree
        rw [hfree] at hentry
        cases hentry
      have hfollower : task ∈ l.followers :=
        h.mem_followers (by rw [hentry]; exact List.mem_append_left _ List.mem_cons_self)
      refine h.leader (h.joined (Or.inl hbusy)) hworkers hqueue ?_ ?_ ?_ ?_
      · exact fun task htask => h.executed task (hthrough ▸ htask)
      · intro hgone
        rw [show stage' = .gone from hgone] at hentry'
        cases hentry'
      · have hahead : (σ'.withStage stage' .main).ahead l = σ.ahead l := by
          rw [ahead_of_some hentry, ahead_of_some hentry']
          change
            (task, Fate.executed) :: followedBy _ (_ || failedIn σ'.followed || _) σ'.inOrder = _
          rw [hfollowed, hinOrder]
        rw [hahead]
        exact congrArg (· ++ σ.ahead l) hfollowed
      · have hall : deeds.filter l.follows = deeds := by
          rw [List.filter_eq_self]
          exact fun deed hdeed => follows_of_mem hfollower (hdeeds deed hdeed)
        change σ'.history.filter l.follows = deedsOf σ'.followed ++ stage'.deeds
        rw [hhistory, List.filter_append, hall, h.history, hfollowed, goes.deeds_eq,
          List.append_assoc]

theorem finish (h : σ.Order l)
    {thread : CrewThread} {task : QueuedTask} (ended : σ.stage? thread = some (.ended task))
    (hmain : σ'.main = σ.main) (hworkers : σ'.workers = σ.workers) (hqueue : σ'.queue = σ.queue)
    (hinOrder : σ'.inOrder = σ.inOrder)
    (hthrough : σ'.through = σ.through ++ [(task, .executed)])
    (hhistory : σ'.history = σ.history) : (σ'.withStage .free thread).Order l := by
  have hexecuted : ∀ settled ∈ σ'.through, settled.1.concurrent = true →
      settled.2 = .executed := by
    intro settled hsettled
    rw [hthrough] at hsettled
    rcases List.mem_append.mp hsettled with hsettled | hsettled
    · exact h.executed settled hsettled
    · rw [List.mem_singleton.mp hsettled]
      exact fun _ => rfl
  cases thread with
  | worker number =>
      have hconcurrent : task.concurrent = true :=
        h.byWorker _ (List.mem_of_getElem? ended) _ rfl
      have hfollowed : σ'.followed = σ.followed := by
        rw [followed, hthrough, List.filter_append, followed]
        simp [hconcurrent]
      have hworkers' : σ'.workers.set number .free = σ.workers.set number .free := by rw [hworkers]
      refine h.worker ended nofun (fun e he => ?_) ?_ ?_ hworkers' hmain hinOrder hfollowed
        hexecuted (congrArg _ hhistory)
      · cases he
      · exact fun task htask => h.queued task (hqueue ▸ htask)
      · intro hgone
        refine hqueue.trans (h.drained (Or.inr ?_))
        change .gone ∈ σ'.workers.set number .free at hgone
        rw [hworkers] at hgone
        rcases List.mem_or_eq_of_mem_set hgone with hgone | heq
        · exact hgone
        · cases heq
  | main =>
      have hstage : σ.main = .ended task := Option.some.inj ended
      have hfollower : task ∈ l.followers :=
        h.mem_followers (by rw [hstage]; exact List.mem_append_left _ List.mem_cons_self)
      have hinOrder' : task.concurrent = false := by
        simpa using (List.mem_filter.mp hfollower).2
      have hfollowed : σ'.followed = σ.followed ++ [(task, .executed)] := by
        rw [followed, hthrough, List.filter_append, followed]
        simp [hinOrder']
      refine h.leader (h.joined (Or.inl (by rw [hstage]; exact nofun))) hworkers hqueue hexecuted
        nofun ?_ ?_
      · have hahead : σ.ahead l = (task, .executed) :: (σ'.withStage .free .main).ahead l := by
          rw [ahead_of_some (congrArg Stage.entry? hstage), ahead_of_none rfl]
          change _ = (task, Fate.executed) :: followedBy _ (_ || failedIn σ'.followed) σ'.inOrder
          rw [hfollowed, failedIn_executed, hinOrder, ← Bool.or_assoc]
        change σ'.followed ++ _ = _
        rw [hahead, hfollowed, List.append_assoc]
        rfl
      · change σ'.history.filter l.follows = deedsOf σ'.followed ++ []
        rw [hhistory, h.history, hfollowed, hstage, deedsOf, deedsOf, List.filter_append,
          List.flatMap_append, List.append_nil]
        rfl

theorem mem_ledger_of_through {task : QueuedTask} {fate : Fate} (h : (task, fate) ∈ σ.through) :
    (task, fate.point) ∈ σ.ledger :=
  List.mem_append_right _ (List.mem_map_of_mem (f := fun task => (task.1, task.2.point)) h)

/-- Once all workers have left, a task waits in order, the main thread is at it or it is through. -/
theorem cases_of_joined (h : σ.Order l) (joined : σ.isJoined = true) {task : QueuedTask} {p : Point}
    (he : (task, p) ∈ σ.ledger) : task ∈ σ.inOrder ∧ p = .waiting ∨
      σ.main.entry? = some (task, p) ∨
        ∃ fate : Fate, (task, fate) ∈ σ.through ∧ p = fate.point := by
  rw [ledger, h.queue_of_joined joined, List.nil_append] at he
  rcases List.mem_append.mp he with he | hsettled
  · rcases List.mem_append.mp he with hwaiting | hheld
    · obtain ⟨task', htask', heq⟩ := List.mem_map.mp hwaiting
      obtain ⟨rfl, rfl⟩ := Prod.mk.inj heq
      exact Or.inl ⟨htask', rfl⟩
    · exact Or.inr (Or.inl (main_of_mem_held joined hheld))
  · obtain ⟨⟨task', fate⟩, hthrough, heq⟩ := List.mem_map.mp hsettled
    obtain ⟨rfl, rfl⟩ := Prod.mk.inj heq
    exact Or.inr (Or.inr ⟨fate, hthrough, rfl⟩)

theorem executed_of_joined (accounts : σ.Accounts w c l) (h : σ.Order l)
    (joined : σ.isJoined = true) {task : QueuedTask} (htask : task ∈ l.queue)
    (concurrent : task.concurrent = true) : (task, .executed) ∈ σ.through := by
  have hfollower (hmem : task ∈ l.followers) : False := by
    have hinOrder := (List.mem_filter.mp hmem).2
    rw [concurrent] at hinOrder
    cases hinOrder
  obtain ⟨p, hp⟩ := accounts.exists_entry htask
  rcases h.cases_of_joined joined hp with ⟨hwaiting, -⟩ | hmain | ⟨fate, hthrough, -⟩
  · exact (hfollower (h.mem_followers (List.mem_append_right _ hwaiting))).elim
  · refine (hfollower (h.mem_followers (List.mem_append_left _ ?_))).elim
    rw [hmain]
    exact List.mem_cons_self
  · obtain rfl := h.executed _ hthrough concurrent
    exact hthrough

/-- A record shows an error if its task failed in an earlier run or was executed in this one and
failed. -/
theorem hasFailures_iff (ready : l.Ready) (accounts : σ.Accounts w c l) (h : σ.Order l)
    (joined : σ.isJoined = true) (free : σ.main = .free) {l' : TaskList}
    (records : Records l σ.ledger l') :
    l'.hasFailures = true ↔ l.hasFailures = true ∨
      ∃ task, (task, .executed) ∈ σ.through ∧ task.fails = true := by
  rw [TaskList.hasFailures_iff, TaskList.hasFailures_iff]
  constructor
  · rintro ⟨index, status, hstatus, hsome⟩
    by_cases hqueued : ∃ task ∈ l.queue, task.index = index
    · obtain ⟨task, htask, rfl⟩ := hqueued
      obtain ⟨p, hp⟩ := accounts.exists_entry htask
      rw [records.listed _ hp, Option.some.injEq] at hstatus
      rw [← hstatus] at hsome
      rcases h.cases_of_joined joined hp with ⟨-, rfl⟩ | hmain | ⟨fate, hthrough, rfl⟩
      · cases hsome
      · rw [free] at hmain
        cases hmain
      · cases fate with
        | skipped => cases hsome
        | executed =>
            exact Or.inr ⟨task, hthrough, (TaskOutcome.isSome_status _).symm.trans hsome⟩
    · rw [records.others index fun task htask heq => hqueued ⟨task, htask, heq⟩] at hstatus
      exact Or.inl ⟨index, status, hstatus, hsome⟩
  · rintro (⟨index, status, hstatus, hsome⟩ | ⟨task, hthrough, hfails⟩)
    · refine ⟨index, status, ?_, hsome⟩
      rw [records.others index ?_, hstatus]
      rintro task htask rfl
      rw [ready.pending task htask, Option.some.injEq] at hstatus
      rw [← hstatus] at hsome
      cases hsome
    · refine ⟨task.index, _, records.listed _ (mem_ledger_of_through hthrough), ?_⟩
      exact (TaskOutcome.isSome_status _).trans hfails

/-- What the main thread finds in the records when it takes up a task. -/
theorem heedsFailure_eq (ready : l.Ready) (accounts : σ.Accounts w c l) (h : σ.Order l)
    (joined : σ.isJoined = true) (free : σ.main = .free) :
    σ.heedsFailure w = (!l.continueOnError && (l.failsFirst || failedIn σ.followed)) := by
  obtain ⟨l', hl', records⟩ := accounts.records
  have hsettings : l'.continueOnError = l.continueOnError := by rw [records.settings]
  have hfailures : l'.hasFailures = (l.failsFirst || failedIn σ.followed) := by
    rw [Bool.eq_iff_iff, hasFailures_iff ready accounts h joined free records]
    simp only [TaskList.failsFirst, failedIn, followed, Bool.or_eq_true, List.any_eq_true,
      Bool.and_eq_true, decide_eq_true_eq, List.mem_filter, Bool.not_eq_true']
    constructor
    · rintro (hbefore | ⟨task, hthrough, hfails⟩)
      · exact Or.inl (Or.inl hbefore)
      · cases hconcurrent : task.concurrent with
        | true =>
            have htask := accounts.mem_queue (mem_ledger_of_through hthrough)
            exact Or.inl (Or.inr ⟨task, htask, hconcurrent, hfails⟩)
        | false => exact Or.inr ⟨(task, .executed), ⟨hthrough, hconcurrent⟩, rfl, hfails⟩
    · rintro ((hbefore | ⟨task, htask, hconcurrent, hfails⟩) |
        ⟨⟨task, fate⟩, ⟨hthrough, -⟩, rfl, hfails⟩)
      · exact Or.inl hbefore
      · exact Or.inr ⟨task, executed_of_joined accounts h joined htask hconcurrent, hfails⟩
      · exact Or.inr ⟨task, hthrough, hfails⟩
  rw [heedsFailure, hl', Option.any_some, hsettings, hfailures]

theorem leave (h : σ.Order l) {number : Nat} (free : σ.workers[number]? = some .free)
    (none : σ.queue = []) : (σ.withStage .gone (.worker number)).Order l := by
  refine h.worker free nofun (fun e he => ?_) h.queued (fun _ => none) rfl rfl rfl rfl
    h.executed rfl
  cases he

theorem take (h : σ.Order l) {number : Nat} {task : QueuedTask} {rest : List QueuedTask}
    (free : σ.workers[number]? = some .free) (next : σ.queue = task :: rest) :
    ({ σ with queue := rest }.withStage (.taken task) (.worker number)).Order l := by
  have hqueued := h.queued
  rw [next, List.forall_mem_cons] at hqueued
  refine h.worker free nofun ?_ hqueued.2 ?_ rfl rfl rfl rfl h.executed rfl
  · intro e he
    rw [← Option.some.inj he]
    exact hqueued.1
  · intro hgone
    rcases List.mem_or_eq_of_mem_set hgone with hgone | heq
    · have hdrained := h.drained (Or.inr hgone)
      rw [next] at hdrained
      cases hdrained
    · cases heq

theorem retire (h : σ.Order l) (free : σ.main = .free) (joined : σ.isJoined = true)
    (none : σ.inOrder = []) :
    (σ.withStage .gone .main).Order l := by
  have hhistory := h.history
  rw [free] at hhistory
  refine h.leader joined rfl rfl h.executed (fun _ => none) ?_ hhistory
  rw [ahead_of_none rfl, ahead_of_none (congrArg Stage.entry? free)]
  rfl

theorem skip (h : σ.Order l) {task : QueuedTask} {rest : List QueuedTask} (free : σ.main = .free)
    (joined : σ.isJoined = true) (next : σ.inOrder = task :: rest)
    (heeds : (!l.continueOnError && (l.failsFirst || failedIn σ.followed)) = true)
    (hmain : σ'.main = σ.main) (hworkers : σ'.workers = σ.workers) (hqueue : σ'.queue = σ.queue)
    (hinOrder : σ'.inOrder = rest) (hthrough : σ'.through = σ.through ++ [(task, .skipped)])
    (hhistory : σ'.history = σ.history) : σ'.Order l := by
  have hfollower : task ∈ l.followers :=
    h.mem_followers (List.mem_append_right _ (next ▸ List.mem_cons_self))
  have hconcurrent : task.concurrent = false := by simpa using (List.mem_filter.mp hfollower).2
  have hfollowed : σ'.followed = σ.followed ++ [(task, .skipped)] := by
    rw [followed, hthrough, List.filter_append, followed]
    simp [hconcurrent]
  refine h.leader joined hworkers hqueue ?_ ?_ ?_ ?_
  · intro settled hsettled
    rw [hthrough] at hsettled
    rcases List.mem_append.mp hsettled with hsettled | hsettled
    · exact h.executed settled hsettled
    · rw [List.mem_singleton.mp hsettled, hconcurrent]
      exact nofun
  · rw [hmain, free]
    exact nofun
  · rw [ahead_of_none (congrArg Stage.entry? (hmain.trans free)),
      ahead_of_none (congrArg Stage.entry? free), hfollowed, failedIn_skipped, hinOrder, next,
      followedBy, if_pos heeds, List.append_assoc]
    rfl
  · rw [hhistory, h.history, hmain, hfollowed, deedsOf, deedsOf, List.filter_append]
    simp

theorem follow (h : σ.Order l) {task : QueuedTask} {rest : List QueuedTask} (free : σ.main = .free)
    (joined : σ.isJoined = true) (next : σ.inOrder = task :: rest)
    (heeds : (!l.continueOnError && (l.failsFirst || failedIn σ.followed)) = false) :
    ({ σ with inOrder := rest }.withStage (.taken task) .main).Order l := by
  have hhistory := h.history
  rw [free] at hhistory
  refine h.leader joined rfl rfl h.executed nofun ?_ hhistory
  rw [ahead_of_some rfl, ahead_of_none (congrArg Stage.entry? free), next, followedBy,
    if_neg (Bool.eq_false_iff.mp heeds)]
  rfl

theorem step (ready : l.Ready) (accounts : σ.Accounts w c l) (h : σ.Order l)
    (step : Step w c σ σ') : σ'.Order l := by
  have heeds := heedsFailure_eq ready accounts h
  cases step with
  | rest => exact h
  | aside kept => exact ⟨h.1, h.2, h.3, h.4, h.5, h.6, h.7, h.8, h.9⟩
  | leave free none => exact h.leave free none
  | take free next => exact h.take free next
  | retire free joined none => exact h.retire free joined none
  | skip free joined next hskips =>
      exact h.skip free joined next ((heeds joined free).symm.trans hskips) rfl rfl rfl rfl rfl rfl
  | follow free joined next hexecutes =>
      exact h.follow free joined next ((heeds joined free).symm.trans hexecutes)
  | start taken =>
      exact h.go ready accounts taken .start rfl rfl rfl rfl rfl (List.append_nil _).symm
  | call begun => exact h.go ready accounts begun .call rfl rfl rfl rfl rfl rfl
  | act acting kept =>
      exact h.go ready accounts acting .act rfl rfl rfl rfl rfl (List.append_nil _).symm
  | complete acting => exact h.go ready accounts acting .complete rfl rfl rfl rfl rfl rfl
  | finish ended => exact h.finish ended rfl rfl rfl rfl rfl rfl

end Order

theorem order_start (s : Scene) (l : TaskList) : (start s l).Order l := by
  constructor
  case size => exact List.length_replicate
  case queued => exact fun task htask => (List.mem_filter.mp htask).2
  case byWorker =>
    intro stage hstage e he
    rw [List.eq_of_mem_replicate hstage] at he
    cases he
  case drained =>
    rintro (hnone | hgone)
    · have hcount : l.queue.countP QueuedTask.concurrent = 0 := by
        have hsize := congrArg List.length hnone
        rw [start, List.length_replicate, TaskList.workers, List.length_nil] at hsize
        omega
      rw [start, List.filter_eq_nil_iff]
      exact fun task htask => List.countP_eq_zero.mp hcount task htask
    · cases List.eq_of_mem_replicate hgone
  case executed => exact nofun
  case joined =>
    rintro (hbusy | hfollowed)
    · exact absurd rfl hbusy
    · exact absurd rfl hfollowed
  case retired => exact nofun
  case sequence =>
    rw [ahead_of_none rfl]
    change followedBy _ (l.failsFirst || false) _ = _
    rw [Bool.or_false]
    rfl
  case history => rfl

end Crew

end Inlay
