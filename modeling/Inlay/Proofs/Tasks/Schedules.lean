import Inlay.Proofs.Tasks.Outcome

namespace Inlay

/-- Whether a deed is about a task that is followed in order. -/
def Deed.isInOrder (tasks : List NewTask) (deed : Deed) : Bool :=
  tasks[deed.index]?.any fun task => !task.concurrent

/-- What holds at any time of the calls of actions in a run of all tasks. -/
structure Disciplined (tasks : List NewTask) (limit : Nat) (history : List Deed) : Prop where
  ofTasks : ∀ deed ∈ history, deed.index < tasks.length
  once : ∀ i, history.count (.called i) ≤ 1
  returned : ∀ i, history.count (.returned i) ≤ history.count (.called i)
  bounded : history.countP Deed.isCall ≤ history.countP Deed.isReturn + max limit 1
  concurrentFirst : ∀ i task j other, tasks[i]? = some task → task.concurrent = false →
    tasks[j]? = some other → other.concurrent = true →
      .called i ∈ history → .returned j ∈ history
  oneByOne : ∃ order : List Nat, order.Pairwise (· < ·) ∧
    history.filter (Deed.isInOrder tasks) <+:
      order.flatMap fun i => [.called i, .returned i]

namespace Crew

variable {w : Nat} {c : CanvasRef} {l : TaskList} {σ : Crew}

namespace Order

/-- The threads that are in the middle of an action are the workers or the main thread alone. -/
theorem countP_acting_le (h : σ.Order l) :
    σ.ledger.countP (·.2 = .acting) ≤ max l.maxConcurrent 1 := by
  have hwaiting : ((σ.queue ++ σ.inOrder).map (·, Point.waiting)).countP (·.2 = .acting) = 0 := by
    rw [List.countP_eq_zero]
    intro e he
    obtain ⟨task, -, rfl⟩ := List.mem_map.mp he
    exact Bool.false_ne_true
  have hsettled : σ.settled.countP (·.2 = .acting) = 0 := by
    rw [List.countP_eq_zero]
    intro e he
    obtain ⟨⟨task, fate⟩, -, rfl⟩ := List.mem_map.mp he
    cases fate <;> exact Bool.false_ne_true
  have hledger : σ.ledger.countP (·.2 = .acting) ≤ σ.held.length := by
    rw [ledger, List.countP_append, List.countP_append, hwaiting, hsettled, Nat.zero_add,
      Nat.add_zero]
    exact List.countP_le_length
  refine Nat.le_trans hledger ?_
  by_cases joined : σ.isJoined = true
  · have hworkers : σ.workers.filterMap Stage.entry? = [] := by
      rw [List.filterMap_eq_nil_iff]
      intro stage hstage
      rw [of_decide_eq_true (List.all_eq_true.mp joined stage hstage)]
      rfl
    have hheld : σ.held.length ≤ 1 := by
      rw [held, stages, ← List.singleton_append, List.filterMap_append, hworkers, List.append_nil]
      exact List.length_filterMap_le _ _
    exact Nat.le_trans hheld (Nat.le_max_right _ _)
  · have free : σ.main = .free := by
      by_contra hbusy
      exact joined (h.joined (Or.inl hbusy))
    have hheld : σ.held.length ≤ σ.workers.length := by
      rw [held, stages, free, List.filterMap_cons_none rfl]
      exact List.length_filterMap_le _ _
    refine Nat.le_trans hheld ?_
    rw [h.size]
    exact Nat.min_le_left _ _

/-- As soon as the action of a task that is followed in order is called, all workers have left. -/
theorem joined_of_called (h : σ.Order l) {q : QueuedTask} (hq : q ∈ l.followers)
    (called : .called q.index ∈ σ.history) : σ.isJoined = true := by
  refine h.joined ?_
  by_contra hidle
  rw [not_or, not_not, not_not] at hidle
  have hmem : .called q.index ∈ σ.history.filter l.follows :=
    List.mem_filter.mpr ⟨called, follows_of_mem hq rfl⟩
  rw [h.history, hidle.1, hidle.2] at hmem
  cases hmem

theorem exists_order (ready : l.Ready) (h : σ.Order l) :
    ∃ order : List Nat, order.Pairwise (· < ·) ∧
      σ.history.filter l.follows <+: order.flatMap fun i => [.called i, .returned i] := by
  let executed := σ.followed.filter (·.2 = .executed)
  refine ⟨(executed.map Prod.fst ++ σ.main.entry?.toList.map Prod.fst).map QueuedTask.index, ?_, ?_⟩
  · -- the tasks executed so far and the one in progress are among those that are followed, in order
    have hsublist : (executed.map Prod.fst ++ σ.main.entry?.toList.map Prod.fst).Sublist
        l.followers := by
      have hfollowers := congrArg (List.map Prod.fst) h.sequence
      rw [map_fst_followedBy, List.map_append, map_fst_ahead] at hfollowers
      rw [← hfollowers]
      exact (List.filter_sublist.map _).append (List.sublist_append_left _ _)
    rw [List.pairwise_map]
    exact (ready.sorted.filter _).sublist hsublist
  · have hdeeds : σ.main.deeds <+:
        (σ.main.entry?.toList.map (·.1.index)).flatMap fun i => [.called i, .returned i] := by
      cases σ.main with
      | acting task title steps => exact ⟨[.returned task.index], rfl⟩
      | ended task => exact List.prefix_rfl
      | free | taken task | begun task | gone => exact List.nil_prefix
    rw [h.history, List.map_append, List.flatMap_append, List.map_map, List.map_map,
      List.flatMap_map]
    exact (List.prefix_append_right_inj _).mpr hdeeds

end Order

theorem disciplined (accounts : σ.Accounts w c l) (h : σ.Order l) {tasks : List NewTask}
    (stands : l.Stands tasks 0 []) : Disciplined tasks l.maxConcurrent σ.history := by
  have hcount (i : Nat) : σ.history.count (.returned i) ≤ σ.history.count (.called i) ∧
      σ.history.count (.called i) ≤ 1 := by
    have hpoint (p : Point) : p.returns ≤ p.calls ∧ p.calls ≤ 1 := by cases p <;> decide
    rcases accounts.queued_or_untouched i with ⟨q, hq, rfl⟩ | ⟨huncalled, hunreturned⟩
    · obtain ⟨p, hp⟩ := accounts.exists_entry hq
      rw [accounts.calls _ hp, accounts.returns _ hp]
      exact hpoint p
    · rw [huncalled, hunreturned]
      decide
  have hfollower {i : Nat} {task : NewTask} (htask : tasks[i]? = some task)
      (hinOrder : task.concurrent = false) : task.queued i ∈ l.followers := by
    refine List.mem_filter.mpr ⟨stands.mem_queue.mpr ⟨i, task, Nat.zero_le i, htask, rfl⟩, ?_⟩
    exact congrArg not hinOrder
  constructor
  case ofTasks =>
    intro deed hdeed
    obtain ⟨task, -, htask, -⟩ := accounts.task_of_deed stands hdeed
    exact (List.getElem?_eq_some_iff.mp htask).1
  case once => exact fun i => (hcount i).2
  case returned => exact fun i => (hcount i).1
  case bounded =>
    rw [accounts.running]
    exact Nat.add_le_add_left h.countP_acting_le _
  case concurrentFirst =>
    intro i task j other htask hinOrder hother concurrent called
    have joined := h.joined_of_called (hfollower htask hinOrder) called
    have hq := stands.mem_queue.mpr ⟨j, other, Nat.zero_le j, hother, rfl⟩
    have hthrough := Order.executed_of_joined accounts h joined hq concurrent
    have hreturned := accounts.returns _ (Order.mem_ledger_of_through hthrough)
    exact List.count_pos_iff.mp (hreturned ▸ Nat.one_pos)
  case oneByOne =>
    have hfollows : σ.history.filter (Deed.isInOrder tasks) = σ.history.filter l.follows := by
      refine List.filter_congr fun deed _ => ?_
      rw [Bool.eq_iff_iff, TaskList.follows, List.any_eq_true, Deed.isInOrder]
      constructor
      · intro hinOrder
        cases htask : tasks[deed.index]? with
        | none =>
            rw [htask] at hinOrder
            cases hinOrder
        | some task =>
            rw [htask, Option.any_some, Bool.not_eq_true'] at hinOrder
            exact ⟨_, hfollower htask hinOrder, decide_eq_true rfl⟩
      · rintro ⟨q, hq, hindex⟩
        obtain ⟨hmem, hinOrder⟩ := List.mem_filter.mp hq
        obtain ⟨i, task, -, htask, rfl⟩ := stands.mem_queue.mp hmem
        rw [show deed.index = i from (of_decide_eq_true hindex).symm, htask]
        exact hinOrder
    rw [hfollows]
    exact h.exists_order stands.ready

end Crew

namespace Scene

/-- One run of a list that is fresh but for its tasks. The first frame is drawn; whatever order the
threads make their sections in, the actions are called and return in a disciplined way, the threads
can all come to their end, and when they have the run comes to what its tasks call for. The run of
one thread after the other is one of these. It is taken that the threads themselves can be made. -/
theorem schedules_agree {s : Scene} {w : Nat} {l : TaskList} {tasks : List NewTask}
    (records : l.records = []) (queue : l.queue = [])
    (hl : s.tasks? w = some (l.addAll tasks)) (reliable : s.ReliableSlot l.slot) :
    (s.openTasks w (l.addAll tasks)).drawn = .ok () ∧
      (∀ moves,
        Disciplined tasks l.maxConcurrent (s.crewAfter w (l.addAll tasks) moves).history ∧
        (∃ more, (s.crewAfter w (l.addAll tasks) (moves ++ more)).isOver = true) ∧
        ((s.crewAfter w (l.addAll tasks) moves).isOver = true →
          ∃ l', (s.conclude w (l.addAll tasks)
              (s.crewAfter w (l.addAll tasks) moves)).2.tasks? w = some l' ∧
            Concluded tasks l.continueOnError 0 [] (s.crewAfter w (l.addAll tasks) moves).history
              (s.conclude w (l.addAll tasks) (s.crewAfter w (l.addAll tasks) moves)).1 l')) ∧
      ∃ moves, (s.crewAfter w (l.addAll tasks) moves).isOver = true ∧
        s.conclude w (l.addAll tasks) (s.crewAfter w (l.addAll tasks) moves) = s.runTasks w := by
  have stands := (TaskList.stands_fresh records queue).addAll tasks
  rw [List.nil_append] at stands
  obtain ⟨hslot, hcontinues, hlimit⟩ := l.addAll_settings tasks
  rw [← hslot] at reliable
  obtain ⟨hdrawn, -, -⟩ := openTasks_of_reliable hl reliable
  refine ⟨hdrawn, fun moves => ⟨?_, ?_, fun ended => ?_⟩, ?_⟩
  · obtain ⟨accounts, order⟩ := kept_crewAfter stands hl reliable moves
    have disciplined := Crew.disciplined accounts order (stands.withSlot _)
    rwa [show TaskList.maxConcurrent { l.addAll tasks with slot := _ } = l.maxConcurrent from
      hlimit]
      at disciplined
  · obtain ⟨more, ended⟩ := Crew.exists_over w (s.openTasks w (l.addAll tasks)).canvas
      (s.crewAfter w (l.addAll tasks) moves)
    refine ⟨more, ?_⟩
    rw [crewAfter, Crew.after, List.foldl_append]
    exact ended
  · obtain ⟨l', hl', -, -, -, settled⟩ := concluded_crewAfter stands hl reliable ended
    exact ⟨l', hl', hcontinues ▸ settled⟩
  · obtain ⟨moves, ended, hscene⟩ := Crew.exists_oneByOne w (s.openTasks w (l.addAll tasks)).canvas
      (s.openTasks w (l.addAll tasks)).scene (l.addAll tasks)
    refine ⟨moves, ended, ?_⟩
    rw [runTasks_eq hl hdrawn, ← hscene]
    rfl

/-- A list of two tasks, of which the concurrent one fails. -/
def failingFirst : List NewTask :=
  [{ title := "Deploy", action := { outcome := .done .success } },
    { title := "Build"
      concurrent := true
      action := { steps := [.redraws 1], outcome := .failed .error "no space" } }]

def failingFirstScene : Scene :=
  { widgets := #[.tasks (TaskList.addAll { slot := .owned {} } failingFirst)] }

/-- The worker makes its sections while the list is redrawn and time passes; then the main thread
goes on. -/
def failingFirstMoves : List Crew.Move :=
  [.advance .main, .advance (.worker 0), .advance (.worker 0), .redraw, .advance (.worker 0),
    .advance (.worker 0), .elapse 5, .advance .main, .advance (.worker 0), .advance (.worker 0),
    .advance (.worker 0), .advance .main, .redraw, .advance .main]

theorem schedules_agree_failingFirst :
    let l : TaskList := { slot := .owned {} }
    let s := failingFirstScene
    let σ := s.crewAfter 0 (l.addAll failingFirst) failingFirstMoves
    (l.records = [] ∧ l.queue = [] ∧ s.tasks? 0 = some (l.addAll failingFirst) ∧
      s.ReliableSlot l.slot) ∧
    (σ.isOver = true ∧ σ.history = [.called 1, .returned 1]) ∧
    Disciplined failingFirst 5 σ.history ∧
    ∃ l', (s.conclude 0 (l.addAll failingFirst) σ).2.tasks? 0 = some l' ∧
      Concluded failingFirst false 0 [] σ.history
        (s.conclude 0 (l.addAll failingFirst) σ).1 l' := by
  have listed : failingFirstScene.tasks? 0 =
      some (TaskList.addAll { slot := .owned {} } failingFirst) := rfl
  have ended : (failingFirstScene.crewAfter 0 (TaskList.addAll { slot := .owned {} } failingFirst)
      failingFirstMoves).isOver = true := by
    decide +kernel
  obtain ⟨-, agree, -⟩ := schedules_agree (l := { slot := .owned {} }) rfl rfl listed
    Sink.Behavior.willing_faultless
  obtain ⟨disciplined, -, settled⟩ := agree failingFirstMoves
  refine ⟨⟨rfl, rfl, rfl, Sink.Behavior.willing_faultless⟩, ⟨ended, ?_⟩, disciplined, settled ended⟩
  decide +kernel

end Scene

end Inlay
