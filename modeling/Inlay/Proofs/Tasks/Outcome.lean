import Inlay.Proofs.Tasks.Progress

namespace Inlay

/-- A task as it is added to a list. -/
structure NewTask where
  title : Text
  concurrent : Bool := false
  action : TaskAction

namespace NewTask

def fails (task : NewTask) : Bool := task.action.outcome.fails

def failure? (task : NewTask) : Option TaskFailure :=
  match task.action.outcome with
  | .done _ => none
  | .failed _ message => some ⟨task.title, message⟩

theorem failure?_eq_none {task : NewTask} (h : task.fails = false) : task.failure? = none := by
  unfold fails TaskOutcome.fails at h
  unfold failure?
  cases houtcome : task.action.outcome with
  | done state => rfl
  | failed state message =>
      rw [houtcome] at h
      cases h

/-- The task in the queue of a list, with the number of its record. -/
def queued (task : NewTask) (index : Nat) : QueuedTask := ⟨index, task.concurrent, task.action⟩

/-- What the record of a task shows when all runs that it was in are over. -/
def statusAfter (task : NewTask) (index : Nat) (deeds : List Deed) : TaskStatus :=
  if .called index ∈ deeds then task.action.outcome.status else (.skipped, none)

theorem failureOf?_statusAfter (task : NewTask) (index : Nat) (deeds : List Deed) :
    TaskList.failureOf? task.title (task.statusAfter index deeds) =
      if .called index ∈ deeds then task.failure? else none := by
  unfold statusAfter
  split
  · rw [failure?, TaskList.failureOf?]
    cases task.action.outcome <;> rfl
  · rfl

end NewTask

/-- The failures of the tasks that were called, in the order in which the tasks were added. -/
def failuresIn (tasks : List NewTask) (deeds : List Deed) : List TaskFailure :=
  tasks.zipIdx.filterMap fun e => if .called e.2 ∈ deeds then e.1.failure? else none

/-- The states of tasks of which those that were not called were skipped. -/
def statesAfter (tasks : List NewTask) (deeds : List Deed) : List TaskState :=
  tasks.zipIdx.map fun e => (e.1.statusAfter e.2 deeds).1

/-- What a run returns that ends with these failures. -/
def reported : List TaskFailure → Except Failure Unit
  | [] => .ok ()
  | failures => .error (.tasks failures)

/-- The tasks from a number on, as they wait for a run. -/
def queuedFrom (first : Nat) (tasks : List NewTask) : List QueuedTask :=
  ((tasks.drop first).zipIdx first).map fun e => e.1.queued e.2

section

variable {first : Nat} {tasks : List NewTask}

theorem mem_queuedFrom {q : QueuedTask} : q ∈ queuedFrom first tasks ↔
    ∃ i task, first ≤ i ∧ tasks[i]? = some task ∧ task.queued i = q := by
  have hdrop (i : Nat) (h : first ≤ i) : (tasks.drop first)[i - first]? = tasks[i]? := by
    rw [List.getElem?_drop, Nat.add_sub_cancel' h]
  rw [queuedFrom, List.mem_map]
  constructor
  · rintro ⟨⟨task, i⟩, he, rfl⟩
    obtain ⟨hi, htask⟩ := List.mk_mem_zipIdx_iff_le_and_getElem?_sub.mp he
    exact ⟨i, task, hi, (hdrop i hi).symm.trans htask, rfl⟩
  · rintro ⟨i, task, hi, htask, rfl⟩
    refine ⟨(task, i), List.mk_mem_zipIdx_iff_le_and_getElem?_sub.mpr ⟨hi, ?_⟩, rfl⟩
    exact (hdrop i hi).trans htask

theorem pairwise_queuedFrom (first : Nat) (tasks : List NewTask) :
    (queuedFrom first tasks).Pairwise fun q q' => q.index < q'.index := by
  have hindices : ((tasks.drop first).zipIdx first).Pairwise fun e e' => e.2 < e'.2 := by
    refine List.Pairwise.of_map (S := (· < ·)) Prod.snd (fun _ _ h => h) ?_
    rw [List.zipIdx_map_snd]
    exact List.pairwise_lt_range'
  exact hindices.map _ fun _ _ h => h

theorem queuedFrom_append (h : first ≤ tasks.length) (task : NewTask) :
    queuedFrom first (tasks ++ [task]) =
      queuedFrom first tasks ++ [task.queued tasks.length] := by
  have hlast : first + (tasks.drop first).length = tasks.length := by
    rw [List.length_drop, Nat.add_sub_cancel' h]
  rw [queuedFrom, List.drop_append_of_le_length h, List.zipIdx_append, List.map_append, hlast]
  rfl

theorem queuedFrom_length (tasks : List NewTask) : queuedFrom tasks.length tasks = [] := by
  rw [queuedFrom, List.drop_length]
  rfl

end

namespace TaskList

def addAll (l : TaskList) (tasks : List NewTask) : TaskList :=
  tasks.foldl (fun l task => l.add task.title task.concurrent task.action) l

theorem addAll_settings (l : TaskList) (tasks : List NewTask) :
    (l.addAll tasks).slot = l.slot ∧ (l.addAll tasks).continueOnError = l.continueOnError ∧
      (l.addAll tasks).maxConcurrent = l.maxConcurrent := by
  induction tasks generalizing l with
  | nil => exact ⟨rfl, rfl, rfl⟩
  | cons task tasks ih => exact ih _

/-- How a list stands between two runs: the tasks before `first` were in one of the runs so far, in
which `past` was done. -/
structure Stands (tasks : List NewTask) (first : Nat) (past : List Deed) (l : TaskList) :
    Prop where
  within : first ≤ tasks.length
  titles : l.titles = tasks.map NewTask.title
  queue : l.queue = queuedFrom first tasks
  ran : ∀ i task, i < first → tasks[i]? = some task →
    l.status? i = some (task.statusAfter i past)
  pending : ∀ i, first ≤ i → i < tasks.length → l.status? i = some (.pending, none)
  deeds : ∀ deed ∈ past, deed.index < first

theorem stands_fresh {l : TaskList} (records : l.records = []) (queue : l.queue = []) :
    l.Stands [] 0 [] where
  within := Nat.le_refl 0
  titles := by rw [titles, records]; rfl
  queue := queue
  ran := nofun
  pending := nofun
  deeds := nofun

namespace Stands

variable {tasks : List NewTask} {first : Nat} {past : List Deed} {l : TaskList}

theorem length_records (h : l.Stands tasks first past) : l.records.length = tasks.length := by
  rw [← l.length_titles, h.titles, List.length_map]

theorem add (h : l.Stands tasks first past) (task : NewTask) :
    (l.add task.title task.concurrent task.action).Stands (tasks ++ [task]) first past := by
  have hold (i : Nat) (hi : i < tasks.length) :
      (l.add task.title task.concurrent task.action).status? i = l.status? i := by
    rw [status?, TaskList.add, List.getElem?_append_left (h.length_records ▸ hi), status?]
  constructor
  case within => exact Nat.le_trans h.within (by simp)
  case titles =>
    have htitles := congrArg (· ++ [task.title]) h.titles
    simpa [TaskList.titles, TaskList.add] using htitles
  case queue =>
    rw [queuedFrom_append h.within, ← h.queue, ← h.length_records]
    rfl
  case ran =>
    intro i task' hi htask
    have hlt := Nat.lt_of_lt_of_le hi h.within
    rw [hold i hlt]
    rw [List.getElem?_append_left hlt] at htask
    exact h.ran i task' hi htask
  case pending =>
    intro i hi hlt
    rw [List.length_append, List.length_singleton] at hlt
    rcases Nat.lt_succ_iff_lt_or_eq.mp hlt with hlt | rfl
    · rw [hold i hlt]
      exact h.pending i hi hlt
    · rw [status?, TaskList.add, ← h.length_records, List.getElem?_concat_length]
      rfl
  case deeds => exact h.deeds

theorem addAll (h : l.Stands tasks first past) (more : List NewTask) :
    (l.addAll more).Stands (tasks ++ more) first past := by
  induction more generalizing l tasks with
  | nil => rwa [List.append_nil]
  | cons task more ih =>
      have htasks := ih (h.add task)
      rwa [List.append_assoc] at htasks

theorem withSlot (h : l.Stands tasks first past) (slot : Slot) :
    { l with slot := slot }.Stands tasks first past :=
  ⟨h.within, h.titles, h.queue, h.ran, h.pending, h.deeds⟩

theorem ready (h : l.Stands tasks first past) : l.Ready where
  pending := by
    intro q hq
    rw [h.queue] at hq
    obtain ⟨i, task, hi, htask, rfl⟩ := mem_queuedFrom.mp hq
    exact h.pending i hi (List.getElem?_eq_some_iff.mp htask).1
  sorted := h.queue ▸ pairwise_queuedFrom first tasks

theorem mem_queue (h : l.Stands tasks first past) {q : QueuedTask} : q ∈ l.queue ↔
    ∃ i task, first ≤ i ∧ tasks[i]? = some task ∧ task.queued i = q := by
  rw [h.queue, mem_queuedFrom]

theorem hasFailures_iff (h : l.Stands tasks first past) : l.hasFailures = true ↔
    ∃ i task, tasks[i]? = some task ∧ task.fails = true ∧ .called i ∈ past := by
  have hstatus (i : Nat) (task : NewTask) :
      (task.statusAfter i past).2.isSome = true ↔ task.fails = true ∧ .called i ∈ past := by
    unfold NewTask.statusAfter
    split
    · rename_i hcalled
      rw [TaskOutcome.isSome_status]
      exact (and_iff_left hcalled).symm
    · rename_i hcalled
      exact ⟨nofun, fun hmem => absurd hmem.2 hcalled⟩
  rw [TaskList.hasFailures_iff]
  constructor
  · rintro ⟨i, status, hi, hsome⟩
    have hlt : i < tasks.length := by
      obtain ⟨r, hr, -⟩ := Option.map_eq_some_iff.mp hi
      exact h.length_records ▸ (List.getElem?_eq_some_iff.mp hr).1
    have htask := List.getElem?_eq_getElem hlt
    rcases Nat.lt_or_ge i first with hran | hpending
    · rw [h.ran i _ hran htask, Option.some.injEq] at hi
      rw [← hi, hstatus] at hsome
      exact ⟨i, _, htask, hsome⟩
    · rw [h.pending i hpending hlt, Option.some.injEq] at hi
      rw [← hi] at hsome
      cases hsome
  · rintro ⟨i, task, htask, hfails, hcalled⟩
    exact ⟨i, _, h.ran i task (h.deeds _ hcalled) htask, (hstatus i task).mpr ⟨hfails, hcalled⟩⟩

/-- When no task waits, the records show what the runs have done. -/
theorem getElem?_records (h : l.Stands tasks tasks.length past) (i : Nat) :
    l.status? i = tasks[i]?.map (NewTask.statusAfter · i past) := by
  rcases Nat.lt_or_ge i tasks.length with hlt | hge
  · have htask := List.getElem?_eq_getElem hlt
    rw [h.ran i _ hlt htask, htask]
    rfl
  · rw [status?, List.getElem?_eq_none (h.length_records ▸ hge), List.getElem?_eq_none hge]
    rfl

theorem states_eq (h : l.Stands tasks tasks.length past) : l.states = statesAfter tasks past := by
  refine List.ext_getElem? fun i => ?_
  have hstatus := congrArg (Option.map Prod.fst) (h.getElem?_records i)
  rw [status?, Option.map_map, Option.map_map] at hstatus
  rw [states, List.getElem?_map, statesAfter, List.getElem?_map, List.getElem?_zipIdx,
    Option.map_map, Nat.zero_add]
  exact hstatus

theorem failures_eq (h : l.Stands tasks tasks.length past) :
    l.failures = failuresIn tasks past := by
  have hrecords : l.records.map TaskRecord.failure? =
      tasks.zipIdx.map fun e => if .called e.2 ∈ past then e.1.failure? else none := by
    refine List.ext_getElem? fun i => ?_
    rw [List.getElem?_map (l := tasks.zipIdx), List.getElem?_zipIdx, Option.map_map, Nat.zero_add]
    rcases Nat.lt_or_ge i tasks.length with hlt | hge
    · have htask := List.getElem?_eq_getElem hlt
      have htitle : l.titles[i]? = some tasks[i].title := by
        rw [h.titles, List.getElem?_map, htask]
        rfl
      rw [l.getElem?_map_failure? htitle (h.ran i _ hlt htask), htask,
        NewTask.failureOf?_statusAfter]
      rfl
    · rw [List.getElem?_eq_none hge, List.getElem?_eq_none]
      · rfl
      · rwa [List.length_map, h.length_records]
  rw [TaskList.failures_eq, hrecords, List.filterMap_map]
  rfl

end Stands

end TaskList

namespace Crew

variable {w : Nat} {c : CanvasRef} {l : TaskList} {σ : Crew}

theorem Accounts.called_iff (accounts : σ.Accounts w c l) {q : QueuedTask} {fate : Fate}
    (hthrough : (q, fate) ∈ σ.through) : .called q.index ∈ σ.history ↔ fate = .executed := by
  have hcalls := accounts.calls _ (Order.mem_ledger_of_through hthrough)
  rw [← List.count_pos_iff, hcalls]
  cases fate with
  | executed => exact ⟨fun _ => rfl, fun _ => Nat.one_pos⟩
  | skipped => exact ⟨fun hpos => absurd hpos (Nat.lt_irrefl 0), nofun⟩

/-- Nothing is done but for tasks of the queue. -/
theorem Accounts.task_of_deed (accounts : σ.Accounts w c l) {tasks : List NewTask} {first : Nat}
    {past : List Deed} (stands : l.Stands tasks first past) {deed : Deed}
    (hdeed : deed ∈ σ.history) : ∃ task, first ≤ deed.index ∧ tasks[deed.index]? = some task ∧
      task.queued deed.index ∈ l.queue := by
  obtain ⟨q, hq, hindex⟩ := accounts.deeds deed hdeed
  obtain ⟨i, task, hi, htask, rfl⟩ := stands.mem_queue.mp hq
  obtain rfl : i = deed.index := hindex
  exact ⟨task, hi, htask, hq⟩

theorem Accounts.queued_or_untouched (accounts : σ.Accounts w c l) (i : Nat) :
    (∃ q ∈ l.queue, q.index = i) ∨
      σ.history.count (.called i) = 0 ∧ σ.history.count (.returned i) = 0 := by
  refine or_iff_not_imp_left.mpr fun hqueued => ?_
  have hnone (deed : Deed) (hindex : deed.index = i) : σ.history.count deed = 0 := by
    refine List.count_eq_zero.mpr fun hmem => hqueued ?_
    obtain ⟨q, hq, hq'⟩ := accounts.deeds deed hmem
    exact ⟨q, hq, hq'.trans hindex⟩
  exact ⟨hnone (.called i) rfl, hnone (.returned i) rfl⟩

namespace Order

variable (accounts : σ.Accounts w c l) (h : σ.Order l) (ended : σ.isOver = true)

include h ended

theorem joined_of_over : σ.isJoined = true ∧ σ.main = .gone ∧ σ.inOrder = [] := by
  have hgone : σ.main = .gone := of_decide_eq_true ended
  refine ⟨h.joined (Or.inl ?_), hgone, h.retired hgone⟩
  rw [hgone]
  exact nofun

theorem followed_of_over :
    σ.followed = followedBy (!l.continueOnError) l.failsFirst l.followers := by
  obtain ⟨-, hgone, hnone⟩ := h.joined_of_over ended
  have hsequence := h.sequence
  rwa [ahead_of_none (congrArg Stage.entry? hgone), hnone, followedBy, List.append_nil]
    at hsequence

/-- Of the tasks that were followed those come before a task that have lower numbers. -/
theorem mem_before_iff (ready : l.Ready) {q other : QueuedTask} {fate fate' : Fate}
    {before after : List (QueuedTask × Fate)} (hsplit : σ.followed = before ++ (q, fate) :: after)
    (hother : (other, fate') ∈ σ.followed) :
    (other, fate') ∈ before ↔ other.index < q.index := by
  have hfollowers : (σ.followed.map Prod.fst).Pairwise fun t t' => t.index < t'.index := by
    rw [h.followed_of_over ended, map_fst_followedBy]
    exact ready.sorted.filter _
  rw [List.pairwise_map, hsplit] at hfollowers
  obtain ⟨-, hafter, hcross⟩ := List.pairwise_append.mp hfollowers
  refine ⟨fun hmem => hcross _ hmem _ List.mem_cons_self, fun hlt => ?_⟩
  rw [hsplit] at hother
  rcases List.mem_append.mp hother with hmem | hmem
  · exact hmem
  · rcases List.mem_cons.mp hmem with heq | hmem
    · rw [Prod.mk.inj heq |>.1] at hlt
      exact absurd hlt (Nat.lt_irrefl _)
    · exact absurd ((List.pairwise_cons.mp hafter).1 _ hmem) (Nat.lt_asymm hlt)

include accounts

/-- Every task of the run is through, and its action was called and has returned exactly if the task
was executed. -/
theorem exists_fate {q : QueuedTask} (hq : q ∈ l.queue) : ∃ fate : Fate,
    (q, fate) ∈ σ.through ∧ (q, fate.point) ∈ σ.ledger ∧
      σ.history.count (.called q.index) = fate.point.calls ∧
      σ.history.count (.returned q.index) = fate.point.calls := by
  obtain ⟨joined, hgone, hnone⟩ := h.joined_of_over ended
  obtain ⟨p, hp⟩ := accounts.exists_entry hq
  rcases h.cases_of_joined joined hp with ⟨hwaiting, -⟩ | hmain | ⟨fate, hthrough, rfl⟩
  · rw [hnone] at hwaiting
    cases hwaiting
  · rw [hgone] at hmain
    cases hmain
  · refine ⟨fate, hthrough, hp, accounts.calls _ hp, (accounts.returns _ hp).trans ?_⟩
    cases fate <;> rfl

theorem called_of_concurrent {q : QueuedTask} (hq : q ∈ l.queue)
    (concurrent : q.concurrent = true) : .called q.index ∈ σ.history := by
  obtain ⟨joined, -, -⟩ := h.joined_of_over ended
  exact (accounts.called_iff (executed_of_joined accounts h joined hq concurrent)).mpr rfl

theorem failedIn_before_iff (ready : l.Ready) {q : QueuedTask} {fate : Fate}
    {before after : List (QueuedTask × Fate)} (hsplit : σ.followed = before ++ (q, fate) :: after) :
    failedIn before = true ↔ ∃ other ∈ l.queue, other.concurrent = false ∧
      other.fails = true ∧ .called other.index ∈ σ.history ∧ other.index < q.index := by
  rw [failedIn, List.any_eq_true]
  constructor
  · rintro ⟨⟨other, fate'⟩, hmem, hfails⟩
    rw [Bool.and_eq_true, decide_eq_true_eq] at hfails
    have hother : (other, fate') ∈ σ.followed := hsplit ▸ List.mem_append_left _ hmem
    obtain ⟨hthrough, hinOrder⟩ := List.mem_filter.mp hother
    refine ⟨other, accounts.mem_queue (mem_ledger_of_through hthrough), by simpa using hinOrder,
      hfails.2, ?_, (h.mem_before_iff ended ready hsplit hother).mp hmem⟩
    exact (accounts.called_iff hthrough).mpr hfails.1
  · rintro ⟨other, hqueue, hinOrder, hfails, hcalled, hlt⟩
    obtain ⟨fate', hthrough, -⟩ := h.exists_fate accounts ended hqueue
    have hother : (other, fate') ∈ σ.followed :=
      List.mem_filter.mpr ⟨hthrough, by rw [hinOrder]; rfl⟩
    have hexecuted := (accounts.called_iff hthrough).mp hcalled
    refine ⟨(other, fate'), (h.mem_before_iff ended ready hsplit hother).mpr hlt, ?_⟩
    rw [Bool.and_eq_true, decide_eq_true_eq]
    exact ⟨hexecuted, hfails⟩

/-- Which of the tasks that are followed in order are passed over. -/
theorem not_called_iff (ready : l.Ready) {q : QueuedTask} (hq : q ∈ l.followers) :
    .called q.index ∉ σ.history ↔ l.continueOnError = false ∧ (l.hasFailures = true ∨
      ∃ other ∈ l.queue, other.fails = true ∧ .called other.index ∈ σ.history ∧
        (other.concurrent = true ∨ other.index < q.index)) := by
  obtain ⟨hqueue, hinOrder⟩ := List.mem_filter.mp hq
  rw [Bool.not_eq_true'] at hinOrder
  obtain ⟨fate, hthrough, -⟩ := h.exists_fate accounts ended hqueue
  have hfollowed : (q, fate) ∈ σ.followed :=
    List.mem_filter.mpr ⟨hthrough, by rw [hinOrder]; rfl⟩
  obtain ⟨before, after, hsplit⟩ := List.append_of_mem hfollowed
  have hskipped : .called q.index ∉ σ.history ↔ fate = .skipped := by
    rw [accounts.called_iff hthrough]
    cases fate <;> simp
  rw [hskipped, skipped_iff ((h.followed_of_over ended).symm.trans hsplit),
    h.failedIn_before_iff accounts ended ready hsplit, TaskList.failsFirst, Bool.or_eq_true,
    Bool.not_eq_true', or_assoc]
  refine and_congr_right fun _ => or_congr_right ?_
  rw [List.any_eq_true]
  constructor
  · rintro (⟨other, hother, hmem⟩ | ⟨other, hother, -, hfails, hcalled, hlt⟩)
    · rw [Bool.and_eq_true] at hmem
      have hcalled := h.called_of_concurrent accounts ended hother hmem.1
      exact ⟨other, hother, hmem.2, hcalled, Or.inl hmem.1⟩
    · exact ⟨other, hother, hfails, hcalled, Or.inr hlt⟩
  · rintro ⟨other, hother, hfails, hcalled, hcause⟩
    cases hconcurrent : other.concurrent with
    | true => exact Or.inl ⟨other, hother, by rw [hconcurrent, hfails]; rfl⟩
    | false =>
        rw [hconcurrent] at hcause
        have hlt := hcause.resolve_left Bool.false_ne_true
        exact Or.inr ⟨other, hother, hconcurrent, hfails, hcalled, hlt⟩

/-- The list stands after the run as the calls of the runs before and of this one say. -/
theorem stands_of_over {tasks : List NewTask} {first : Nat} {past : List Deed}
    (stands : l.Stands tasks first past) {l' : TaskList} (records : Records l σ.ledger l') :
    l'.Stands tasks tasks.length (past ++ σ.history) := by
  have hnew (i : Nat) (hi : i < first) : .called i ∉ σ.history := by
    intro hcalled
    obtain ⟨-, hge, -⟩ := accounts.task_of_deed stands hcalled
    exact absurd hi (Nat.not_lt.mpr hge)
  constructor
  case within => exact Nat.le_refl _
  case titles => exact records.titles.trans stands.titles
  case queue => rw [records.settings, queuedFrom_length]
  case ran =>
    intro i task hlt htask
    unfold NewTask.statusAfter
    rcases Nat.lt_or_ge i first with hi | hi
    · rw [records.others i ?_, stands.ran i task hi htask]
      · simp [NewTask.statusAfter, hnew i hi]
      · intro q hq hindex
        obtain ⟨j, task', hj, -, rfl⟩ := stands.mem_queue.mp hq
        have heq : j = i := hindex
        exact absurd (heq ▸ hi) (Nat.not_lt.mpr hj)
    · have hq : task.queued i ∈ l.queue := stands.mem_queue.mpr ⟨i, task, hi, htask, rfl⟩
      obtain ⟨fate, hthrough, hledger, -⟩ := h.exists_fate accounts ended hq
      have hpast : .called i ∉ past := fun hcalled =>
        absurd (stands.deeds _ hcalled) (Nat.not_lt.mpr hi)
      have hcalled : .called i ∈ σ.history ↔ fate = .executed :=
        accounts.called_iff hthrough
      refine (records.listed _ hledger).trans (congrArg some ?_)
      cases fate with
      | executed => rw [if_pos (List.mem_append_right _ (hcalled.mpr rfl))]; rfl
      | skipped =>
          rw [if_neg fun hmem => ?_]
          · rfl
          · exact absurd (hcalled.mp ((List.mem_append.mp hmem).resolve_left hpast)) nofun
  case pending => exact fun i hge hlt => absurd hlt (Nat.not_lt.mpr hge)
  case deeds =>
    intro deed hdeed
    rcases List.mem_append.mp hdeed with hdeed | hdeed
    · exact Nat.lt_of_lt_of_le (stands.deeds deed hdeed) stands.within
    · obtain ⟨task, -, htask, -⟩ := accounts.task_of_deed stands hdeed
      exact (List.getElem?_eq_some_iff.mp htask).1

end Order

end Crew

namespace Scene

variable {s : Scene} {w : Nat} {l : TaskList}

/-- A list draws without failure where it is put. -/
def ReliableSlot (s : Scene) : Slot → Prop
  | .owned options => options.behavior.Willing
  | .shared c => s.Reliable c

theorem resolve_of_reliable (hl : s.tasks? w = some l) (h : s.ReliableSlot l.slot) :
    (s.resolve w l.slot).2.Reliable (s.resolve w l.slot).1.1 ∧
      (s.resolve w l.slot).2.tasks? w =
        some { l with slot := .shared (s.resolve w l.slot).1.1 } := by
  obtain ⟨records, queue, continueOnError, maxConcurrent, labels, slot⟩ := l
  cases slot with
  | shared c => exact ⟨h, hl⟩
  | owned options =>
      have hwidget := widgets_of_tasks? hl
      unfold resolve
      dsimp only
      split
      · rename_i widget hnew
        obtain rfl := Option.some.inj (hnew.symm.trans hwidget)
        refine ⟨?_, tasks?_setWidget hnew _⟩
        intro e he
        have hself := Option.some.inj (he.symm.trans Array.getElem?_push_size)
        rw [hself]
        exact ⟨h, fun v hv => List.mem_singleton.mp hv ▸ trivial⟩
      · rename_i hnone
        cases hnone.symm.trans hwidget

theorem openTasks_of_reliable (hl : s.tasks? w = some l) (h : s.ReliableSlot l.slot) :
    (s.openTasks w l).drawn = .ok () ∧
      (s.openTasks w l).scene.Reliable (s.openTasks w l).canvas ∧
      (s.openTasks w l).scene.tasks? w =
        some { l with slot := .shared (s.openTasks w l).canvas, queue := [] } := by
  obtain ⟨hreliable, htasks⟩ := resolve_of_reliable hl h
  obtain ⟨hdrawn, hreliable'⟩ := reliable_run hreliable
  refine ⟨hdrawn, hreliable'.modifyTasks w _, ?_⟩
  exact tasks?_modifyTasks ((tasks?_of_widgets (widgets_run _ _) w).trans htasks) _

theorem closeTasks_of_reliable (hl : s.tasks? w = some l) {c : CanvasRef} (h : s.Reliable c)
    (owned : Bool) :
    (s.closeTasks w c owned).1 = reported l.failures ∧
      (s.closeTasks w c owned).2.tasks? w = some l ∧ (s.closeTasks w c owned).2.Reliable c := by
  obtain ⟨hdrawn, hreliable⟩ := reliable_update_self h
  have htasks : (s.update c).2.tasks? w = some l :=
    (tasks?_of_widgets (widgets_update s c) w).trans hl
  have hclosed : (if owned then (s.update c).2.close c else (s.update c).2).tasks? w = some l ∧
      (if owned then (s.update c).2.close c else (s.update c).2).Reliable c := by
    cases owned with
    | false => exact ⟨htasks, hreliable⟩
    | true => exact ⟨htasks, reliable_close hreliable⟩
  unfold closeTasks
  dsimp only
  rw [hdrawn]
  dsimp only
  rw [hclosed.1, Option.map_some, Option.getD_some]
  cases l.failures with
  | nil => exact ⟨rfl, hclosed⟩
  | cons failure failures => exact ⟨rfl, hclosed⟩

end Scene

/-- What a run has come to that is over: the tasks before `first` were in earlier runs, in which
`past` was done, and `l` is the list afterwards. -/
structure Concluded (tasks : List NewTask) (continues : Bool) (first : Nat)
    (past history : List Deed) (result : Except Failure Unit) (l : TaskList) : Prop where
  own : ∀ deed ∈ history, first ≤ deed.index
  executed : ∀ i task, first ≤ i → tasks[i]? = some task → task.concurrent = true →
    history.count (.called i) = 1
  returned : ∀ i, history.count (.returned i) = history.count (.called i)
  skipped : ∀ i task, first ≤ i → tasks[i]? = some task → task.concurrent = false →
    (.called i ∉ history ↔ continues = false ∧ ∃ j other, tasks[j]? = some other ∧
      other.fails = true ∧ .called j ∈ past ++ history ∧ (other.concurrent = true ∨ j < i))
  states : l.states = statesAfter tasks (past ++ history)
  result : result = reported (failuresIn tasks (past ++ history))

namespace Scene

variable {s : Scene} {w : Nat} {l : TaskList}

/-- The crew of a run after moves in any order. -/
def crewAfter (s : Scene) (w : Nat) (l : TaskList) (moves : List Crew.Move) : Crew :=
  (Crew.start (s.openTasks w l).scene l).after w (s.openTasks w l).canvas moves

/-- The end of a run whose crew is done. -/
def conclude (s : Scene) (w : Nat) (l : TaskList) (σ : Crew) : Except Failure Unit × Scene :=
  σ.scene.closeTasks w (s.openTasks w l).canvas (s.openTasks w l).owned

variable {tasks : List NewTask} {first : Nat} {past : List Deed}

section

variable (stands : l.Stands tasks first past) (hl : s.tasks? w = some l)
  (reliable : s.ReliableSlot l.slot)

include stands hl reliable

theorem kept_crewAfter (moves : List Crew.Move) :
    (s.crewAfter w l moves).Accounts w (s.openTasks w l).canvas
        { l with slot := .shared (s.openTasks w l).canvas } ∧
      (s.crewAfter w l moves).Order { l with slot := .shared (s.openTasks w l).canvas } := by
  obtain ⟨-, hreliable, htasks⟩ := openTasks_of_reliable hl reliable
  have ready := (stands.withSlot (.shared (s.openTasks w l).canvas)).ready
  refine Crew.preserved_after (p := fun σ => σ.Accounts w _ _ ∧ σ.Order _) ?_ ?_ moves
  · rintro σ σ' step ⟨accounts, order⟩
    exact ⟨accounts.step ready step, order.step ready accounts step⟩
  · exact ⟨Crew.accounts_start ready htasks hreliable, Crew.order_start _ _⟩

/-- What a run comes to does not depend on the order of sections, but for the calls in it. -/
theorem concluded_crewAfter {moves : List Crew.Move}
    (ended : (s.crewAfter w l moves).isOver = true) : ∃ l',
      (s.conclude w l (s.crewAfter w l moves)).2.tasks? w = some l' ∧
      (s.conclude w l (s.crewAfter w l moves)).2.ReliableSlot l'.slot ∧
      l'.continueOnError = l.continueOnError ∧
      l'.Stands tasks tasks.length (past ++ (s.crewAfter w l moves).history) ∧
      Concluded tasks l.continueOnError first past (s.crewAfter w l moves).history
        (s.conclude w l (s.crewAfter w l moves)).1 l' := by
  obtain ⟨accounts, order⟩ := kept_crewAfter stands hl reliable moves
  have stands₁ := stands.withSlot (.shared (s.openTasks w l).canvas)
  obtain ⟨l', hl', records⟩ := accounts.records
  have stands' := order.stands_of_over accounts ended stands₁ records
  obtain ⟨hresult, htasks, hreliable⟩ :=
    closeTasks_of_reliable hl' accounts.reliable (s.openTasks w l).owned
  have hslot : l'.slot = .shared (s.openTasks w l).canvas := by rw [records.settings]
  refine ⟨l', htasks, hslot ▸ hreliable, by rw [records.settings], stands', ?_⟩
  constructor
  case own =>
    intro deed hdeed
    obtain ⟨-, hge, -⟩ := accounts.task_of_deed stands₁ hdeed
    exact hge
  case executed =>
    intro i task hi htask concurrent
    have hq := stands₁.mem_queue.mpr ⟨i, task, hi, htask, rfl⟩
    obtain ⟨fate, hthrough, -, hcalls, -⟩ := order.exists_fate accounts ended hq
    have hcalled := order.called_of_concurrent accounts ended hq concurrent
    obtain rfl := (accounts.called_iff hthrough).mp hcalled
    exact hcalls
  case returned =>
    intro i
    rcases accounts.queued_or_untouched i with ⟨q, hq, rfl⟩ | ⟨huncalled, hunreturned⟩
    · obtain ⟨fate, -, -, hcalls, hreturns⟩ := order.exists_fate accounts ended hq
      rw [hcalls, hreturns]
    · rw [huncalled, hunreturned]
  case skipped =>
    intro i task hi htask hinOrder
    have hq : task.queued i ∈ l.followers := by
      refine List.mem_filter.mpr ⟨stands.mem_queue.mpr ⟨i, task, hi, htask, rfl⟩, ?_⟩
      exact congrArg not hinOrder
    refine (order.not_called_iff accounts ended stands₁.ready hq).trans ?_
    refine and_congr_right fun _ => ?_
    rw [stands₁.hasFailures_iff]
    constructor
    · rintro (⟨j, other, hother, hfails, hcalled⟩ | ⟨q, hmem, hfails, hcalled, hcause⟩)
      · refine ⟨j, other, hother, hfails, List.mem_append_left _ hcalled, Or.inr ?_⟩
        exact Nat.lt_of_lt_of_le (stands.deeds _ hcalled) hi
      · obtain ⟨j, other, -, hother, rfl⟩ := stands₁.mem_queue.mp hmem
        exact ⟨j, other, hother, hfails, List.mem_append_right _ hcalled, hcause⟩
    · rintro ⟨j, other, hother, hfails, hcalled, hcause⟩
      rcases List.mem_append.mp hcalled with hcalled | hcalled
      · exact Or.inl ⟨j, other, hother, hfails, hcalled⟩
      · obtain ⟨other', -, hother', hmem⟩ := accounts.task_of_deed stands₁ hcalled
        obtain rfl := Option.some.inj (hother'.symm.trans hother)
        exact Or.inr ⟨other'.queued j, hmem, hfails, hcalled, hcause⟩
  case states => exact stands'.states_eq
  case result => rw [← stands'.failures_eq]; exact hresult

end

end Scene

end Inlay
