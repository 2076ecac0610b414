import Inlay.Proofs.Tasks.Ledger

namespace Inlay

/-- Every task that is queued has a record of its own that was not touched yet. -/
structure TaskList.Ready (l : TaskList) : Prop where
  pending : ∀ task ∈ l.queue, l.status? task.index = some (.pending, none)
  sorted : l.queue.Pairwise fun task task' => task.index < task'.index

theorem TaskList.Ready.nodup {l : TaskList} (h : l.Ready) :
    (l.queue.map QueuedTask.index).Nodup := by
  rw [List.Nodup, List.pairwise_map]
  exact h.sorted.imp Nat.ne_of_lt

namespace Crew

variable {w : Nat} {c : CanvasRef} {l : TaskList} {σ σ' : Crew}

/-- The list of a widget, when the tasks of the ledger have come to where they are there. -/
structure Records (l : TaskList) (ledger : List Entry) (l' : TaskList) : Prop where
  settings : l' = { l with records := l'.records, queue := [] }
  titles : l'.titles = l.titles
  listed : ∀ e ∈ ledger, l'.status? e.1.index = some (e.2.status e.1)
  others : ∀ i, (∀ task ∈ l.queue, task.index ≠ i) → l'.status? i = l.status? i

/-- What holds at any time of a crew that runs the tasks of the list `l`. -/
structure Accounts (w : Nat) (c : CanvasRef) (l : TaskList) (σ : Crew) : Prop where
  covers : (σ.ledger.map Prod.fst).Perm l.queue
  records : ∃ l', σ.scene.tasks? w = some l' ∧ Records l σ.ledger l'
  calls : ∀ e ∈ σ.ledger, σ.history.count (.called e.1.index) = e.2.calls
  returns : ∀ e ∈ σ.ledger, σ.history.count (.returned e.1.index) = e.2.returns
  deeds : ∀ deed ∈ σ.history, ∃ task ∈ l.queue, task.index = deed.index
  running : σ.history.countP Deed.isCall =
    σ.history.countP Deed.isReturn + σ.ledger.countP (·.2 = .acting)
  reliable : σ.scene.Reliable c

theorem Accounts.mem_queue (h : σ.Accounts w c l) {e : Entry} (he : e ∈ σ.ledger) :
    e.1 ∈ l.queue :=
  h.covers.mem_iff.mp (List.mem_map_of_mem he)

theorem Accounts.exists_entry (h : σ.Accounts w c l) {task : QueuedTask} (htask : task ∈ l.queue) :
    ∃ p, (task, p) ∈ σ.ledger := by
  obtain ⟨⟨task', p⟩, he, rfl⟩ := List.mem_map.mp (h.covers.mem_iff.mpr htask)
  exact ⟨p, he⟩

/-- The other entries are about other tasks. -/
theorem Accounts.index_ne (ready : l.Ready) (h : σ.Accounts w c l) {e : Entry}
    {others : List Entry} (hledger : σ.ledger.Perm (e :: others)) :
    ∀ e' ∈ others, e'.1.index ≠ e.1.index := by
  have hcovers := ((hledger.map Prod.fst).symm.trans h.covers).map QueuedTask.index
  have hnodup := hcovers.nodup_iff.mpr ready.nodup
  rw [List.map_cons, List.map_cons, List.nodup_cons] at hnodup
  intro e' he' heq
  refine hnodup.1 (heq ▸ ?_)
  exact List.mem_map_of_mem (List.mem_map_of_mem he')

theorem Accounts.still (h : σ.Accounts w c l) (still : Still w c σ σ') : σ'.Accounts w c l := by
  constructor
  case covers => exact (still.ledger.map Prod.fst).trans h.covers
  case records =>
    obtain ⟨l', hl', hrecords⟩ := h.records
    obtain ⟨l'', hl'', agrees⟩ := still.scene.tasks l' hl'
    refine ⟨l'', hl'', ?_, agrees.titles.trans hrecords.titles, fun e he => ?_, fun i hi => ?_⟩
    · rw [agrees.settings, hrecords.settings]
    · rw [agrees.status?]
      exact hrecords.listed e (still.ledger.mem_iff.mp he)
    · rw [agrees.status?]
      exact hrecords.others i hi
  case calls =>
    intro e he
    rw [still.history]
    exact h.calls e (still.ledger.mem_iff.mp he)
  case returns =>
    intro e he
    rw [still.history]
    exact h.returns e (still.ledger.mem_iff.mp he)
  case deeds =>
    rw [still.history]
    exact h.deeds
  case running =>
    rw [still.history, still.ledger.countP_eq]
    exact h.running
  case reliable => exact still.scene.reliable h.reliable

theorem Accounts.shift (ready : l.Ready) (h : σ.Accounts w c l) {task : QueuedTask}
    {p p' : Point} (shift : Shift w c σ σ' task p p') : σ'.Accounts w c l := by
  obtain ⟨others, hledger, hledger'⟩ := shift.ledger
  have hmem : (task, p) ∈ σ.ledger := hledger.mem_iff.mpr List.mem_cons_self
  have hmem_others (e : Entry) (he : e ∈ others) : e ∈ σ.ledger :=
    hledger.mem_iff.mpr (List.mem_cons_of_mem _ he)
  have hne := h.index_ne ready hledger
  -- a deed about the task is none about another
  have hcount (deed : Deed) (hdeed : deed.index ≠ task.index) :
      σ'.history.count deed = σ.history.count deed := by
    have hnone : (p'.deeds task.index).count deed = 0 :=
      List.count_eq_zero.mpr fun hmem => hdeed (Point.index_of_mem_deeds task.index hmem)
    rw [shift.history, List.count_append, hnone, Nat.add_zero]
  constructor
  case covers => exact ((hledger'.map Prod.fst).trans (hledger.map Prod.fst).symm).trans h.covers
  case records =>
    obtain ⟨l', hl', hrecords⟩ := h.records
    obtain ⟨l'', hl'', hsettings, htitles, hself, hothers⟩ :=
      shift.scene.tasks l' hl' (hrecords.listed _ hmem)
    refine ⟨l'', hl'', ?_, htitles.trans hrecords.titles, fun e he => ?_, fun i hi => ?_⟩
    · rw [hsettings, hrecords.settings]
    · rcases List.mem_cons.mp (hledger'.mem_iff.mp he) with rfl | he
      · exact hself
      · rw [hothers _ (hne e he)]
        exact hrecords.listed e (hmem_others e he)
    · rw [hothers _ (hi task (h.mem_queue hmem)).symm]
      exact hrecords.others i hi
  case calls =>
    intro e he
    rcases List.mem_cons.mp (hledger'.mem_iff.mp he) with rfl | he
    · rw [shift.history, List.count_append, h.calls _ hmem]
      exact shift.next.count_called task.index
    · rw [hcount (.called e.1.index) (hne e he)]
      exact h.calls e (hmem_others e he)
  case returns =>
    intro e he
    rcases List.mem_cons.mp (hledger'.mem_iff.mp he) with rfl | he
    · rw [shift.history, List.count_append, h.returns _ hmem]
      exact shift.next.count_returned task.index
    · rw [hcount (.returned e.1.index) (hne e he)]
      exact h.returns e (hmem_others e he)
  case deeds =>
    intro deed hdeed
    rw [shift.history] at hdeed
    rcases List.mem_append.mp hdeed with hdeed | hdeed
    · exact h.deeds deed hdeed
    · exact ⟨task, h.mem_queue hmem, (Point.index_of_mem_deeds task.index hdeed).symm⟩
  case running =>
    have hrunning := h.running
    rw [hledger.countP_eq] at hrunning
    rw [shift.history, List.countP_append, List.countP_append, hledger'.countP_eq]
    cases shift.next <;>
      simp [Point.deeds, Deed.isCall, Deed.isReturn, List.countP_cons] at hrunning ⊢ <;> omega
  case reliable => exact shift.scene.reliable h.reliable

theorem Accounts.step (ready : l.Ready) (h : σ.Accounts w c l) (step : Step w c σ σ') :
    σ'.Accounts w c l := by
  rcases shift_or_still step with still | ⟨task, p, p', shift⟩
  · exact h.still still
  · exact h.shift ready shift

theorem accounts_start (ready : l.Ready) {s : Scene} (hl : s.tasks? w = some { l with queue := [] })
    (reliable : s.Reliable c) : (start s l).Accounts w c l := by
  have hledger : (start s l).ledger =
      (l.queue.filter QueuedTask.concurrent ++ l.queue.filter fun task => !task.concurrent).map
        (·, .waiting) := by
    have hheld : (start s l).held = [] := by
      rw [held, List.filterMap_eq_nil_iff]
      intro stage hstage
      rcases List.mem_cons.mp hstage with rfl | hstage
      · rfl
      · rw [List.eq_of_mem_replicate hstage]
        rfl
    rw [ledger, hheld, List.append_nil]
    exact List.append_nil _
  have hsplit := List.filter_append_perm QueuedTask.concurrent l.queue
  have hwaiting (e : Entry) (he : e ∈ (start s l).ledger) : e.1 ∈ l.queue ∧ e.2 = .waiting := by
    rw [hledger] at he
    obtain ⟨task, htask, rfl⟩ := List.mem_map.mp he
    exact ⟨hsplit.mem_iff.mp htask, rfl⟩
  constructor
  case covers =>
    rw [hledger, List.map_map]
    change (List.map id _).Perm _
    rw [List.map_id]
    exact hsplit
  case records =>
    refine ⟨_, hl, rfl, rfl, fun e he => ?_, fun _ _ => rfl⟩
    obtain ⟨htask, hpoint⟩ := hwaiting e he
    rw [hpoint]
    exact ready.pending e.1 htask
  case calls =>
    intro e he
    rw [(hwaiting e he).2]
    rfl
  case returns =>
    intro e he
    rw [(hwaiting e he).2]
    rfl
  case deeds => exact nofun
  case running =>
    have hnone : (start s l).ledger.countP (·.2 = .acting) = 0 := by
      rw [List.countP_eq_zero]
      intro e he
      rw [(hwaiting e he).2]
      decide
    rw [hnone]
    rfl
  case reliable => exact reliable

end Crew

end Inlay
