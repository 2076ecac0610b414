import Inlay.Proofs.Scene.Reliable

namespace Inlay

/-- The state of a record and its error. -/
abbrev TaskStatus := TaskState × Option Text

namespace TaskOutcome

def status : TaskOutcome → TaskStatus
  | done state => (state, none)
  | failed state message => (state, some message)

def fails : TaskOutcome → Bool
  | done _ => false
  | failed _ _ => true

theorem isSome_status (outcome : TaskOutcome) : outcome.status.2.isSome = outcome.fails := by
  cases outcome with
  | done state => rfl
  | failed state message => rfl

end TaskOutcome

def QueuedTask.fails (task : QueuedTask) : Bool := task.action.outcome.fails

namespace TaskRecord

def status (r : TaskRecord) : TaskStatus := (r.state, r.error)

/-- What of a record does not change while its task runs. -/
def face (r : TaskRecord) : Text × TaskStatus := (r.title, r.status)

theorem status_finish {r : TaskRecord} (h : r.error = none) (now : Instant)
    (outcome : TaskOutcome) : (r.finish now outcome).status = outcome.status := by
  cases outcome with
  | done state => exact congrArg (Prod.mk state) h
  | failed state message => rfl

end TaskRecord

namespace TaskList

variable {l l' l'' : TaskList}

def status? (l : TaskList) (index : Nat) : Option TaskStatus :=
  l.records[index]?.map TaskRecord.status

def titles (l : TaskList) : List Text := l.records.map TaskRecord.title

theorem length_titles (l : TaskList) : l.titles.length = l.records.length := List.length_map _

/-- Lists that differ at most in what running tasks say and in when tasks ran. -/
structure Agrees (l l' : TaskList) : Prop where
  settings : l' = { l with records := l'.records }
  faces : l'.records.map TaskRecord.face = l.records.map TaskRecord.face

namespace Agrees

@[refl] theorem refl (l : TaskList) : Agrees l l := ⟨rfl, rfl⟩

theorem trans (h : Agrees l l') (h' : Agrees l' l'') : Agrees l l'' := by
  refine ⟨?_, h'.faces.trans h.faces⟩
  rw [h'.settings, h.settings]

theorem status? (h : Agrees l l') (index : Nat) : l'.status? index = l.status? index := by
  have hface := congrArg (fun faces => (faces[index]?).map Prod.snd) h.faces
  simpa [TaskList.status?, List.getElem?_map, Option.map_map, Function.comp_def,
    TaskRecord.face] using hface

theorem titles (h : Agrees l l') : l'.titles = l.titles := by
  have hface := congrArg (List.map Prod.fst) h.faces
  simpa [TaskList.titles, List.map_map, Function.comp_def, TaskRecord.face] using hface

end Agrees

/-- A change of one record is not seen where nothing is looked at that it changes. -/
theorem map_modify {α β : Type} {g : α → β} {f : α → α} (h : ∀ a, g (f a) = g a) (as : List α)
    (index : Nat) : (as.modify index f).map g = as.map g := by
  refine List.ext_getElem? fun i => ?_
  rw [List.getElem?_map, List.getElem?_modify, List.getElem?_map]
  cases as[i]? with
  | none => rfl
  | some a => by_cases hi : index = i <;> simp [hi, h]

theorem agrees_setProgress (l : TaskList) (index : Nat) (text : Text) :
    Agrees l (l.setProgress index text) :=
  ⟨rfl, map_modify (f := fun r => { r with progress := text }) (fun _ => rfl) l.records index⟩

@[simp] theorem titles_modifyRecord (l : TaskList) (index : Nat) {f : TaskRecord → TaskRecord}
    (h : ∀ r, (f r).title = r.title) : (l.modifyRecord index f).titles = l.titles :=
  map_modify h l.records index

theorem status?_modifyRecord_of_ne (l : TaskList) {index i : Nat} (h : i ≠ index)
    (f : TaskRecord → TaskRecord) : (l.modifyRecord index f).status? i = l.status? i := by
  cases hr : l.records[i]? <;> simp [status?, modifyRecord, hr, h.symm]

theorem status?_modifyRecord {index : Nat} {before after : TaskStatus}
    (h : l.status? index = some before) {f : TaskRecord → TaskRecord}
    (hf : ∀ r, r.status = before → (f r).status = after) :
    (l.modifyRecord index f).status? index = some after := by
  obtain ⟨r, hr, hstatus⟩ := Option.map_eq_some_iff.mp h
  simp [status?, modifyRecord, hr, hf r hstatus]

/-- What a task of a title reports that ended in a status. -/
def failureOf? (title : Text) (status : TaskStatus) : Option TaskFailure :=
  status.2.map fun message => ⟨title, message⟩

theorem getElem?_map_failure? (l : TaskList) {index : Nat} {title : Text} {status : TaskStatus}
    (htitle : l.titles[index]? = some title) (hstatus : l.status? index = some status) :
    (l.records.map TaskRecord.failure?)[index]? = some (failureOf? title status) := by
  obtain ⟨r, hr, rfl⟩ := Option.map_eq_some_iff.mp hstatus
  rw [titles, List.getElem?_map, hr, Option.map_some, Option.some.injEq] at htitle
  rw [List.getElem?_map, hr, ← htitle]
  rfl

theorem failures_eq (l : TaskList) :
    l.failures = (l.records.map TaskRecord.failure?).filterMap id := by
  rw [failures, List.filterMap_map]
  rfl

theorem hasFailures_iff (l : TaskList) :
    l.hasFailures = true ↔ ∃ index status, l.status? index = some status ∧ status.2.isSome := by
  unfold hasFailures
  rw [List.any_eq_true]
  constructor
  · rintro ⟨r, hr, hfailed⟩
    obtain ⟨index, hindex⟩ := List.getElem?_of_mem hr
    exact ⟨index, r.status, by rw [status?, hindex]; rfl, hfailed⟩
  · rintro ⟨index, status, hstatus, hsome⟩
    obtain ⟨r, hr, rfl⟩ := Option.map_eq_some_iff.mp hstatus
    exact ⟨r, List.mem_of_getElem? hr, hsome⟩

end TaskList

namespace Scene

variable {s s' s'' : Scene} {w : Nat} {c : CanvasRef}

theorem tasks?_of_widgets (h : s'.widgets = s.widgets) (w : Nat) : s'.tasks? w = s.tasks? w := by
  rw [tasks?, h]
  rfl

theorem tasks?_setWidget {widget : Widget} (h : s.widgets[w]? = some widget) (l : TaskList) :
    (s.setWidget w (.tasks l)).tasks? w = some l := by
  obtain ⟨hsize, -⟩ := Array.getElem?_eq_some_iff.mp h
  simp [tasks?, setWidget, hsize]

theorem widgets_of_tasks? {l : TaskList} (h : s.tasks? w = some l) :
    s.widgets[w]? = some (.tasks l) := by
  unfold tasks? at h
  split at h
  · rename_i l' hl'
    rw [hl', Option.some.inj h]
  · cases h

theorem tasks?_modifyTasks {l : TaskList} (h : s.tasks? w = some l) (f : TaskList → TaskList) :
    (s.modifyTasks w f).tasks? w = some (f l) := by
  rw [modifyTasks, h]
  exact tasks?_setWidget (widgets_of_tasks? h) (f l)

@[simp] theorem canvases_modifyTasks (s : Scene) (w : Nat) (f : TaskList → TaskList) :
    (s.modifyTasks w f).canvases = s.canvases := by
  unfold modifyTasks
  split
  · rfl
  · rfl

theorem Reliable.modifyTasks (h : s.Reliable c) (w : Nat) (f : TaskList → TaskList) :
    (s.modifyTasks w f).Reliable c :=
  h.of_canvases (by rw [canvases_modifyTasks])

/-- What drawing and running actions do to a scene, as far as the tasks of one widget and the canvas
that they are drawn on are concerned. -/
structure TasksKept (w : Nat) (c : CanvasRef) (s s' : Scene) : Prop where
  tasks : ∀ l, s.tasks? w = some l → ∃ l', s'.tasks? w = some l' ∧ l.Agrees l'
  reliable : s.Reliable c → s'.Reliable c

@[refl] theorem TasksKept.refl (w : Nat) (c : CanvasRef) (s : Scene) : TasksKept w c s s :=
  ⟨fun l h => ⟨l, h, .refl l⟩, id⟩

theorem TasksKept.trans (h : TasksKept w c s s') (h' : TasksKept w c s' s'') :
    TasksKept w c s s'' := by
  refine ⟨fun l hl => ?_, h'.reliable ∘ h.reliable⟩
  obtain ⟨l', hl', agrees⟩ := h.tasks l hl
  obtain ⟨l'', hl'', agrees'⟩ := h'.tasks l' hl'
  exact ⟨l'', hl'', agrees.trans agrees'⟩

theorem tasksKept_of_widgets (hwidgets : s'.widgets = s.widgets)
    (hreliable : s.Reliable c → s'.Reliable c) : TasksKept w c s s' :=
  ⟨fun l h => ⟨l, (tasks?_of_widgets hwidgets w).trans h, .refl l⟩, hreliable⟩

theorem tasksKept_update (s : Scene) (c' : CanvasRef) : TasksKept w c s (s.update c').2 :=
  tasksKept_of_widgets (widgets_update s c') fun h => reliable_update h c'

theorem tasksKept_note (s : Scene) (notes : List Note) : TasksKept w c s (s.note notes) :=
  tasksKept_of_widgets rfl id

theorem tasksKept_elapse (s : Scene) (nanos : Nat) :
    TasksKept w c s { s with watch := s.watch.advance nanos } :=
  tasksKept_of_widgets rfl id

theorem tasksKept_progress (s : Scene) (index : Nat) (text : Text) :
    TasksKept w c s (s.modifyTasks w (·.setProgress index text)) :=
  ⟨fun l h => ⟨_, tasks?_modifyTasks h _, l.agrees_setProgress index text⟩,
    fun h => h.modifyTasks w _⟩

section

variable {R : Scene → Scene → Prop} (refl : ∀ s, R s s)
  (trans : ∀ {s s' s''}, R s s' → R s' s'' → R s s'') (updated : ∀ s c', R s (s.update c').2)

include refl trans updated

theorem related_redraw (s : Scene) (count : Nat) : R s (s.redraw c count) := by
  induction count generalizing s with
  | zero => exact refl s
  | succ count ih => exact trans (updated s c) (ih _)

/-- What reports of progress, notes and updates agree with, a running action agrees with. -/
theorem related_taskStep (noted : ∀ (s : Scene) notes, R s (s.note notes))
    (progressed : ∀ s index text, R s (s.modifyTasks w (·.setProgress index text))) (s : Scene)
    (index : Nat) (title : Text) (step : TaskStep) : R s (s.taskStep w c index title step) := by
  cases step with
  | progress text => exact progressed s index text
  | note text => exact noted s _
  | update canvas => exact trans (updated s canvas) (noted _ _)
  | redraws count => exact trans (related_redraw refl trans updated s count) (noted _ _)

end

theorem tasksKept_taskStep (s : Scene) (index : Nat) (title : Text) (step : TaskStep) :
    TasksKept w c s (s.taskStep w c index title step) :=
  related_taskStep (R := TasksKept w c) (.refl w c) TasksKept.trans tasksKept_update tasksKept_note
    tasksKept_progress s index title step

end Scene

end Inlay
