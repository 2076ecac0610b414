import Inlay.Proofs.Threads.Alone
import Inlay.Proofs.Threads.Present
import Inlay.Scene.Spin
/-!
A spinner among threads. Its owner starts it, gives it texts and stops it. While it runs, a
clockwork on a thread of its own moves it on and draws it, until it is told to stop and the call
under way has returned. All other threads make canvases and enter calls on them. Sections that no
other thread disturbs do what the operations on a spinner do in one go.
-/

namespace Inlay

inductive SpinnerCall where
  | start
  | stop
deriving DecidableEq, Repr

namespace Spinning

/-- Where the owner of a spinner is: between two sections of a call, or out of any. -/
inductive Stage where
  | resting
  | starting
  /-- The first frame is being drawn. -/
  | opening (c : CanvasRef)
  | stopping
  /-- The clockwork is told to stop, and has not ended yet. -/
  | joining
  /-- The line is being erased or drawn for the last time. -/
  | ending
  | returned (call : SpinnerCall) (result : Except Failure Unit)
deriving DecidableEq

def Stage.isAtRest : Stage → Bool
  | resting | returned _ _ => true
  | _ => false

/-- Where the clockwork is. It keeps the canvas that it was started for. -/
inductive Clockwork where
  | gone
  | waiting (c : CanvasRef)
  | ticking (c : CanvasRef)
deriving DecidableEq, Repr

inductive Turn where
  | start
  | stop
  | text (text : Text)
  /-- The next section of the owner's call, with what comes of making a thread. -/
  | proceed (thread : Except Fault Unit)
  /-- The next section of the clockwork. -/
  | tick
  | enterCall (t : ThreadRef) (call : Call)
  | advance (t : ThreadRef)
  | make (m : ManagerRef) (canvas : Canvas)

/-- Whether a turn is one of the owner or of the clockwork. -/
def Turn.isOwn : Turn → Bool
  | start | stop | text _ | proceed _ | tick => true
  | enterCall _ _ | advance _ | make _ _ => false

/-- The thread of the owner. -/
def owner : ThreadRef := 0

/-- The thread of the clockwork. -/
def clock : ThreadRef := 1

end Spinning

/-- Threads, one of which owns a spinner. -/
structure Spinning where
  threads : Threads
  stage : Spinning.Stage := .resting
  clockwork : Spinning.Clockwork := .gone
  /-- Whether the clockwork was told to stop. -/
  told : Bool := false
  /-- What the last start returned. -/
  started : Except Failure Unit := .ok ()

/-- The canvas of a spinner since its first start. -/
def Scene.spinnerOn? (s : Scene) (w : Nat) : Option CanvasRef :=
  (s.spinner? w).bind fun sp => sp.canvas.map Prod.fst

namespace Scene

variable {s s' : Scene} {w : Nat} {sp : Spinner}

theorem spinner?_of_widgets (h : s'.widgets = s.widgets) (w : Nat) :
    s'.spinner? w = s.spinner? w := by
  rw [spinner?, h, spinner?]

theorem widget_of_spinner? (hsp : s.spinner? w = some sp) :
    s.widgets[w]? = some (.spinner sp) := by
  unfold spinner? at hsp
  split at hsp
  · rename_i sp' hwidget
    rw [hwidget, Option.some.inj hsp]
  · cases hsp

theorem spinner?_setWidget (hsp : s.spinner? w = some sp) (sp' : Spinner) :
    (s.setWidget w (.spinner sp')).spinner? w = some sp' := by
  rw [spinner?, getElem?_setWidget (widget_of_spinner? hsp)]

theorem spinner?_modifySpinner (hsp : s.spinner? w = some sp) (f : Spinner → Spinner) :
    (s.modifySpinner w f).spinner? w = some (f sp) := by
  rw [modifySpinner, hsp]
  exact spinner?_setWidget hsp (f sp)

/-- A spinner that changes leaves all but the widgets as it is. -/
theorem exists_modifySpinner (s : Scene) (w : Nat) (f : Spinner → Spinner) :
    ∃ widgets, s.modifySpinner w f = s.withWidgets widgets := by
  unfold modifySpinner
  split
  · exact ⟨_, rfl⟩
  · exact ⟨s.widgets, rfl⟩

/-- A spinner with options for a canvas makes it on its first start. -/
theorem spinnerCanvas_of_owned (hsp : s.spinner? w = some sp) (unmade : sp.canvas = none)
    {options : CanvasOptions} (slot : sp.slot = .owned options) :
    (s.spinnerCanvas w sp).1 = s.canvases.size ∧
      (∃ widgets, (s.spinnerCanvas w sp).2 =
        (s.newCanvas options.manager (options.canvasOf w)).2.withWidgets widgets) ∧
      (s.spinnerCanvas w sp).2.spinner? w = some
        { sp with
          slot := .shared s.canvases.size
          canvas := some (s.canvases.size, true) } := by
  let made := (s.newCanvas options.manager (options.canvasOf w)).2
  have hmade : made.spinner? w = some sp := (spinner?_of_widgets rfl w).trans hsp
  have resolved : s.resolve w sp.slot = ((s.canvases.size, true),
      made.setWidget w (.spinner { sp with slot := .shared s.canvases.size })) := by
    rw [slot, resolve]
    dsimp only
    split
    · rename_i widget hwidget
      obtain rfl := Option.some.inj ((widget_of_spinner? hmade).symm.trans hwidget)
      rfl
    · rename_i hnone
      cases (widget_of_spinner? hmade).symm.trans hnone
  rw [spinnerCanvas, unmade]
  dsimp only
  rw [resolved]
  have hset := spinner?_setWidget hmade { sp with slot := .shared s.canvases.size }
  refine ⟨rfl, ?_, spinner?_modifySpinner hset _⟩
  obtain ⟨widgets, heq⟩ := exists_modifySpinner
    (made.setWidget w (.spinner { sp with slot := .shared s.canvases.size })) w
    fun sp => { sp with canvas := some (s.canvases.size, true) }
  exact ⟨widgets, heq⟩

theorem exists_spinner?_spinnerCanvas (hsp : s.spinner? w = some sp) :
    ∃ sp', (s.spinnerCanvas w sp).2.spinner? w = some sp' ∧ sp'.ticker = sp.ticker := by
  cases made : sp.canvas with
  | some resolved =>
      rw [spinnerCanvas, made]
      exact ⟨sp, hsp, rfl⟩
  | none =>
      cases slot : sp.slot with
      | owned options => exact ⟨_, (spinnerCanvas_of_owned hsp made slot).2.2, rfl⟩
      | shared c =>
          rw [spinnerCanvas, made]
          dsimp only
          rw [slot]
          exact ⟨_, spinner?_modifySpinner hsp _, rfl⟩

theorem stopSpinner_of_absent (hsp : s.spinner? w = some sp) (absent : sp.ticker = .absent) :
    s.stopSpinner w = (.ok (), s) := by
  simp only [stopSpinner, hsp, absent, if_true]

section

variable (hsp : s.spinner? w = some sp) (absent : sp.ticker = .absent)
include hsp absent

theorem startSpinner_of_ok
    (hrun : (s.spinnerCanvas w sp).2.run (s.spinnerCanvas w sp).1 = (.ok (), s')) :
    s.startSpinner w none =
      (.ok (), s'.modifySpinner w fun sp => { sp with ticker := .start none }) := by
  simp only [startSpinner, hsp, absent, ne_eq, not_true_eq_false, if_false, hrun]
  rfl

theorem startSpinner_of_error {failure : Failure}
    (hrun : (s.spinnerCanvas w sp).2.run (s.spinnerCanvas w sp).1 = (.error failure, s'))
    (lastTick : Option Nat) (thread : Except Fault Unit) :
    s.startSpinner w lastTick thread = (.error failure, s') := by
  simp only [startSpinner, hsp, absent, ne_eq, not_true_eq_false, if_false, hrun]

theorem startSpinner_of_refused
    (hrun : (s.spinnerCanvas w sp).2.run (s.spinnerCanvas w sp).1 = (.ok (), s'))
    (lastTick : Option Nat) (fault : Fault) :
    s.startSpinner w lastTick (.error fault) = (.error (.output fault), s') := by
  simp only [startSpinner, hsp, absent, ne_eq, not_true_eq_false, if_false, hrun]

/-- After a start without a thread there is nothing to stop. What was drawn stays. -/
theorem stopSpinner_of_refused (lastTick : Option Nat) (fault : Fault) :
    (s.startSpinner w lastTick (.error fault)).2.stopSpinner w =
      (.ok (), (s.startSpinner w lastTick (.error fault)).2) := by
  obtain ⟨sp', hsp', hticker⟩ := exists_spinner?_spinnerCanvas hsp
  have widgets := widgets_run (s.spinnerCanvas w sp).2 (s.spinnerCanvas w sp).1
  have hstart : (s.startSpinner w lastTick (.error fault)).2 =
      ((s.spinnerCanvas w sp).2.run (s.spinnerCanvas w sp).1).2 := by
    cases hrun : (s.spinnerCanvas w sp).2.run (s.spinnerCanvas w sp).1 with
    | mk result s' =>
        cases result with
        | error failure => rw [startSpinner_of_error hsp absent hrun]
        | ok => rw [startSpinner_of_refused hsp absent hrun]
  rw [hstart]
  exact stopSpinner_of_absent ((spinner?_of_widgets widgets w).trans hsp') (hticker.trans absent)

end

end Scene

namespace Spinning

def scene (σ : Spinning) : Scene := σ.threads.scene

def withScene (σ : Spinning) (s : Scene) : Spinning :=
  { σ with threads := σ.threads.withScene s }

def enterCall (σ : Spinning) (t : ThreadRef) (call : Call) : Spinning :=
  { σ with threads := σ.threads.enterCall t call }

def advance (σ : Spinning) (t : ThreadRef) : Spinning :=
  { σ with threads := σ.threads.advance t }

def returnStart (σ : Spinning) (result : Except Failure Unit) : Spinning :=
  { σ with stage := .returned .start result, started := result }

/-- The next section of the owner. Once the first frame is drawn, a thread is made for the
clockwork. If that fails, so does the start; the frame stays, and there is no clockwork. -/
def proceed (σ : Spinning) (w : Nat) (thread : Except Fault Unit) : Spinning :=
  match σ.scene.spinner? w with
  | none => σ
  | some sp =>
      match σ.stage with
      | .resting | .returned _ _ => σ
      | .starting =>
          if sp.ticker ≠ .absent then σ.returnStart (.ok ())
          else
            let (c, s) := σ.scene.spinnerCanvas w sp
            { (σ.withScene s).enterCall owner (.errand (.draw .run c)) with stage := .opening c }
      | .opening c =>
          match σ.threads.activity owner with
          | .returned _ (.ok ()) =>
              match thread with
              | .error fault => σ.returnStart (.error (.output fault))
              | .ok () =>
                  let s := σ.scene.modifySpinner w fun sp => { sp with ticker := .start none }
                  { (σ.withScene s).returnStart (.ok ()) with
                    clockwork := .waiting c
                    told := false }
          | .returned _ (.error failure) => σ.returnStart (.error failure)
          | _ => σ.advance owner
      | .stopping =>
          if sp.ticker = .absent then { σ with stage := .returned .stop (.ok ()) }
          else
            let s := σ.scene.modifySpinner w fun sp => { sp with ticker := .absent }
            { σ.withScene s with
              stage := .joining
              told := true }
      | .joining =>
          match σ.clockwork, sp.canvas with
          | .gone, none => { σ with stage := .returned .stop (.ok ()) }
          | .gone, some (c, _) =>
              let call : DrawCall := if sp.clearOnStop then .clear else .update
              { σ.enterCall owner (.errand (.draw call c)) with stage := .ending }
          | _, _ => σ
      | .ending =>
          match σ.threads.activity owner with
          | .returned _ result => { σ with stage := .returned .stop result }
          | _ => σ.advance owner

/-- The next section of the clockwork. A frame that fails does not end it. -/
def tick (σ : Spinning) (w : Nat) : Spinning :=
  match σ.clockwork with
  | .gone => σ
  | .waiting c =>
      if σ.told then { σ with clockwork := .gone }
      else
        let s := σ.scene.modifySpinner w Spinner.advance
        { (σ.withScene s).enterCall clock (.errand (.draw .update c)) with clockwork := .ticking c }
  | .ticking c =>
      match σ.threads.activity clock with
      | .returned _ _ => { σ with clockwork := .waiting c }
      | _ => σ.advance clock

/-- The other threads know every canvas but the spinner's. -/
def isKnown (σ : Spinning) (w : Nat) (c : CanvasRef) : Bool :=
  c < σ.scene.canvases.size && σ.scene.spinnerOn? w ≠ some c

def turn (σ : Spinning) (w : Nat) : Turn → Spinning
  | .start => if σ.stage.isAtRest then { σ with stage := .starting } else σ
  | .stop => if σ.stage.isAtRest then { σ with stage := .stopping } else σ
  | .text text =>
      if σ.stage.isAtRest then
        { σ.withScene (σ.scene.spinnerText w text) with stage := .resting }
      else σ
  | .proceed thread => σ.proceed w thread
  | .tick => σ.tick w
  | .enterCall t call =>
      if clock < t ∧ call.canvas?.all (σ.isKnown w) then σ.enterCall t call else σ
  | .advance t => if clock < t then σ.advance t else σ
  | .make m canvas =>
      if m < σ.scene.managers.size then σ.withScene (σ.scene.newCanvas m canvas).2 else σ

/-- What turns in any order lead to. -/
def after (σ : Spinning) (w : Nat) (turns : List Turn) : Spinning :=
  turns.foldl (fun σ turn => σ.turn w turn) σ

/-- The sections that the owner makes, each with what it takes and where it leads. -/
inductive Proceeds (w : Nat) (thread : Except Fault Unit) (σ : Spinning) : Spinning → Prop
  | rest : Proceeds w thread σ σ
  | again (sp : Spinner) (hsp : σ.scene.spinner? w = some sp) (stage : σ.stage = .starting)
      (present : sp.ticker ≠ .absent) : Proceeds w thread σ (σ.returnStart (.ok ()))
  | enter (sp : Spinner) (hsp : σ.scene.spinner? w = some sp) (stage : σ.stage = .starting)
      (absent : sp.ticker = .absent) :
      Proceeds w thread σ { (σ.withScene (σ.scene.spinnerCanvas w sp).2).enterCall owner
        (.errand (.draw .run (σ.scene.spinnerCanvas w sp).1)) with
          stage := .opening (σ.scene.spinnerCanvas w sp).1 }
  | advance (drawing : (∃ c, σ.stage = .opening c) ∨ σ.stage = .ending) :
      Proceeds w thread σ (σ.advance owner)
  | opened (sp : Spinner) (hsp : σ.scene.spinner? w = some sp) (c : CanvasRef) (call : Call)
      (stage : σ.stage = .opening c)
      (doing : σ.threads.activity owner = .returned call (.ok ())) (made : thread = .ok ()) :
      Proceeds w thread σ
        { (σ.withScene (σ.scene.modifySpinner w fun sp =>
            { sp with ticker := .start none })).returnStart (.ok ()) with
          clockwork := .waiting c
          told := false }
  | refused (c : CanvasRef) (call : Call) (fault : Fault) (stage : σ.stage = .opening c)
      (doing : σ.threads.activity owner = .returned call (.ok ()))
      (unmade : thread = .error fault) :
      Proceeds w thread σ (σ.returnStart (.error (.output fault)))
  | unopened (c : CanvasRef) (call : Call) (failure : Failure) (stage : σ.stage = .opening c)
      (doing : σ.threads.activity owner = .returned call (.error failure)) :
      Proceeds w thread σ (σ.returnStart (.error failure))
  | idle (sp : Spinner) (hsp : σ.scene.spinner? w = some sp) (stage : σ.stage = .stopping)
      (absent : sp.ticker = .absent) :
      Proceeds w thread σ { σ with stage := .returned .stop (.ok ()) }
  | tell (sp : Spinner) (hsp : σ.scene.spinner? w = some sp) (stage : σ.stage = .stopping)
      (present : sp.ticker ≠ .absent) :
      Proceeds w thread σ
        { σ.withScene (σ.scene.modifySpinner w fun sp => { sp with ticker := .absent }) with
          stage := .joining
          told := true }
  | unmade (sp : Spinner) (hsp : σ.scene.spinner? w = some sp) (stage : σ.stage = .joining)
      (made : sp.canvas = none) : Proceeds w thread σ { σ with stage := .returned .stop (.ok ()) }
  | conclude (sp : Spinner) (hsp : σ.scene.spinner? w = some sp) (stage : σ.stage = .joining)
      (gone : σ.clockwork = .gone) (resolved : CanvasRef × Bool)
      (made : sp.canvas = some resolved) :
      Proceeds w thread σ
        { σ.enterCall owner (.errand (.draw (if sp.clearOnStop then .clear else .update)
          resolved.1)) with stage := .ending }
  | ended (call : Call) (result : Except Failure Unit) (stage : σ.stage = .ending)
      (doing : σ.threads.activity owner = .returned call result) :
      Proceeds w thread σ { σ with stage := .returned .stop result }

theorem proceeds (σ : Spinning) (w : Nat) (thread : Except Fault Unit) :
    Proceeds w thread σ (σ.proceed w thread) := by
  unfold proceed
  split
  · exact .rest
  rename_i sp hsp
  split
  · exact .rest
  · exact .rest
  · split
    · exact .again sp hsp (by assumption) (by assumption)
    · rename_i stage present
      exact .enter sp hsp stage (not_not.mp present)
  · rename_i c stage
    split
    · split
      · exact .refused c _ _ stage (by assumption) rfl
      · exact .opened sp hsp c _ stage (by assumption) rfl
    · exact .unopened c _ _ stage (by assumption)
    · exact .advance (.inl ⟨c, stage⟩)
  · split
    · exact .idle sp hsp (by assumption) (by assumption)
    · exact .tell sp hsp (by assumption) (by assumption)
  · split
    · exact .unmade sp hsp (by assumption) (by assumption)
    · exact .conclude sp hsp (by assumption) (by assumption) _ (by assumption)
    · exact .rest
  · split
    · exact .ended _ _ (by assumption) (by assumption)
    · exact .advance (.inr (by assumption))

open Scene

variable {σ σ' σ'' : Spinning} {w : Nat} {sp : Spinner} {thread : Except Fault Unit}

/-- What sections of the owner and of the clockwork alone lead to. -/
def AloneTo (w : Nat) (thread : Except Fault Unit) : Spinning → Spinning → Prop :=
  Relation.ReflTransGen fun σ σ' => σ' = σ.proceed w thread ∨ σ' = σ.tick w

theorem aloneTo_of_proceed (h : σ.proceed w thread = σ') (later : AloneTo w thread σ' σ'') :
    AloneTo w thread σ σ'' :=
  Relation.ReflTransGen.head (.inl h.symm) later

theorem aloneTo_of_tick (h : σ.tick w = σ') (later : AloneTo w thread σ' σ'') :
    AloneTo w thread σ σ'' :=
  Relation.ReflTransGen.head (.inr h.symm) later

theorem advance_of_isAtRest {τ : Threads} {t : ThreadRef}
    (rest : (τ.activity t).isAtRest = true) : τ.advance t = τ := by
  unfold Threads.advance
  cases hactivity : τ.activity t with
  | idle | returned => rfl
  | _ =>
      rw [hactivity] at rest
      cases rest

theorem aloneTo_sections {t : ThreadRef} {τ : Threads}
    (step : ∀ τ : Threads, τ.scene.widgets = σ.scene.widgets → (τ.activity t).isAtRest = false →
      AloneTo w thread { σ with threads := τ } { σ with threads := τ.advance t })
    (h : Threads.AloneTo t σ.threads τ) :
    AloneTo w thread σ { σ with threads := τ } ∧ τ.scene.widgets = σ.scene.widgets := by
  induction h with
  | refl => exact ⟨.refl, rfl⟩
  | @tail τ₁ τ₂ _ hadvance ih =>
      obtain ⟨hsteps, hwidgets⟩ := ih
      subst hadvance
      refine ⟨?_, (Threads.section_advance τ₁ t).widgets.trans hwidgets⟩
      cases rest : (τ₁.activity t).isAtRest with
      | true =>
          rw [advance_of_isAtRest rest]
          exact hsteps
      | false => exact hsteps.trans (step τ₁ hwidgets rest)

theorem proceed_opening (hsp : σ.scene.spinner? w = some sp) {c : CanvasRef}
    (stage : σ.stage = .opening c) (busy : (σ.threads.activity owner).isAtRest = false) :
    σ.proceed w thread = σ.advance owner := by
  unfold proceed
  rw [hsp, stage]
  dsimp only
  split
  · rename_i hactivity
    rw [hactivity] at busy
    cases busy
  · rename_i hactivity
    rw [hactivity] at busy
    cases busy
  · rfl

theorem proceed_ending (hsp : σ.scene.spinner? w = some sp) (stage : σ.stage = .ending)
    (busy : (σ.threads.activity owner).isAtRest = false) :
    σ.proceed w thread = σ.advance owner := by
  unfold proceed
  rw [hsp, stage]
  dsimp only
  split
  · rename_i hactivity
    rw [hactivity] at busy
    cases busy
  · rfl

theorem proceed_opened (hsp : σ.scene.spinner? w = some sp) {c : CanvasRef} {call : Call}
    (stage : σ.stage = .opening c) (doing : σ.threads.activity owner = .returned call (.ok ())) :
    σ.proceed w (.ok ()) =
      { (σ.withScene (σ.scene.modifySpinner w fun sp =>
          { sp with ticker := .start none })).returnStart (.ok ()) with
        clockwork := .waiting c
        told := false } := by
  simp only [proceed, hsp, stage, doing]

theorem proceed_refused (hsp : σ.scene.spinner? w = some sp) {c : CanvasRef} {call : Call}
    (stage : σ.stage = .opening c) (doing : σ.threads.activity owner = .returned call (.ok ()))
    (fault : Fault) :
    σ.proceed w (.error fault) = σ.returnStart (.error (.output fault)) := by
  simp only [proceed, hsp, stage, doing]

theorem proceed_unopened (hsp : σ.scene.spinner? w = some sp) {c : CanvasRef} {call : Call}
    {failure : Failure} (stage : σ.stage = .opening c)
    (doing : σ.threads.activity owner = .returned call (.error failure)) :
    σ.proceed w thread = σ.returnStart (.error failure) := by
  simp only [proceed, hsp, stage, doing]

theorem proceed_ended (hsp : σ.scene.spinner? w = some sp) {call : Call}
    {result : Except Failure Unit} (stage : σ.stage = .ending)
    (doing : σ.threads.activity owner = .returned call result) :
    σ.proceed w thread = { σ with stage := .returned .stop result } := by
  simp only [proceed, hsp, stage, doing]

theorem tick_ticking {c : CanvasRef} (clockwork : σ.clockwork = .ticking c)
    (busy : (σ.threads.activity clock).isAtRest = false) : σ.tick w = σ.advance clock := by
  unfold tick
  rw [clockwork]
  dsimp only
  split
  · rename_i hactivity
    rw [hactivity] at busy
    cases busy
  · rfl

/-- A clockwork that is told to stop while it waits has ended after its next section. -/
theorem aloneTo_joined (hsp : σ.scene.spinner? w = some sp) (stage : σ.stage = .stopping)
    (present : sp.ticker ≠ .absent)
    (waits : σ.clockwork = .gone ∨ ∃ c, σ.clockwork = .waiting c) :
    AloneTo w thread σ
      { σ.withScene (σ.scene.modifySpinner w fun sp => { sp with ticker := .absent }) with
        stage := .joining
        clockwork := .gone
        told := true } := by
  let s := σ.scene.modifySpinner w fun sp => { sp with ticker := .absent }
  have told : σ.proceed w thread = { σ.withScene s with stage := .joining, told := true } := by
    simp only [proceed, hsp, stage, present, if_false]
    rfl
  refine aloneTo_of_proceed told ?_
  rcases waits with gone | ⟨c, waiting⟩
  · rw [withScene, gone]
    exact .refl
  · refine aloneTo_of_tick ?_ .refl
    simp only [tick, withScene, waiting, if_true]
    rfl

section Undisturbed

variable (hsp : σ.scene.spinner? w = some sp) (free : ∀ m, σ.threads.holder m = none)
include hsp free

/-- A drawing call that the owner has entered, to its end. -/
theorem aloneTo_drawing (call : DrawCall) (c : CanvasRef) {stage : Stage}
    (advances : ∀ {σ' : Spinning}, σ'.scene.spinner? w = some sp → σ'.stage = stage →
      (σ'.threads.activity owner).isAtRest = false → σ'.proceed w thread = σ'.advance owner)
    (rest : (σ.threads.activity owner).isAtRest = true) :
    AloneTo w thread { σ.enterCall owner (.errand (.draw call c)) with stage := stage }
      { σ with
        threads := σ.threads.placed owner (σ.scene.draw c call).2 σ.threads.holder
          (.returned (.errand (.draw call c)) (σ.scene.draw c call).1)
        stage := stage } := by
  let σ₁ : Spinning := { σ.enterCall owner (.errand (.draw call c)) with stage := stage }
  have hsp₁ : σ₁.scene.spinner? w = some sp := by
    change (σ.threads.enterCall owner _).scene.spinner? w = _
    rwa [Threads.scene_enterCall]
  refine (aloneTo_sections (σ := σ₁) (fun τ widgets busy => ?_)
    (Threads.aloneTo_perform σ.threads owner (.errand (.draw call c)) rest free)).1
  exact aloneTo_of_proceed (advances ((spinner?_of_widgets widgets w).trans hsp₁) rfl busy) .refl

theorem aloneTo_start (stage : σ.stage = .starting)
    (rest : (σ.threads.activity owner).isAtRest = true) :
    ∃ σ', AloneTo w thread σ σ' ∧ σ'.scene = (σ.scene.startSpinner w none thread).2 ∧
      σ'.stage = .returned .start (σ.scene.startSpinner w none thread).1 := by
  by_cases absent : sp.ticker = .absent
  · let c := (σ.scene.spinnerCanvas w sp).1
    let σ₁ := σ.withScene (σ.scene.spinnerCanvas w sp).2
    have hproceed : σ.proceed w thread =
        { σ₁.enterCall owner (.errand (.draw .run c)) with stage := .opening c } := by
      simp only [proceed, hsp, stage, absent, ne_eq, not_true_eq_false, if_false]
      rfl
    obtain ⟨sp', hsp₁, -⟩ := exists_spinner?_spinnerCanvas hsp
    have opened : AloneTo w thread _ _ := aloneTo_drawing (σ := σ₁) hsp₁ free .run c
      (fun hsp stage => proceed_opening (c := c) hsp stage) rest
    have hsp₂ : (σ₁.scene.run c).2.spinner? w = some sp' :=
      (spinner?_of_widgets (widgets_run _ c) w).trans hsp₁
    have hdraw : σ₁.scene.draw c .run = σ₁.scene.run c := rfl
    rw [hdraw] at opened
    cases hrun : σ₁.scene.run c with
    | mk result s =>
        rw [hrun] at opened hsp₂
        let τ := σ₁.threads.placed owner s σ₁.threads.holder
          (.returned (.errand (.draw .run c)) result)
        let σ₂ : Spinning := { σ with threads := τ, stage := .opening c }
        have hsp₃ : σ₂.scene.spinner? w = some sp' := hsp₂
        have doing : σ₂.threads.activity owner = _ := Threads.activity_placed ..
        -- what is left is one section, which hands back the result of the drawing or of the thread
        have ends {σ' : Spinning} (h : σ₂.proceed w thread = σ') : AloneTo w thread σ σ' :=
          aloneTo_of_proceed hproceed (opened.trans (aloneTo_of_proceed h .refl))
        cases result with
        | error failure =>
            rw [startSpinner_of_error hsp absent hrun]
            exact ⟨_, ends (proceed_unopened hsp₃ rfl doing), rfl, rfl⟩
        | ok =>
            cases thread with
            | error fault =>
                rw [startSpinner_of_refused hsp absent hrun]
                exact ⟨_, ends (proceed_refused hsp₃ rfl doing fault), rfl, rfl⟩
            | ok =>
                rw [startSpinner_of_ok hsp absent hrun]
                exact ⟨_, ends (proceed_opened hsp₃ rfl doing), rfl, rfl⟩
  · have hproceed : σ.proceed w thread = σ.returnStart (.ok ()) := by
      simp only [proceed, hsp, stage, absent, ne_eq, not_false_eq_true, if_true]
    refine ⟨_, aloneTo_of_proceed hproceed .refl, ?_, ?_⟩
    · simp only [startSpinner, hsp, absent, ne_eq, not_false_eq_true, if_true]
      rfl
    · simp only [startSpinner, hsp, absent, ne_eq, not_false_eq_true, if_true]
      rfl

theorem aloneTo_stop (stage : σ.stage = .stopping)
    (waits : σ.clockwork = .gone ∨ ∃ c, σ.clockwork = .waiting c)
    (rest : (σ.threads.activity owner).isAtRest = true) :
    ∃ σ', AloneTo w thread σ σ' ∧ σ'.scene = (σ.scene.stopSpinner w).2 ∧
      σ'.stage = .returned .stop (σ.scene.stopSpinner w).1 := by
  by_cases absent : sp.ticker = .absent
  · have hproceed : σ.proceed w thread = { σ with stage := .returned .stop (.ok ()) } := by
      simp only [proceed, hsp, stage, absent, if_true]
    rw [stopSpinner_of_absent hsp absent]
    exact ⟨_, aloneTo_of_proceed hproceed .refl, rfl, rfl⟩
  · let s := σ.scene.modifySpinner w fun sp => { sp with ticker := .absent }
    have hsp₁ : s.spinner? w = some { sp with ticker := .absent } := spinner?_modifySpinner hsp _
    let σ₁ : Spinning :=
      { σ.withScene s with stage := .joining, clockwork := .gone, told := true }
    have joined : AloneTo w thread σ σ₁ := aloneTo_joined hsp stage absent waits
    have hsp₂ : σ₁.scene.spinner? w = some { sp with ticker := .absent } := hsp₁
    have joining : σ₁.stage = .joining := rfl
    have gone : σ₁.clockwork = .gone := rfl
    cases made : sp.canvas with
    | none =>
        have hproceed : σ₁.proceed w thread = { σ₁ with stage := .returned .stop (.ok ()) } := by
          simp only [proceed, hsp₂, joining, gone, made]
        refine ⟨_, joined.trans (aloneTo_of_proceed hproceed .refl), ?_⟩
        simp only [stopSpinner, hsp, absent, if_false, made]
        exact ⟨rfl, trivial⟩
    | some resolved =>
        let call : DrawCall := if sp.clearOnStop then .clear else .update
        have hproceed : σ₁.proceed w thread =
            { σ₁.enterCall owner (.errand (.draw call resolved.1)) with stage := .ending } := by
          simp only [proceed, hsp₂, joining, gone, made]
          rfl
        have hstop : σ.scene.stopSpinner w = s.draw resolved.1 call := by
          simp only [stopSpinner, hsp, absent, if_false, made, call]
          cases sp.clearOnStop with
          | true => rfl
          | false => rfl
        have ended : AloneTo w thread _ _ :=
          aloneTo_drawing (σ := σ₁) hsp₁ free call resolved.1 proceed_ending rest
        have hsp₃ : (s.draw resolved.1 call).2.spinner? w = some { sp with ticker := .absent } :=
          (spinner?_of_widgets (widgets_draw s _ call) w).trans hsp₁
        let τ := σ₁.threads.placed owner (s.draw resolved.1 call).2 σ₁.threads.holder
          (.returned (.errand (.draw call resolved.1)) (s.draw resolved.1 call).1)
        let σ₂ : Spinning := { σ₁ with threads := τ, stage := .ending }
        have doing : σ₂.threads.activity owner = _ := Threads.activity_placed ..
        have hended : σ₂.proceed w thread = { σ₂ with stage := .returned .stop _ } :=
          proceed_ended (σ := σ₂) hsp₃ rfl doing
        rw [hstop]
        exact ⟨_, joined.trans (aloneTo_of_proceed hproceed
          (ended.trans (aloneTo_of_proceed hended .refl))), rfl, rfl⟩

omit hsp in
theorem aloneTo_tick {c : CanvasRef} (waits : σ.clockwork = .waiting c) (untold : σ.told = false)
    (rest : (σ.threads.activity clock).isAtRest = true) :
    ∃ σ', AloneTo w thread σ σ' ∧ σ'.scene = σ.scene.tick w c ∧ σ'.clockwork = .waiting c := by
  let s := σ.scene.modifySpinner w Spinner.advance
  let σ₁ : Spinning :=
    { (σ.withScene s).enterCall clock (.errand (.draw .update c)) with clockwork := .ticking c }
  have entered : σ.tick w = σ₁ := by
    simp only [tick, waits, untold, Bool.false_eq_true, if_false]
    rfl
  have ticked : AloneTo w thread _ _ := (aloneTo_sections (σ := σ₁)
    (fun τ _ busy => aloneTo_of_tick (tick_ticking rfl busy) .refl)
    (Threads.aloneTo_perform (σ.threads.withScene s) clock (.errand (.draw .update c)) rest
      free)).1
  refine ⟨_, aloneTo_of_tick entered (ticked.trans (aloneTo_of_tick rfl .refl)), ?_⟩
  simp only [tick, σ₁, Threads.activity_placed]
  exact ⟨rfl, trivial⟩

end Undisturbed

end Spinning

end Inlay
