import Inlay.Proofs.Threads.Kept
import Inlay.Proofs.Threads.Spinning
/-!
A stopped spinner leaves nothing on screen. The clockwork has ended before the owner erases the
line, so nobody else draws the canvas then. If the erasure is refused because another canvas has the
focus, the canvas was erased when the focus was taken from it, and nothing was drawn since. The one
exception is a start that gets no thread for its clockwork: it fails with its first frame drawn, and
as the spinner does not run then, a stop does not erase it.
-/

namespace Inlay

theorem Spinner.exists_advance (sp : Spinner) :
    ∃ frame, sp.advance = { sp with frame := frame } := by
  unfold advance
  split
  · exact ⟨sp.frame, rfl⟩
  · exact ⟨_, rfl⟩

theorem Scene.face?_modifySpinner (s : Scene) (w : Nat) (f : Spinner → Spinner) (c : CanvasRef) :
    (s.modifySpinner w f).face? c = s.face? c := by
  obtain ⟨widgets, heq⟩ := s.exists_modifySpinner w f
  rw [heq]
  rfl

theorem Threads.Kept.modifySpinner {σ : Threads} {c : CanvasRef} (k : σ.Kept c) (w : Nat)
    (f : Spinner → Spinner) : (σ.withScene (σ.scene.modifySpinner w f)).Kept c := by
  obtain ⟨widgets, heq⟩ := σ.scene.exists_modifySpinner w f
  rw [heq]
  exact k.withWidgets widgets

/-- Where a thread is in a drawing call, from its first section to its return. -/
def Activity.InCall (call : DrawCall) (c : CanvasRef) (a : Activity) : Prop :=
  a.IsDrawing call c ∨ ∃ result, a = .returned (.errand (.draw call c)) result

namespace Activity

variable {call : DrawCall} {c : CanvasRef} {a : Activity}

theorem InCall.spares (h : a.InCall call c) (c' : CanvasRef) : a.Spares c' := by
  rcases h with h | ⟨result, rfl⟩
  · cases a with
    | deregistering | shutting | dropping | writing => exact h.elim
    | idle | preparing | waiting | asking | drawing | erasing | leaving | returned => trivial
  · trivial

theorem inCall_start (call : DrawCall) (c : CanvasRef) :
    (Call.errand (.draw call c)).start.InCall call c := by
  cases call with
  | run => exact .inl ⟨rfl, rfl⟩
  | update | clear => exact .inl rfl

theorem spares_of_isAtRest (h : a.isAtRest = true) (c : CanvasRef) : a.Spares c := by
  cases a with
  | deregistering | shutting | dropping | writing => cases h
  | _ => trivial

theorem not_paints_of_isAtRest (h : a.isAtRest = true) (c : CanvasRef) : ¬ a.Paints c := by
  rintro (rfl | rfl)
  · cases h
  · cases h

theorem InCall.eq_of_returned {call' : Call} {result : Except Failure Unit}
    (h : (Activity.returned call' result).InCall call c) : call' = .errand (.draw call c) := by
  rcases h with h | ⟨result', h⟩
  · exact h.elim
  · exact (Activity.returned.inj h).1

end Activity

namespace Threads

open Scene

variable {σ σ' : Threads} {t : ThreadRef} {c : CanvasRef} {call : DrawCall}

theorem activity_enterCall_self (call : Call) (rest : (σ.activity t).isAtRest = true) :
    (σ.enterCall t call).activity t = call.start := by
  rw [enterCall, if_pos rest, activity_enter_self]

theorem activity_enterCall_of_ne (σ : Threads) (call : Call) {t t' : ThreadRef} (h : t' ≠ t) :
    (σ.enterCall t call).activity t' = σ.activity t' := by
  rw [enterCall]
  split
  · exact activity_enter_of_ne σ _ _ h
  · rfl

theorem isAtRest_of_returned {call : Call} {result : Except Failure Unit}
    (doing : σ.activity t = .returned call result) : (σ.activity t).isAtRest = true := by
  rw [doing]
  rfl

theorem inCall_step (h : Section σ t σ') (inCall : (σ.activity t).InCall call c) :
    (σ'.activity t).InCall call c := by
  cases h with
  | rest => exact inCall
  | prepare c' doing =>
      rw [doing] at inCall
      rw [activity_enter_self]
      rcases inCall with ⟨rfl, rfl⟩ | ⟨result, h⟩
      · exact .inl rfl
      · cases h
  | acquire errand doing | allow call' c' doing | refuse call' c' doing =>
      rw [doing] at inCall
      rcases inCall with h | ⟨result, h⟩
      · cases h
        simp [Activity.InCall, Activity.IsDrawing]
      · cases h
  | draw call' c' doing =>
      rw [doing] at inCall
      rw [activity_enter_self]
      rcases inCall with ⟨rfl, rfl⟩ | ⟨result, h⟩
      · exact .inl rfl
      · cases h
  | leave errand result doing =>
      rw [doing] at inCall
      rw [activity_withHolder, activity_enter_self]
      rcases inCall with h | ⟨result', h⟩
      · cases h
        exact .inr ⟨result, rfl⟩
      · cases h
  | grant c' doing | release guard doing | erased c' doing | erase c' other rest doing
  | deregister c' doing | shut c' doing | drop c' doing | write c' sequence doing =>
      rw [doing] at inCall
      rcases inCall with h | ⟨result', h⟩
      · cases h
      · cases h

/-- A thread that has cleared a canvas, or was refused to, finds it blank. -/
def Cleared (σ : Threads) (t : ThreadRef) (c : CanvasRef) : Prop :=
  ∀ result, σ.activity t = .leaving (.draw .clear c) result ∨
    σ.activity t = .returned (.errand (.draw .clear c)) result → σ.scene.Blank c

theorem Kept.cleared_step (k : Kept c σ) (h : Section σ t σ') (cleared : σ.Cleared t c) :
    σ'.Cleared t c := by
  intro result hactivity
  cases h with
  | rest => exact cleared result hactivity
  | refuse call' c' doing refused =>
      simp only [activity_enter_self, Activity.leaving.injEq, Errand.draw.injEq, reduceCtorEq,
        or_false] at hactivity
      obtain ⟨⟨rfl, rfl⟩, -⟩ := hactivity
      exact k.blank_of_refused doing refused
  | draw call' c' doing =>
      simp only [activity_enter_self, Activity.leaving.injEq, Errand.draw.injEq, reduceCtorEq,
        or_false] at hactivity
      obtain ⟨⟨rfl, rfl⟩, -⟩ := hactivity
      exact blank_eraseUnlessClosed k.here k.opened
  | leave errand result' doing =>
      simp only [activity_withHolder, activity_enter_self, Activity.returned.injEq, reduceCtorEq,
        Call.errand.injEq, false_or] at hactivity
      obtain ⟨rfl, rfl⟩ := hactivity
      exact cleared _ (.inl doing)
  | _ => simp at hactivity

end Threads

namespace Spinning

open Scene

variable {σ σ' : Spinning} {w : Nat} {c : CanvasRef} {sp : Spinner} {ticker : Ticker}
  {thread : Except Fault Unit}

theorem owner_lt_clock : owner < clock := by decide

/-- A canvas is blank, unless the last start failed and left its first frame there. -/
def Spotless (c : CanvasRef) (σ : Spinning) : Prop := σ.started = .ok () → σ.scene.Blank c

/-- Where the owner is with the canvas of its spinner. Once the clockwork has ended and the owner
has cleared the canvas, or never drew it, the canvas is spotless. -/
def Staged (c : CanvasRef) (ticker : Ticker) (σ : Spinning) : Prop :=
  match σ.stage with
  | .resting | .starting | .stopping | .returned .start _ =>
      (σ.threads.activity owner).isAtRest = true ∧
        (ticker = .absent → σ.clockwork = .gone ∧ σ.Spotless c)
  | .opening c' =>
      c' = c ∧ (σ.threads.activity owner).InCall .run c ∧ ticker = .absent ∧ σ.clockwork = .gone
  | .joining => (σ.threads.activity owner).isAtRest = true ∧ ticker = .absent
  | .ending =>
      (σ.threads.activity owner).InCall .clear c ∧ ticker = .absent ∧ σ.clockwork = .gone ∧
        σ.threads.Cleared owner c
  | .returned .stop _ =>
      (σ.threads.activity owner).isAtRest = true ∧ ticker = .absent ∧ σ.clockwork = .gone ∧
        σ.Spotless c

/-- Where the clockwork is with the canvas. -/
def Clocked (c : CanvasRef) (σ : Spinning) : Prop :=
  match σ.clockwork with
  | .gone => (σ.threads.activity clock).isAtRest = true
  | .waiting c' => c' = c ∧ (σ.threads.activity clock).isAtRest = true
  | .ticking c' => c' = c ∧ (σ.threads.activity clock).InCall .update c

theorem Staged.congr (h : σ.Staged c ticker) (stage : σ'.stage = σ.stage)
    (started : σ'.started = σ.started) (clockwork : σ.clockwork = .gone → σ'.clockwork = .gone)
    (activity : σ'.threads.activity owner = σ.threads.activity owner)
    (blank : σ.clockwork = .gone → σ.scene.Blank c → σ'.scene.Blank c) :
    σ'.Staged c ticker := by
  unfold Staged at h ⊢
  rw [stage, activity]
  have spotless (gone : σ.clockwork = .gone) (hspotless : σ.Spotless c) : σ'.Spotless c :=
    fun hstarted => blank gone (hspotless (started.symm.trans hstarted))
  have ready (idle : ticker = .absent → σ.clockwork = .gone ∧ σ.Spotless c)
      (absent : ticker = .absent) : σ'.clockwork = .gone ∧ σ'.Spotless c :=
    have ⟨gone, hspotless⟩ := idle absent
    ⟨clockwork gone, spotless gone hspotless⟩
  generalize σ.stage = stage at h ⊢
  cases stage with
  | resting | starting | stopping => exact h.imp_right ready
  | opening c' => exact ⟨h.1, h.2.1, h.2.2.1, clockwork h.2.2.2⟩
  | joining => exact h
  | ending =>
      obtain ⟨inCall, absent, gone, cleared⟩ := h
      refine ⟨inCall, absent, clockwork gone, fun result hactivity => blank gone ?_⟩
      rw [activity] at hactivity
      exact cleared result hactivity
  | returned call result =>
      cases call with
      | start => exact h.imp_right ready
      | stop =>
          obtain ⟨rest, absent, gone, hspotless⟩ := h
          exact ⟨rest, absent, clockwork gone, spotless gone hspotless⟩

theorem Staged.of_isAtRest (h : σ.Staged c ticker) (rest : σ.stage.isAtRest = true) :
    (σ.threads.activity owner).isAtRest = true ∧
      (ticker = .absent → σ.clockwork = .gone ∧ σ.Spotless c) := by
  unfold Staged at h
  generalize σ.stage = stage at h rest
  cases stage with
  | resting => exact h
  | returned call result =>
      cases call with
      | start => exact h
      | stop => exact ⟨h.1, fun _ => h.2.2⟩
  | starting | opening | stopping | joining | ending => cases rest

theorem Clocked.congr (h : σ.Clocked c) (clockwork : σ'.clockwork = σ.clockwork)
    (activity : σ'.threads.activity clock = σ.threads.activity clock) : σ'.Clocked c := by
  unfold Clocked at h ⊢
  rw [clockwork, activity]
  exact h

/-- The invariant of a spinner that has made its canvas. -/
structure Fit (w : Nat) (c : CanvasRef) (σ : Spinning) : Prop where
  kept : σ.threads.Kept c
  others : ∀ t, clock < t → (σ.threads.activity t).canvas? ≠ some c
  spinner : ∃ sp, σ.scene.spinner? w = some sp ∧ sp.canvas = some (c, true) ∧
    sp.clearOnStop = true ∧ σ.Staged c sp.ticker
  clocked : σ.Clocked c
  returned : ∀ result, σ.stage = .returned .stop result → result = .ok ()

/-- What other threads do beside a spinner. -/
structure Beside (c : CanvasRef) (σ : Spinning) (τ : Threads) : Prop where
  kept : τ.Kept c
  others : ∀ t, clock < t → (τ.activity t).canvas? ≠ some c
  owner : τ.activity owner = σ.threads.activity owner
  clock : τ.activity clock = σ.threads.activity clock
  widgets : τ.scene.widgets = σ.scene.widgets
  still : Still c σ.scene τ.scene

namespace Fit

theorem spares_owner (fit : Fit w c σ) : (σ.threads.activity owner).Spares c := by
  obtain ⟨sp, -, -, -, staged⟩ := fit.spinner
  unfold Staged at staged
  generalize σ.stage = stage at staged
  cases stage with
  | resting | starting | stopping | joining => exact Activity.spares_of_isAtRest staged.1 c
  | opening c' => exact staged.2.1.spares c
  | ending => exact staged.1.spares c
  | returned call result =>
      cases call with
      | start | stop => exact Activity.spares_of_isAtRest staged.1 c

theorem spares_clock (fit : Fit w c σ) : (σ.threads.activity clock).Spares c := by
  have clocked := fit.clocked
  unfold Clocked at clocked
  split at clocked
  · exact Activity.spares_of_isAtRest clocked c
  · exact Activity.spares_of_isAtRest clocked.2 c
  · exact clocked.2.spares c

theorem beside (fit : Fit w c σ) {τ : Threads} (h : σ.Beside c τ) :
    Fit w c { σ with threads := τ } := by
  obtain ⟨sp, hsp, made, clears, staged⟩ := fit.spinner
  refine ⟨h.kept, h.others, ⟨sp, (spinner?_of_widgets h.widgets w).trans hsp, made, clears, ?_⟩,
    fit.clocked.congr rfl h.clock, fit.returned⟩
  exact staged.congr rfl rfl id h.owner fun _ blank => (h.still blank).1

theorem restage (fit : Fit w c σ) (hsp : σ.scene.spinner? w = some sp) {stage : Stage}
    {started : Except Failure Unit}
    (staged : Staged c sp.ticker { σ with stage := stage, started := started })
    (returned : ∀ result, stage = .returned .stop result → result = .ok ()) :
    Fit w c { σ with stage := stage, started := started } := by
  obtain ⟨sp', hsp', made, clears, -⟩ := fit.spinner
  obtain rfl := Option.some.inj (hsp'.symm.trans hsp)
  exact ⟨fit.kept, fit.others, ⟨sp', hsp, made, clears, staged⟩, fit.clocked, returned⟩

theorem kept_enterCall (fit : Fit w c σ) (t : ThreadRef) (call : DrawCall) :
    (σ.threads.enterCall t (.errand (.draw call c))).Kept c :=
  fit.kept.enterCall t fun _ hcanvas => Option.some.inj hcanvas ▸ fit.kept.here

/-- The spinner's own threads enter calls without the others' notice. -/
theorem others_enterCall (fit : Fit w c σ) {t : ThreadRef} (own : t ≤ clock) (call : Call)
    (t' : ThreadRef) (other : clock < t') :
    ((σ.threads.enterCall t call).activity t').canvas? ≠ some c := by
  rw [Threads.activity_enterCall_of_ne _ _ (Nat.ne_of_gt (Nat.lt_of_le_of_lt own other))]
  exact fit.others t' other

/-- The owner enters a drawing call on the canvas. -/
theorem enterCall_owner (fit : Fit w c σ) (hsp : σ.scene.spinner? w = some sp) (call : DrawCall)
    {stage : Stage}
    (staged : Staged c sp.ticker { σ.enterCall owner (.errand (.draw call c)) with stage := stage })
    (busy : stage.isAtRest = false) :
    Fit w c { σ.enterCall owner (.errand (.draw call c)) with stage := stage } := by
  obtain ⟨sp', hsp', made, clears, -⟩ := fit.spinner
  obtain rfl := Option.some.inj (hsp'.symm.trans hsp)
  refine ⟨fit.kept_enterCall owner call, fit.others_enterCall (by decide) _,
    ⟨sp', ?_, made, clears, staged⟩, ?_, ?_⟩
  · exact (congrArg (·.spinner? w) (Threads.scene_enterCall _ owner _)).trans hsp
  · exact fit.clocked.congr rfl (Threads.activity_enterCall_of_ne _ _ (by decide))
  · rintro result rfl
    cases busy

theorem advance_owner (fit : Fit w c σ)
    (drawing : (∃ c', σ.stage = .opening c') ∨ σ.stage = .ending) : Fit w c (σ.advance owner) := by
  obtain ⟨sp, hsp, made, clears, staged⟩ := fit.spinner
  have hsection := Threads.section_advance σ.threads owner
  refine ⟨fit.kept.step hsection fit.spares_owner, fun t other => ?_,
    ⟨sp, (spinner?_of_widgets hsection.widgets w).trans hsp, made, clears, ?_⟩,
    fit.clocked.congr rfl (hsection.activity_of_ne (by decide)), fit.returned⟩
  · exact (hsection.canvas?_eq t).trans_ne (fit.others t other)
  · rcases drawing with ⟨c', stage⟩ | stage
    · rw [Staged, stage] at staged
      obtain ⟨rfl, inCall, ready⟩ := staged
      rw [Staged, advance, stage]
      exact ⟨rfl, Threads.inCall_step hsection inCall, ready⟩
    · rw [Staged, stage] at staged
      obtain ⟨inCall, absent, gone, cleared⟩ := staged
      rw [Staged, advance, stage]
      exact ⟨Threads.inCall_step hsection inCall, absent, gone,
        fit.kept.cleared_step hsection cleared⟩

/-- A frame on a canvas that is kept does not fail. -/
theorem drawn_of_opening (fit : Fit w c σ) {c' : CanvasRef} (stage : σ.stage = .opening c')
    {call : Call} {failure : Failure} :
    σ.threads.activity owner ≠ .returned call (.error failure) := by
  intro doing
  obtain ⟨sp, -, -, -, staged⟩ := fit.spinner
  rw [Staged, stage] at staged
  obtain ⟨rfl, inCall, -⟩ := staged
  rw [doing] at inCall
  rw [inCall.eq_of_returned] at doing
  cases fit.kept.drawn owner .run _ (.inr doing)

theorem proceed (fit : Fit w c σ) (thread : Except Fault Unit) :
    Fit w c (σ.proceed w thread) := by
  obtain ⟨sp, hsp, made, clears, staged⟩ := fit.spinner
  have hproceeds := proceeds σ w thread
  generalize σ.proceed w thread = σ' at hproceeds
  cases hproceeds with
  | rest => exact fit
  | again sp' hsp' stage present =>
      obtain rfl := Option.some.inj (hsp'.symm.trans hsp)
      rw [Staged, stage] at staged
      refine fit.restage hsp ⟨staged.1, fun absent => absurd absent present⟩ ?_
      rintro result ⟨⟩
  | enter sp' hsp' stage absent =>
      obtain rfl := Option.some.inj (hsp'.symm.trans hsp)
      have hcanvas : σ.scene.spinnerCanvas w sp' = (c, σ.scene) := by
        rw [spinnerCanvas, made]
      rw [Staged, stage] at staged
      obtain ⟨rest, ready⟩ := staged
      rw [hcanvas]
      have entered := Threads.activity_enterCall_self (.errand (.draw .run c)) rest
      refine fit.enterCall_owner hsp .run ⟨rfl, ?_, absent, (ready absent).1⟩ rfl
      exact entered ▸ Activity.inCall_start .run c
  | advance drawing => exact fit.advance_owner drawing
  | opened sp' hsp' c' call stage doing made' =>
      rw [Staged, stage] at staged
      obtain ⟨rfl, inCall, -, gone⟩ := staged
      refine ⟨fit.kept.modifySpinner w _, fit.others,
        ⟨_, spinner?_modifySpinner hsp _, made, clears, Threads.isAtRest_of_returned doing, ?_⟩,
        ⟨rfl, ?_⟩, ?_⟩
      · intro absent
        cases absent
      · have clocked := fit.clocked
        rw [Clocked, gone] at clocked
        exact clocked
      · rintro result ⟨⟩
  | refused c' call fault stage doing unmade =>
      rw [Staged, stage] at staged
      obtain ⟨-, -, -, gone⟩ := staged
      refine fit.restage hsp ⟨Threads.isAtRest_of_returned doing, fun _ => ⟨gone, ?_⟩⟩ ?_
      · intro well
        cases well
      · rintro result ⟨⟩
  | unopened c' call failure stage doing => exact absurd doing (fit.drawn_of_opening stage)
  | idle sp' hsp' stage absent =>
      obtain rfl := Option.some.inj (hsp'.symm.trans hsp)
      rw [Staged, stage] at staged
      obtain ⟨rest, ready⟩ := staged
      refine fit.restage hsp ⟨rest, absent, ready absent⟩ ?_
      rintro result ⟨⟩
      rfl
  | tell sp' hsp' stage present =>
      rw [Staged, stage] at staged
      refine ⟨fit.kept.modifySpinner w _, fit.others,
        ⟨_, spinner?_modifySpinner hsp _, made, clears, staged.1, rfl⟩, fit.clocked, ?_⟩
      rintro result ⟨⟩
  | unmade sp' hsp' stage unmade =>
      obtain rfl := Option.some.inj (hsp'.symm.trans hsp)
      cases unmade.symm.trans made
  | conclude sp' hsp' stage gone resolved made' =>
      obtain rfl := Option.some.inj (hsp'.symm.trans hsp)
      obtain rfl := Option.some.inj (made'.symm.trans made)
      rw [Staged, stage] at staged
      obtain ⟨rest, absent⟩ := staged
      rw [if_pos clears]
      have entered := Threads.activity_enterCall_self (.errand (.draw .clear c)) rest
      refine fit.enterCall_owner hsp .clear ⟨?_, absent, gone, ?_⟩ rfl
      · exact entered ▸ Activity.inCall_start .clear c
      · intro result hactivity
        rcases hactivity with hactivity | hactivity
        · cases entered.symm.trans hactivity
        · cases entered.symm.trans hactivity
  | ended call result stage doing =>
      rw [Staged, stage] at staged
      obtain ⟨inCall, absent, gone, cleared⟩ := staged
      rw [doing] at inCall
      rw [inCall.eq_of_returned] at doing
      refine fit.restage hsp ⟨Threads.isAtRest_of_returned doing, absent, gone,
        fun _ => cleared _ (.inr doing)⟩ ?_
      rintro result ⟨⟩
      exact fit.kept.drawn owner .clear _ (.inr doing)

/-- Only the owner can find the canvas blank, and not before the clockwork has ended. -/
theorem advance_clock (fit : Fit w c σ) {c' : CanvasRef} (clockwork : σ.clockwork = .ticking c') :
    Fit w c (σ.advance clock) := by
  obtain ⟨sp, hsp, made, clears, staged⟩ := fit.spinner
  have hsection := Threads.section_advance σ.threads clock
  have clocked := fit.clocked
  rw [Clocked, clockwork] at clocked
  refine ⟨fit.kept.step hsection fit.spares_clock, fun t other => ?_,
    ⟨sp, (spinner?_of_widgets hsection.widgets w).trans hsp, made, clears, ?_⟩, ?_, fit.returned⟩
  · exact (hsection.canvas?_eq t).trans_ne (fit.others t other)
  · refine staged.congr rfl rfl id (hsection.activity_of_ne (by decide)) fun gone => ?_
    cases clockwork.symm.trans gone
  · rw [Clocked, advance, clockwork]
    exact ⟨clocked.1, Threads.inCall_step hsection clocked.2⟩

/-- The clockwork turns the spinner on and begins to draw it. -/
theorem enterCall_clock (fit : Fit w c σ) (clockwork : σ.clockwork = .waiting c)
    (rest : (σ.threads.activity clock).isAtRest = true) :
    Fit w c { (σ.withScene (σ.scene.modifySpinner w Spinner.advance)).enterCall clock
      (.errand (.draw .update c)) with clockwork := .ticking c } := by
  obtain ⟨sp, hsp, made, clears, staged⟩ := fit.spinner
  have kept := fit.kept.modifySpinner w Spinner.advance
  have entered := Threads.activity_enterCall_self
    (σ := σ.threads.withScene (σ.scene.modifySpinner w Spinner.advance))
    (.errand (.draw .update c)) rest
  have waits : σ.clockwork ≠ .gone := fun gone => nomatch clockwork.symm.trans gone
  obtain ⟨frame, hadvance⟩ := sp.exists_advance
  have hsp' := spinner?_modifySpinner hsp Spinner.advance
  rw [hadvance] at hsp'
  refine ⟨kept.enterCall clock fun _ h => Option.some.inj h ▸ kept.here, fun t other => ?_,
    ⟨{ sp with frame := frame },
      (congrArg (·.spinner? w) (Threads.scene_enterCall _ clock _)).trans hsp', made, clears, ?_⟩,
    ⟨rfl, entered ▸ Activity.inCall_start .update c⟩, fit.returned⟩
  · exact (congrArg _ (Threads.activity_enterCall_of_ne _ _ (Nat.ne_of_gt other))).trans_ne
      (fit.others t other)
  · exact staged.congr rfl rfl (fun gone => absurd gone waits)
      (Threads.activity_enterCall_of_ne _ _ (by decide)) fun gone => absurd gone waits

theorem tick (fit : Fit w c σ) : Fit w c (σ.tick w) := by
  obtain ⟨sp, hsp, made, clears, staged⟩ := fit.spinner
  have clocked := fit.clocked
  unfold Spinning.tick
  split
  · exact fit
  · rename_i c' clockwork
    rw [Clocked, clockwork] at clocked
    obtain ⟨rfl, rest⟩ := clocked
    split
    · have waits : σ.clockwork ≠ .gone := fun gone => nomatch clockwork.symm.trans gone
      refine ⟨fit.kept, fit.others, ⟨sp, hsp, made, clears, ?_⟩, rest, fit.returned⟩
      exact staged.congr rfl rfl (fun gone => absurd gone waits) rfl fun gone => absurd gone waits
    · exact fit.enterCall_clock clockwork rest
  · rename_i c' clockwork
    rw [Clocked, clockwork] at clocked
    obtain ⟨rfl, inCall⟩ := clocked
    split
    · rename_i call result doing
      have ticks : σ.clockwork ≠ .gone := fun gone => nomatch clockwork.symm.trans gone
      refine ⟨fit.kept, fit.others, ⟨sp, hsp, made, clears, ?_⟩,
        ⟨rfl, Threads.isAtRest_of_returned doing⟩, fit.returned⟩
      exact staged.congr rfl rfl (fun gone => absurd gone ticks) rfl fun gone => absurd gone ticks
    · exact fit.advance_clock clockwork

theorem spinnerOn?_eq (fit : Fit w c σ) : σ.scene.spinnerOn? w = some c := by
  obtain ⟨sp, hsp, made, -⟩ := fit.spinner
  rw [spinnerOn?, hsp, Option.bind_some, made]
  rfl

/-- Calls that other threads enter are about other canvases. -/
theorem beside_enterCall (fit : Fit w c σ) {t : ThreadRef} {call : Call} (other : clock < t)
    (known : call.canvas?.all (σ.isKnown w) = true) : σ.Beside c (σ.threads.enterCall t call) := by
  have hknown : ∀ c', call.canvas? = some c' → c' < σ.scene.canvases.size ∧ c' ≠ c := by
    intro c' hcanvas
    rw [hcanvas, Option.all_some, isKnown, Bool.and_eq_true, decide_eq_true_eq, decide_eq_true_eq,
      fit.spinnerOn?_eq] at known
    exact ⟨known.1, fun heq => known.2 (congrArg some heq.symm)⟩
  refine ⟨fit.kept.enterCall t fun c' h => (hknown c' h).1, fun t' hother => ?_,
    Threads.activity_enterCall_of_ne _ _ (Nat.ne_of_lt (Nat.lt_trans owner_lt_clock other)),
    Threads.activity_enterCall_of_ne _ _ (Nat.ne_of_lt other), ?_, ?_⟩
  · rw [Threads.enterCall]
    split
    · by_cases heq : t' = t
      · rw [heq, Threads.activity_enter_self, Call.canvas?_start]
        exact fun h => (hknown c h).2 rfl
      · rw [Threads.activity_enter_of_ne _ _ _ heq]
        exact fit.others t' hother
    · exact fit.others t' hother
  · rw [Threads.scene_enterCall]
    rfl
  · rw [Threads.scene_enterCall]
    rfl

theorem beside_advance (fit : Fit w c σ) {t : ThreadRef} (other : clock < t) :
    σ.Beside c (σ.threads.advance t) := by
  have hsection := Threads.section_advance σ.threads t
  have spares := Activity.spares_of_canvas? (fit.others t other)
  refine ⟨fit.kept.step hsection spares, fun t' hother => ?_,
    hsection.activity_of_ne (Nat.ne_of_lt (Nat.lt_trans owner_lt_clock other)),
    hsection.activity_of_ne (Nat.ne_of_lt other), hsection.widgets, ?_⟩
  · exact (hsection.canvas?_eq t').trans_ne (fit.others t' hother)
  · exact hsection.still spares (Activity.not_paints_of_canvas? (fit.others t other)) fit.kept.here
      fit.kept.opened

theorem beside_make (fit : Fit w c σ) {m : ManagerRef} (there : m < σ.scene.managers.size)
    (canvas : Canvas) : σ.Beside c (σ.threads.withScene (σ.scene.newCanvas m canvas).2) :=
  ⟨fit.kept.newCanvas there canvas, fit.others, rfl, rfl, rfl,
    .of_face (congrArg (Option.map _) (canvases_newCanvas_of_lt m canvas fit.kept.here))⟩

theorem beside_turn (fit : Fit w c σ) {turn : Turn} (other : turn.isOwn = false) :
    ∃ τ, σ.turn w turn = { σ with threads := τ } ∧ σ.Beside c τ := by
  have nothing : σ.Beside c σ.threads := ⟨fit.kept, fit.others, rfl, rfl, rfl, .refl c _⟩
  unfold Spinning.turn
  cases turn with
  | enterCall t call =>
      dsimp only
      split
      · rename_i h
        exact ⟨_, rfl, fit.beside_enterCall h.1 h.2⟩
      · exact ⟨_, rfl, nothing⟩
  | advance t =>
      dsimp only
      split
      · exact ⟨_, rfl, fit.beside_advance (by assumption)⟩
      · exact ⟨_, rfl, nothing⟩
  | make m canvas =>
      dsimp only
      split
      · exact ⟨_, rfl, fit.beside_make (by assumption) canvas⟩
      · exact ⟨_, rfl, nothing⟩
  | start | stop | text | proceed | tick => cases other

theorem turn (fit : Fit w c σ) (turn : Turn) : Fit w c (σ.turn w turn) := by
  obtain ⟨sp, hsp, made, clears, staged⟩ := fit.spinner
  cases own : turn.isOwn with
  | false =>
      obtain ⟨τ, hturn, beside⟩ := fit.beside_turn own
      rw [hturn]
      exact fit.beside beside
  | true =>
      unfold Spinning.turn
      cases turn with
      | start | stop =>
          dsimp only
          split
          · rename_i rest
            exact fit.restage hsp (staged.of_isAtRest rest) nofun
          · exact fit
      | text text =>
          dsimp only
          split
          · rename_i rest
            obtain ⟨idle, ready⟩ := staged.of_isAtRest rest
            exact ⟨fit.kept.modifySpinner w _, fit.others,
              ⟨_, spinner?_modifySpinner hsp _, made, clears, idle, fun absent =>
                (ready absent).imp_right fun spotless hstarted =>
                  (spotless hstarted).of_face (face?_modifySpinner ..)⟩, fit.clocked, nofun⟩
          · exact fit
      | proceed thread => exact fit.proceed thread
      | tick => exact fit.tick
      | enterCall | advance | make => cases own

end Fit

def Stage.isQuiet : Stage → Bool
  | resting | stopping | returned _ _ => true
  | _ => false

/-- Whether a spinner does not run and was not asked to start. -/
def Quiet (w : Nat) (σ : Spinning) : Prop :=
  (∀ sp, σ.scene.spinner? w = some sp → sp.ticker = .absent) ∧ σ.stage.isQuiet = true

theorem Quiet.proceed (quiet : σ.Quiet w) (thread : Except Fault Unit) :
    (σ.proceed w thread).Quiet w ∧ (σ.proceed w thread).scene = σ.scene ∧
      (σ.proceed w thread).started = σ.started := by
  have hquiet := quiet.2
  have hproceeds := proceeds σ w thread
  generalize σ.proceed w thread = σ' at hproceeds
  cases hproceeds with
  | rest => exact ⟨quiet, rfl, rfl⟩
  | idle => exact ⟨⟨quiet.1, rfl⟩, rfl, rfl⟩
  | tell sp' hsp' stage present => exact absurd (quiet.1 sp' hsp') present
  | advance drawing =>
      rcases drawing with ⟨c', stage⟩ | stage
      · rw [stage] at hquiet
        cases hquiet
      · rw [stage] at hquiet
        cases hquiet
  | again _ _ stage | enter _ _ stage | opened _ _ _ _ stage | refused _ _ _ stage
  | unopened _ _ _ stage | unmade _ _ stage | conclude _ _ stage | ended _ _ stage =>
      rw [stage] at hquiet
      cases hquiet

theorem Quiet.beside (quiet : σ.Quiet w) {τ : Threads} (h : σ.Beside c τ) :
    Quiet w { σ with threads := τ } :=
  ⟨fun sp hsp => quiet.1 sp ((spinner?_of_widgets h.widgets w).symm.trans hsp), quiet.2⟩

namespace Fit

theorem spotless (fit : Fit w c σ) (quiet : σ.Quiet w) :
    (σ.threads.activity owner).isAtRest = true ∧ σ.clockwork = .gone ∧ σ.Spotless c := by
  obtain ⟨sp, hsp, -, -, staged⟩ := fit.spinner
  have absent := quiet.1 sp hsp
  have hquiet := quiet.2
  unfold Staged at staged
  generalize σ.stage = stage at staged hquiet
  cases stage with
  | resting | stopping => exact ⟨staged.1, staged.2 absent⟩
  | returned call result =>
      cases call with
      | start => exact ⟨staged.1, staged.2 absent⟩
      | stop => exact ⟨staged.1, staged.2.2⟩
  | starting | opening | joining | ending => cases hquiet

theorem not_renders (fit : Fit w c σ) (quiet : σ.Quiet w) (t : ThreadRef) :
    ¬ σ.threads.Renders t c := by
  obtain ⟨rest, gone, -⟩ := fit.spotless quiet
  rintro ⟨paints, -⟩
  rcases Nat.lt_trichotomy t clock with hlt | rfl | hgt
  · obtain rfl : t = owner := Nat.lt_one_iff.mp hlt
    exact Activity.not_paints_of_isAtRest rest c paints
  · have clocked := fit.clocked
    rw [Clocked, gone] at clocked
    exact Activity.not_paints_of_isAtRest clocked c paints
  · exact Activity.not_paints_of_canvas? (fit.others t hgt) paints

/-- Until the next start the spinner does not stir. -/
theorem quiet_turn (fit : Fit w c σ) (quiet : σ.Quiet w) {turn : Turn} (hturn : turn ≠ .start) :
    (σ.turn w turn).Quiet w ∧ Still c σ.scene (σ.turn w turn).scene ∧
      (σ.turn w turn).started = σ.started := by
  obtain ⟨sp, hsp, -⟩ := fit.spinner
  cases own : turn.isOwn with
  | false =>
      obtain ⟨τ, hturn, beside⟩ := fit.beside_turn own
      rw [hturn]
      exact ⟨quiet.beside beside, beside.still, rfl⟩
  | true =>
      unfold Spinning.turn
      cases turn with
      | start => exact absurd rfl hturn
      | stop =>
          dsimp only
          split
          · exact ⟨⟨quiet.1, rfl⟩, .refl c _, rfl⟩
          · exact ⟨quiet, .refl c _, rfl⟩
      | text text =>
          dsimp only
          split
          · refine ⟨⟨fun sp' hsp' => ?_, rfl⟩, .of_face (face?_modifySpinner ..), rfl⟩
            obtain rfl := Option.some.inj ((spinner?_modifySpinner hsp _).symm.trans hsp')
            exact quiet.1 sp hsp
          · exact ⟨quiet, .refl c _, rfl⟩
      | proceed thread =>
          obtain ⟨quiet', hscene, hstarted⟩ := quiet.proceed thread
          exact ⟨quiet', .of_face (congrArg (·.face? c) hscene), hstarted⟩
      | tick =>
          dsimp only
          rw [Spinning.tick, (fit.spotless quiet).2.1]
          exact ⟨quiet, .refl c _, rfl⟩
      | enterCall | advance | make => cases own

theorem quiet_after (fit : Fit w c σ) (quiet : σ.Quiet w) {turns : List Turn}
    (hturns : .start ∉ turns) :
    Fit w c (σ.after w turns) ∧ (σ.after w turns).Quiet w ∧
      Still c σ.scene (σ.after w turns).scene ∧ (σ.after w turns).started = σ.started := by
  induction turns generalizing σ with
  | nil => exact ⟨fit, quiet, .refl c _, rfl⟩
  | cons turn rest ih =>
      rw [List.mem_cons, not_or] at hturns
      obtain ⟨quiet', still, hstarted⟩ := fit.quiet_turn quiet (Ne.symm hturns.1)
      obtain ⟨fit'', quiet'', still', hstarted'⟩ := ih (fit.turn turn) quiet' hturns.2
      exact ⟨fit'', quiet'', still.trans still', hstarted'.trans hstarted⟩

end Fit

/-- The invariant of a spinner that has not made its canvas yet. -/
structure Unmade (w : Nat) (options : CanvasOptions) (σ : Spinning) : Prop where
  sound : σ.threads.Sound
  own : σ.scene.OwnRegister options.manager
  there : options.manager < σ.scene.managers.size
  spinner : ∃ sp, σ.scene.spinner? w = some sp ∧ sp.canvas = none ∧ sp.slot = .owned options ∧
    sp.clearOnStop = true ∧ sp.ticker = .absent
  owner : (σ.threads.activity owner).isAtRest = true
  clock : (σ.threads.activity clock).isAtRest = true
  clockwork : σ.clockwork = .gone
  stage : σ.stage = .starting ∨ σ.stage.isQuiet = true
  returned : ∀ result, σ.stage = .returned .stop result → result = .ok ()

variable {options : CanvasOptions}

namespace Unmade

theorem spinnerOn?_eq (unmade : Unmade w options σ) : σ.scene.spinnerOn? w = none := by
  obtain ⟨sp, hsp, made, -⟩ := unmade.spinner
  rw [spinnerOn?, hsp, Option.bind_some, made]
  rfl

theorem reliable_canvasOf (willing : options.behavior.Willing) (w : Nat) :
    (options.canvasOf w).Reliable :=
  ⟨willing, List.forall_mem_singleton.mpr trivial⟩

/-- A spinner that starts for the first time makes its canvas and begins to draw on it. -/
theorem fit_enter (unmade : Unmade w options σ) (willing : options.behavior.Willing)
    (hsp : σ.scene.spinner? w = some sp) :
    Fit w σ.scene.canvases.size
      { (σ.withScene (σ.scene.spinnerCanvas w sp).2).enterCall Spinning.owner
        (.errand (.draw .run (σ.scene.spinnerCanvas w sp).1)) with
        stage := .opening (σ.scene.spinnerCanvas w sp).1 } := by
  obtain ⟨sp', hsp', made, slot, clears, absent⟩ := unmade.spinner
  obtain rfl := Option.some.inj (hsp'.symm.trans hsp)
  obtain ⟨hcanvas, ⟨widgets, hscene⟩, hspinner⟩ := spinnerCanvas_of_owned hsp made slot
  have kept : (σ.threads.withScene (σ.scene.spinnerCanvas w sp').2).Kept σ.scene.canvases.size := by
    have made := unmade.sound.kept_newCanvas unmade.there unmade.own
      (reliable_canvasOf willing w) rfl rfl
    rw [hscene]
    exact made.withWidgets widgets
  have idle : ((σ.threads.withScene (σ.scene.spinnerCanvas w sp').2).activity
      Spinning.owner).isAtRest = true := unmade.owner
  have entered := Threads.activity_enterCall_self (.errand (.draw .run σ.scene.canvases.size)) idle
  rw [hcanvas]
  refine ⟨kept.enterCall Spinning.owner fun _ h => Option.some.inj h ▸ kept.here,
    fun t other hcanvas => ?_,
    ⟨{ sp' with
        slot := .shared σ.scene.canvases.size
        canvas := some (σ.scene.canvases.size, true) },
      (congrArg (·.spinner? w) (Threads.scene_enterCall _ _ _)).trans hspinner, rfl, clears, rfl,
      entered ▸ Activity.inCall_start .run _, absent, unmade.clockwork⟩, ?_, nofun⟩
  · rw [enterCall, Threads.activity_enterCall_of_ne _ _
      (Nat.ne_of_gt (Nat.lt_trans owner_lt_clock other))] at hcanvas
    exact Nat.lt_irrefl _ (unmade.sound.present t _ hcanvas)
  · have hclock : Clocked σ.scene.canvases.size σ := by
      rw [Clocked, unmade.clockwork]
      exact unmade.clock
    exact hclock.congr rfl (Threads.activity_enterCall_of_ne _ _ (Nat.ne_of_gt owner_lt_clock))

/-- What other threads do before the canvas is made. -/
theorem beside (unmade : Unmade w options σ) {τ : Threads} (sound : τ.Sound)
    (own : τ.scene.OwnRegister options.manager)
    (size : τ.scene.managers.size = σ.scene.managers.size)
    (activity : ∀ t ≤ Spinning.clock, τ.activity t = σ.threads.activity t)
    (widgets : τ.scene.widgets = σ.scene.widgets) :
    Unmade w options { σ with threads := τ } := by
  obtain ⟨sp, hsp, hspinner⟩ := unmade.spinner
  refine ⟨sound, own, ?_, ⟨sp, (spinner?_of_widgets widgets w).trans hsp, hspinner⟩, ?_, ?_,
    unmade.clockwork, unmade.stage, unmade.returned⟩
  · exact Nat.lt_of_lt_of_eq unmade.there size.symm
  · exact (congrArg _ (activity _ (Nat.le_of_lt owner_lt_clock))).trans unmade.owner
  · exact (congrArg _ (activity _ (Nat.le_refl _))).trans unmade.clock

theorem beside_turn (unmade : Unmade w options σ) {turn : Turn} (other : turn.isOwn = false) :
    Unmade w options (σ.turn w turn) := by
  unfold Spinning.turn
  cases turn with
  | enterCall t call =>
      dsimp only
      split
      · rename_i h
        have here : ∀ c, call.canvas? = some c → c < σ.scene.canvases.size := by
          intro c hcanvas
          have known := h.2
          rw [hcanvas, Option.all_some, isKnown, Bool.and_eq_true, decide_eq_true_eq] at known
          exact known.1
        refine unmade.beside (unmade.sound.enterCall t here) ?_ ?_
          (fun t' ours => Threads.activity_enterCall_of_ne _ _
            (Nat.ne_of_lt (Nat.lt_of_le_of_lt ours h.1))) ?_
        · rw [Threads.scene_enterCall]
          exact unmade.own
        · rw [Threads.scene_enterCall]
          rfl
        · rw [Threads.scene_enterCall]
          rfl
      · exact unmade
  | advance t =>
      dsimp only
      split
      · rename_i other
        have hsection := Threads.section_advance σ.threads t
        exact unmade.beside (unmade.sound.step hsection) (hsection.ownRegister unmade.own)
          hsection.size_managers (fun t' ours =>
            hsection.activity_of_ne (Nat.ne_of_lt (Nat.lt_of_le_of_lt ours other)))
          hsection.widgets
      · exact unmade
  | make m canvas =>
      dsimp only
      split
      · rename_i there
        exact unmade.beside (unmade.sound.newCanvas there canvas)
          (unmade.own.newCanvas unmade.sound.orderly m canvas)
          (Array.size_modify.trans Array.size_modify) (fun _ _ => rfl) rfl
      · exact unmade
  | start | stop | text | proceed | tick => cases other

theorem proceed (unmade : Unmade w options σ) (willing : options.behavior.Willing)
    (thread : Except Fault Unit) :
    Unmade w options (σ.proceed w thread) ∨ ∃ c, Fit w c (σ.proceed w thread) := by
  obtain ⟨sp, hsp, -, -, -, absent⟩ := unmade.spinner
  have hproceeds := proceeds σ w thread
  have hstage := unmade.stage
  generalize σ.proceed w thread = σ' at hproceeds
  cases hproceeds with
  | rest => exact .inl unmade
  | enter sp' hsp' => exact .inr ⟨_, unmade.fit_enter willing hsp'⟩
  | idle =>
      refine .inl { unmade with stage := .inr rfl, returned := ?_ }
      rintro result ⟨⟩
      rfl
  | again sp' hsp' stage present | tell sp' hsp' stage present =>
      obtain rfl := Option.some.inj (hsp'.symm.trans hsp)
      exact absurd absent present
  | advance drawing =>
      rcases drawing with ⟨c', stage⟩ | stage
      · rw [stage] at hstage
        simp [Stage.isQuiet] at hstage
      · rw [stage] at hstage
        simp [Stage.isQuiet] at hstage
  | opened _ _ _ _ stage | refused _ _ _ stage | unopened _ _ _ stage | unmade _ _ stage
  | conclude _ _ stage | ended _ _ stage =>
      rw [stage] at hstage
      simp [Stage.isQuiet] at hstage

theorem turn (unmade : Unmade w options σ) (willing : options.behavior.Willing) (turn : Turn) :
    Unmade w options (σ.turn w turn) ∨ ∃ c, Fit w c (σ.turn w turn) := by
  obtain ⟨sp, hsp, hspinner⟩ := unmade.spinner
  cases own : turn.isOwn with
  | false => exact .inl (unmade.beside_turn own)
  | true =>
      unfold Spinning.turn
      cases turn with
      | start =>
          dsimp only
          split
          · exact .inl { unmade with stage := .inl rfl, returned := nofun }
          · exact .inl unmade
      | stop =>
          dsimp only
          split
          · exact .inl { unmade with stage := .inr rfl, returned := nofun }
          · exact .inl unmade
      | text text =>
          dsimp only
          split
          · have hspinner' : (σ.scene.spinnerText w text).spinner? w = _ :=
              spinner?_modifySpinner hsp _
            obtain ⟨widgets, heq⟩ :=
              σ.scene.exists_modifySpinner w fun sp => { sp with text := text }
            rw [spinnerText, heq] at hspinner' ⊢
            exact .inl ⟨unmade.sound.withWidgets widgets, unmade.own, unmade.there,
              ⟨_, hspinner', hspinner⟩, unmade.owner, unmade.clock, unmade.clockwork, .inr rfl,
              nofun⟩
          · exact .inl unmade
      | proceed thread => exact unmade.proceed willing thread
      | tick =>
          dsimp only
          rw [Spinning.tick, unmade.clockwork]
          exact .inl unmade
      | enterCall | advance | make => cases own

end Unmade

theorem unmade_or_fit_after (willing : options.behavior.Willing)
    (h : Unmade w options σ ∨ ∃ c, Fit w c σ) (turns : List Turn) :
    Unmade w options (σ.after w turns) ∨ ∃ c, Fit w c (σ.after w turns) := by
  induction turns generalizing σ with
  | nil => exact h
  | cons turn rest ih =>
      refine ih ?_
      rcases h with unmade | ⟨c, fit⟩
      · exact unmade.turn willing turn
      · exact .inr ⟨c, fit.turn turn⟩

theorem started_of_proceeds (h : Proceeds w thread σ σ') :
    σ'.started = σ.started ∨ σ'.started = .ok () ∨
      (∃ fault, thread = .error fault ∧ σ'.started = .error (.output fault)) ∨
      ∃ c call failure, σ.stage = .opening c ∧
        σ.threads.activity owner = .returned call (.error failure) := by
  cases h with
  | again | opened => exact .inr (.inl rfl)
  | refused c call fault stage doing unmade => exact .inr (.inr (.inl ⟨fault, unmade, rfl⟩))
  | unopened c call failure stage doing =>
      exact .inr (.inr (.inr ⟨c, call, failure, stage, doing⟩))
  | rest | enter | advance | idle | tell | unmade | conclude | ended => exact .inl rfl

theorem started_tick (σ : Spinning) (w : Nat) : (σ.tick w).started = σ.started := by
  unfold tick
  split
  · rfl
  · split
    · rfl
    · rfl
  · split
    · rfl
    · rfl

/-- A turn leaves the result of the last start, or is one in which a start returns. That fails for
want of a thread only. -/
theorem started_turn (h : Unmade w options σ ∨ ∃ c, Fit w c σ) (turn : Turn) :
    (σ.turn w turn).started = σ.started ∨ (σ.turn w turn).started = .ok () ∨
      ∃ fault, turn = .proceed (.error fault) ∧
        (σ.turn w turn).started = .error (.output fault) := by
  unfold Spinning.turn
  cases turn with
  | proceed thread =>
      rcases started_of_proceeds (proceeds σ w thread) with
        same | well | ⟨fault, rfl, refused⟩ | ⟨c, call, failure, stage, doing⟩
      · exact .inl same
      · exact .inr (.inl well)
      · exact .inr (.inr ⟨fault, rfl, refused⟩)
      · rcases h with unmade | ⟨c', fit⟩
        · have hstage := unmade.stage
          rw [stage] at hstage
          simp [Stage.isQuiet] at hstage
        · exact absurd doing (fit.drawn_of_opening stage)
  | tick => exact .inl (started_tick σ w)
  | start | stop | text | enterCall | advance | make =>
      dsimp only
      split
      · exact .inl rfl
      · exact .inl rfl

theorem started_after (willing : options.behavior.Willing)
    (h : Unmade w options σ ∨ ∃ c, Fit w c σ) (turns : List Turn) :
    (σ.after w turns).started = σ.started ∨ (σ.after w turns).started = .ok () ∨
      ∃ fault, .proceed (.error fault) ∈ turns ∧
        (σ.after w turns).started = .error (.output fault) := by
  induction turns generalizing σ with
  | nil => exact .inl rfl
  | cons turn rest ih =>
      have first : Unmade w options (σ.turn w turn) ∨ ∃ c, Fit w c (σ.turn w turn) :=
        unmade_or_fit_after willing h [turn]
      rcases ih first with same | well | ⟨fault, later, refused⟩
      · rcases started_turn h turn with same' | well | ⟨fault, rfl, refused⟩
        · exact .inl (same.trans same')
        · exact .inr (.inl (same.trans well))
        · exact .inr (.inr ⟨fault, List.mem_cons_self, same.trans refused⟩)
      · exact .inr (.inl well)
      · exact .inr (.inr ⟨fault, List.mem_cons_of_mem turn later, refused⟩)

theorem unmade_start {s : Scene} (possible : s.Possible) (hsp : s.spinner? w = some sp)
    (unmade : sp.canvas = none) (absent : sp.ticker = .absent) (slot : sp.slot = .owned options)
    (clears : sp.clearOnStop = true) (there : options.manager < s.managers.size)
    (own : s.OwnRegister options.manager) :
    Unmade w options { threads := { scene := s } } :=
  ⟨.start possible.orderly, own, there, ⟨sp, hsp, unmade, slot, clears, absent⟩, rfl, rfl, rfl,
    .inr rfl, nofun⟩

/-- Whatever the order of the sections of the spinner's owner, of the clockwork and of all other
threads, a start fails for want of a thread only, and a stop that has returned has succeeded. If the
last start before it did not fail, nothing of the spinner is tracked as drawn then, whichever canvas
has the focus, and until the next start that stays so and nothing is written to the canvas but the
command of an erasure. In any case no thread paints the canvas until the next start. The canvases
that are registered with the manager of the spinner are the manager's own. -/
theorem stopped_leavesNothing {s : Scene} (possible : s.Possible)
    (hsp : s.spinner? w = some sp) (unmade : sp.canvas = none) (absent : sp.ticker = .absent)
    (slot : sp.slot = .owned options) (clears : sp.clearOnStop = true)
    (willing : options.behavior.Willing) (there : options.manager < s.managers.size)
    (own : s.OwnRegister options.manager) (turns : List Turn) :
    let σ := after { threads := { scene := s } } w turns
    (σ.started = .ok () ∨
      ∃ fault, .proceed (.error fault) ∈ turns ∧ σ.started = .error (.output fault)) ∧
    ∀ result, σ.stage = .returned .stop result → result = .ok () ∧
      ∀ c, σ.scene.spinnerOn? w = some c → ∀ later, .start ∉ later →
        let σ' := σ.after w later
        (∀ t, ¬ σ'.threads.Renders t c) ∧
          (σ.started = .ok () →
            (σ'.scene.printer c).map Printer.size = some ⟨1, 0⟩ ∧
              ∃ k, σ'.scene.sink? c = (σ.scene.sink? c).map fun sink =>
                sink.attempts (List.replicate k Printer.eraseLine)) := by
  intro σ
  have start : Unmade w options { threads := { scene := s } } ∨
      ∃ c, Fit w c { threads := { scene := s } } :=
    .inl (unmade_start possible hsp unmade absent slot clears there own)
  constructor
  · rcases started_after willing start turns with same | well | refused
    · exact .inl same
    · exact .inl well
    · exact .inr refused
  intro result stage
  rcases unmade_or_fit_after willing start turns with unmade | ⟨c', fit⟩
  · -- never started, the spinner has no canvas
    refine ⟨unmade.returned _ stage, fun c hcanvas => ?_⟩
    cases unmade.spinnerOn?_eq.symm.trans hcanvas
  · refine ⟨fit.returned _ stage, fun c hcanvas later hlater => ?_⟩
    obtain rfl := Option.some.inj (fit.spinnerOn?_eq.symm.trans hcanvas)
    have quiet : σ.Quiet w := by
      obtain ⟨sp', hsp', -, -, staged⟩ := fit.spinner
      rw [Staged, stage] at staged
      refine ⟨fun sp'' hsp'' => ?_, by rw [stage]; rfl⟩
      obtain rfl := Option.some.inj (hsp'.symm.trans hsp'')
      exact staged.2.1
    obtain ⟨fit', quiet', still, hstarted⟩ := fit.quiet_after quiet hlater
    refine ⟨fit'.not_renders quiet', fun well => ?_⟩
    have blank : σ.scene.Blank c' := (fit.spotless quiet).2.2 well
    have blank' := (fit'.spotless quiet').2.2 (hstarted.trans well)
    exact ⟨blank'.size, (still blank).2⟩

def building : Spinner where
  text := "Building"
  frames := Spinner.defaultFrames
  slot := .owned { width := .fixed 40 }

/-- The owner makes sections with as many threads as it asks for. -/
def unhindered (n : Nat) : List Turn := List.replicate n (.proceed (.ok ()))

/-- A frame of the spinner waits while another canvas takes the focus, erases it and keeps the
focus until the spinner has stopped. -/
def focusedElsewhere : List Turn :=
  .start :: unhindered 7 ++
    [.make 0 { visuals := [] }, .tick, .enterCall 2 (.errand (.focus 1))] ++
    List.replicate 5 (.advance 2) ++ List.replicate 4 .tick ++
    .stop :: unhindered 1 ++ .tick :: unhindered 5

/-- The focus is released and the spinner is stopped once more. -/
def released : List Turn :=
  [.enterCall 2 (.errand (.release ⟨0, 1⟩)), .advance 2, .advance 2, .text "Linking", .stop,
    .proceed (.ok ())]

def noThread : Fault := ⟨.wouldBlock, "Resource temporarily unavailable (os error 11)"⟩

/-- A start gets no thread, and the spinner is stopped nevertheless. -/
def unclocked : List Turn :=
  .start :: unhindered 6 ++ .proceed (.error noThread) :: .stop :: unhindered 1

theorem stopped_leavesNothing_focusedElsewhere :
    let s : Scene := { widgets := #[.spinner building] }
    let σ := after { threads := { scene := s } } 0 focusedElsewhere
    let σ' := σ.after 0 released
    let τ := after { threads := { scene := s } } 0 unclocked
    s.Possible ∧ s.spinner? 0 = some building ∧ s.OwnRegister 0 ∧
      σ.stage = .returned .stop (.ok ()) ∧ σ.started = .ok () ∧
      σ.scene.spinnerOn? 0 = some 0 ∧
      σ.scene.hasFocus 0 1 = true ∧ (σ.scene.printer 0).map Printer.size = some ⟨1, 0⟩ ∧
      .start ∉ released ∧ σ'.scene.focused 0 = none ∧
      (σ'.scene.printer 0).map Printer.size = some ⟨1, 0⟩ ∧
      τ.stage = .returned .stop (.ok ()) ∧ τ.started = .error (.output noThread) ∧
      (τ.scene.printer 0).map Printer.size = some ⟨1, 10⟩ ∧ ∀ t, ¬ τ.threads.Renders t 0 := by
  intro s σ σ' τ
  have possible : s.Possible := .start rfl rfl
  have hsp : s.spinner? 0 = some building := rfl
  have own : s.OwnRegister 0 := nofun
  have stage : σ.stage = .returned .stop (.ok ()) := by decide +kernel
  have well : σ.started = .ok () := by decide +kernel
  have hcanvas : σ.scene.spinnerOn? 0 = some 0 := by decide +kernel
  have stage' : τ.stage = .returned .stop (.ok ()) := by decide +kernel
  have hcanvas' : τ.scene.spinnerOn? 0 = some 0 := by decide +kernel
  have hlater : Turn.start ∉ released := by simp [released]
  have law := stopped_leavesNothing possible hsp rfl rfl rfl rfl
    Sink.Behavior.willing_faultless (by decide) own
  obtain ⟨-, leaves⟩ := (law focusedElsewhere).2 _ stage
  obtain ⟨-, leaves'⟩ := (law unclocked).2 _ stage'
  have returned := ((leaves 0 hcanvas [] List.not_mem_nil).2 well).1
  have unpainted := (leaves' 0 hcanvas' [] List.not_mem_nil).1
  rw [after, List.foldl_nil] at returned unpainted
  exact ⟨possible, hsp, own, stage, well, hcanvas, by decide +kernel, returned, hlater,
    by decide +kernel, ((leaves 0 hcanvas released hlater).2 well).1, stage', by decide +kernel,
    by decide +kernel, unpainted⟩

end Spinning

end Inlay
