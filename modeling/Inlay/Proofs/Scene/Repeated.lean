import Inlay.Proofs.Scene.Calls
import Inlay.Proofs.Scene.InSight

namespace Inlay.Scene

open Keyboard

/-- A call of a widget: its prompt is asked, or its list is run, with all its threads, under some
order of sections. Keys are read and tasks are begun in the second scene; the third is there when
the call is over. -/
inductive Call (w : Nat) (s : Scene) : Scene → Scene → Prop
  | ask {d : Dialog} (asked : s.dialog? w = some d) (token : Token)
      (amid : List Occurrence → List Occurrence) :
      Call w s (s.firstDrawn w d) (s.ask w token amid).2
  | run {l : TaskList} {history : List Deed} {result : Except Failure Unit} {s' : Scene}
      (listed : s.tasks? w = some l) (ran : Ran w s history result s') :
      Call w s (s.openTasks w l).scene s'

/-- Calls of one widget and their number. Between them tasks are added and time passes. -/
inductive Calls (w : Nat) (s : Scene) : Nat → Scene → Prop
  | start : Calls w s 0 s
  | call {n : Nat} {s' drawn s'' : Scene} (calls : Calls w s n s') (call : Call w s' drawn s'') :
      Calls w s (n + 1) s''
  | add {n : Nat} {s' : Scene} (calls : Calls w s n s') (task : NewTask) :
      Calls w s n (s'.addTask w task)
  | wait {n : Nat} {s' : Scene} (calls : Calls w s n s') (nanos : Nat) :
      Calls w s n { s' with watch := s'.watch.advance nanos }

variable {w : Nat} {c : CanvasRef} {s s' s'' drawn after : Scene} {kind : Widget.Kind}
  {options : CanvasOptions} {d : Dialog} {l : TaskList}

/-- A widget that has not been called yet, in a scene that a sequence of calls begins with. -/
structure Fresh (w : Nat) (kind : Widget.Kind) (options : CanvasOptions) (start s : Scene) :
    Prop where
  place : s.place? w = some (kind, .owned options)
  size : s.canvases.size = start.canvases.size
  env : s.env = start.env
  focused : s.focused options.manager = start.focused options.manager

/-- A widget whose canvas is closed. -/
structure Spent (w : Nat) (kind : Widget.Kind) (c : CanvasRef) (s : Scene) : Prop where
  place : s.place? w = some (kind, .shared c)
  closed : s.isClosed c = true

theorem Spent.idle (h : Spent w kind c s) (idle : Idle w c s s') : Spent w kind c s' :=
  ⟨idle.place.trans h.place, (idle.canvas h.closed).1⟩

/-- To make a canvas is to count it as shared. -/
theorem place?_resolve (h : s.place? w = some (kind, .owned options)) :
    (s.resolve w (.owned options)).2.place? w = some (kind, .shared s.canvases.size) := by
  obtain ⟨widget, hwidget, hplace⟩ := Option.map_eq_some_iff.mp h
  unfold resolve
  dsimp only
  split
  · rename_i widget' hwidget'
    obtain rfl := Option.some.inj (hwidget'.symm.trans hwidget)
    have hkind : widget'.kind = kind := congrArg Prod.fst hplace
    rw [place?, getElem?_setWidget hwidget', ← hkind]
    cases widget' with
    | dialog d | spinner s | tasks l => rfl
  · rename_i hnone
    cases hnone.symm.trans hwidget

theorem spent_ask (h : s.dialog? w = some d) (slot : d.slot = .owned options) (token : Token)
    (amid : List Occurrence → List Occurrence) :
    Spent w .dialog s.canvases.size (s.ask w token amid).2 := by
  let i := s.interaction w d
  let opened := (s.openDialog w d).2
  let tried := (i.attempt amid token d.reader.load (opened.focus i.canvas).2).2
  have attempted : Interaction.Attempted i (d.reader.load, (opened.focus i.canvas).2) tried :=
    i.attempted_attempt amid token d.reader.load _
  obtain ⟨hopened, number, he⟩ := openDialog_of_owned (s := s) (w := w) slot
  have hcanvas : i.canvas = s.canvases.size := congrArg Prod.fst hopened
  rw [← hcanvas] at he ⊢
  constructor
  case place =>
    have resolved := place?_resolve (slot ▸ place?_of_dialog? h)
    have waiting : Idle w i.canvas (s.resolve w d.slot).2 opened := by
      apply idle_modifyDialog
      exact fun _ => rfl
    have idle := waiting.trans (idle_asked h token amid)
    rw [idle.place, slot, resolved, hcanvas]
  case closed =>
    have howned : (s.openDialog w d).1.2 = true := congrArg Prod.snd hopened
    have hasked : (s.ask w token amid).2 = opened.settled i true tried := by
      rw [ask_snd h, ← howned]
      rfl
    rw [hasked]
    exact (closed_settled attempted he).1

section

variable {history : List Deed} {result : Except Failure Unit}

theorem idle_openTasks (s : Scene) (w' : Nat) (l : TaskList) :
    Idle w c (s.resolve w' l.slot).2 (s.openTasks w' l).scene := by
  have taken (s : Scene) : Idle w c s (s.modifyTasks w' fun l => { l with queue := [] }) := by
    apply idle_modifyTasks
    exact fun _ => rfl
  exact (idle_run _ (s.resolve w' l.slot).1.1).trans (taken _)

theorem idle_ran {w' : Nat} (hl : s.tasks? w' = some l) (ran : Ran w' s history result s') :
    Idle w c (s.openTasks w' l).scene s' := by
  obtain ⟨l₁, moves, hl₁, -, -, -, hconclude⟩ := ran
  obtain rfl := Option.some.inj (hl₁.symm.trans hl)
  have crew : Idle w c (s.openTasks w' l₁).scene (s.crewAfter w' l₁ moves).scene :=
    idle_after (Crew.start (s.openTasks w' l₁).scene l₁) moves
  have hs' : s' = (s.conclude w' l₁ (s.crewAfter w' l₁ moves)).2 :=
    (congrArg Prod.snd hconclude).symm
  rw [hs']
  exact crew.trans (idle_closeTasks _ _ _)

theorem place?_ran (hl : s.tasks? w = some l) (slot : l.slot = .owned options)
    (ran : Ran w s history result s') :
    s'.place? w = some (.tasks, .shared s.canvases.size) := by
  have resolved := place?_resolve (slot ▸ place?_of_tasks? hl)
  have idle : Idle w s.canvases.size (s.resolve w l.slot).2 s' :=
    (idle_openTasks s w l).trans (idle_ran hl ran)
  rw [idle.place, slot, resolved]

end

theorem idle_firstDrawn (s : Scene) (w' : Nat) (d : Dialog) :
    Idle w c (s.openDialog w' d).2 (s.firstDrawn w' d) := by
  have granted : Idle w c (s.openDialog w' d).2 (s.granted w' d) := idle_focus _ _
  exact (granted.trans (idle_cursorHidden _ _)).trans (idle_run _ _)

theorem Spent.idle_call (h : Spent w kind c s) (call : Call w s drawn after) :
    Idle w c s drawn ∧ Idle w c s after := by
  cases call with
  | ask asked token amid =>
      rename_i d
      have slot : d.slot = .shared c :=
        congrArg Prod.snd (Option.some.inj ((place?_of_dialog? asked).symm.trans h.place))
      have opened : Idle w c s (s.openDialog w d).2 := idle_openDialog slot
      exact ⟨opened.trans (idle_firstDrawn s w d), opened.trans (idle_asked asked token amid)⟩
  | run listed ran =>
      rename_i l history result
      have slot : l.slot = .shared c :=
        congrArg Prod.snd (Option.some.inj ((place?_of_tasks? listed).symm.trans h.place))
      have opened : Idle w c s (s.openTasks w l).scene := by
        have idle := idle_openTasks (w := w) (c := c) s w l
        rw [slot] at idle
        exact idle
      exact ⟨opened, opened.trans (idle_ran listed ran)⟩

theorem idle_addTask (s : Scene) (w' : Nat) (task : NewTask) : Idle w c s (s.addTask w' task) := by
  apply idle_modifyTasks
  exact fun _ => rfl

/-- Drawing on a closed canvas comes to nothing, and does not fail. -/
theorem run_fst_of_closed (closed : s.isClosed c = true) : (s.run c).1 = .ok () := by
  cases he : s.canvases[c]? with
  | none =>
      rw [isClosed, he] at closed
      cases closed
  | some e =>
      have rests : s.draws c = false := by
        rw [draws, closed]
        exact Bool.and_false _
      exact (draw_of_not_draws he rests .run).1

theorem hideCursor_fst_of_closed (closed : s.isClosed c = true) :
    (s.hideCursor c).1 = .ok () := by
  rw [hideCursor, writeSequence]
  split
  · rfl
  · rename_i e he
    rw [isClosed_of_getElem? he] at closed
    dsimp only
    rw [Canvas.writeSequence_of_closed closed]
    rfl

theorem Spent.readsFromFirst (h : Spent w kind c s) (asked : s.dialog? w = some d) :
    s.ReadsFromFirst w d := by
  have slot : d.slot = .shared c :=
    congrArg Prod.snd (Option.some.inj ((place?_of_dialog? asked).symm.trans h.place))
  have hcanvas : (s.interaction w d).canvas = c := by
    change (s.openDialog w d).1.1 = c
    rw [openDialog_of_shared slot]
  have opened : Idle w c s (s.openDialog w d).2 := idle_openDialog slot
  have granted : Idle w c (s.openDialog w d).2 (s.granted w d) := idle_focus _ _
  have spent := h.idle (opened.trans granted)
  apply readsFromFirst_of_drawn
  · rw [hcanvas]
    exact hideCursor_fst_of_closed spent.closed
  · rw [hcanvas]
    exact run_fst_of_closed (spent.idle (idle_cursorHidden _ _)).closed

theorem Spent.drawn_openTasks (h : Spent w kind c s) (listed : s.tasks? w = some l) :
    (s.openTasks w l).drawn = .ok () := by
  have slot : l.slot = .shared c :=
    congrArg Prod.snd (Option.some.inj ((place?_of_tasks? listed).symm.trans h.place))
  rw [openTasks, slot]
  exact run_fst_of_closed h.closed

/-- Whatever is called once its first frame is drawn can be called. -/
theorem exists_call {slot : Slot} (place : s.place? w = some (kind, slot))
    (called : kind ≠ .spinner)
    (drawn : ∀ l, s.tasks? w = some l → (s.openTasks w l).drawn = .ok ()) :
    ∃ drawn after, Call w s drawn after := by
  cases kind with
  | dialog =>
      obtain ⟨d, hd, -⟩ := exists_dialog place
      exact ⟨_, _, .ask hd ⟨0, none⟩ id⟩
  | spinner => exact absurd rfl called
  | tasks =>
      obtain ⟨l, hl, -⟩ := exists_tasks place
      obtain ⟨history, ran⟩ := ran_of_drawn hl (drawn l hl)
      exact ⟨_, _, .run hl ran⟩

/-- A call that is seen: the first frame shows the widget, nothing that was written is lost, and the
last frame shows the widget as the call leaves it. -/
structure Seen (w : Nat) (c : CanvasRef) (style : Style) (drawn after : Scene) : Prop where
  first : Shows w c style (fun _ => []) drawn
  kept : drawn.frames c <+: after.frames c
  last : ∃ erases shows, Shows w c style (closingTexts erases shows) after

theorem Fresh.aside {start : Scene} (h : Fresh w kind options start s)
    (place : s'.place? w = s.place? w) (canvases : s'.canvases = s.canvases)
    (same : SameStanding s s') : Fresh w kind options start s' :=
  ⟨place.trans h.place, (congrArg Array.size canvases).trans h.size, same.env.trans h.env,
    (same.focused _).trans h.focused⟩

section

variable (known : options.width.columns s.env ≠ 0) (willing : options.behavior.Willing)

include known willing

theorem Fresh.readsFromFirst (h : Fresh w kind options s s') (asked : s'.dialog? w = some d) :
    s'.ReadsFromFirst w d := by
  obtain ⟨-, slot⟩ : .dialog = kind ∧ d.slot = .owned options :=
    Prod.mk.inj (Option.some.inj ((place?_of_dialog? asked).symm.trans h.place))
  rw [← h.env] at known
  exact readsFromFirst_of_owned asked slot known willing

variable (unfocused : s.focused options.manager = none)

include unfocused

/-- The first call is seen, and then the canvas is closed. -/
theorem Fresh.seen_spent (h : Fresh w kind options s s') (call : Call w s' drawn after) :
    Seen w s.canvases.size (options.style.getD s.env.style) drawn after ∧
      Spent w kind s.canvases.size after := by
  rw [← h.env] at known ⊢
  rw [← h.focused] at unfocused
  rw [← h.size]
  cases call with
  | ask asked token amid =>
      rename_i d
      obtain ⟨rfl, slot⟩ : .dialog = kind ∧ d.slot = .owned options :=
        Prod.mk.inj (Option.some.inj ((place?_of_dialog? asked).symm.trans h.place))
      obtain ⟨-, first⟩ := shows_firstDrawn asked slot known willing
      obtain ⟨kept, last⟩ := shows_ask asked slot known willing token amid
      exact ⟨⟨first, kept, _, _, last⟩, spent_ask asked slot token amid⟩
  | run listed ran =>
      rename_i l history result
      obtain ⟨rfl, slot⟩ : .tasks = kind ∧ l.slot = .owned options :=
        Prod.mk.inj (Option.some.inj ((place?_of_tasks? listed).symm.trans h.place))
      obtain ⟨-, -, first⟩ := shows_openTasks listed slot known willing unfocused
      obtain ⟨kept, last, closed⟩ := shows_run listed slot known willing unfocused ran
      exact ⟨⟨first, kept, false, false, last⟩, place?_ran listed slot ran, closed⟩

theorem Calls.fresh_or_spent (place : s.place? w = some (kind, .owned options)) {n : Nat}
    (calls : Calls w s n s') : n = 0 ∧ Fresh w kind options s s' ∨
      n ≠ 0 ∧ Spent w kind s.canvases.size s' := by
  induction calls with
  | start => exact Or.inl ⟨rfl, place, rfl, rfl, rfl⟩
  | call calls call ih =>
      refine Or.inr ⟨Nat.succ_ne_zero _, ?_⟩
      rcases ih with ⟨-, fresh⟩ | ⟨-, spent⟩
      · exact (fresh.seen_spent known willing unfocused call).2
      · exact spent.idle (spent.idle_call call).2
  | add calls task ih =>
      rename_i n s'
      have idle : Idle w s.canvases.size s' (s'.addTask w task) := idle_addTask s' w task
      rcases ih with ⟨hn, fresh⟩ | ⟨hn, spent⟩
      · exact Or.inl ⟨hn, fresh.aside idle.place (canvases_modifyTasks s' w _)
          (sameStanding_modifyTasks s' w _)⟩
      · exact Or.inr ⟨hn, spent.idle idle⟩
  | wait calls nanos ih =>
      rcases ih with ⟨hn, fresh⟩ | ⟨hn, spent⟩
      · exact Or.inl ⟨hn, fresh.aside rfl rfl ⟨rfl, rfl, fun _ => rfl⟩⟩
      · exact Or.inr ⟨hn, spent.idle (idle_of_widgets rfl rfl rfl)⟩

theorem Fresh.drawn_openTasks (h : Fresh w kind options s s') (listed : s'.tasks? w = some l) :
    (s'.openTasks w l).drawn = .ok () := by
  obtain ⟨-, slot⟩ : .tasks = kind ∧ l.slot = .owned options :=
    Prod.mk.inj (Option.some.inj ((place?_of_tasks? listed).symm.trans h.place))
  rw [← h.env] at known
  rw [← h.focused] at unfocused
  exact (shows_openTasks listed slot known willing unfocused).1

/-- A prompt or list that makes its own canvas can be called any number of times. The first call is
seen, from a first frame ahead of the first key or task to a last one that shows how it ended.
Every later call goes the same way and leaves no trace: the widget counts its canvas as shared, that
is closed, and neither the first frame nor any other is written. It is taken that the threads of a
list can be made; an asking whose reader gets none is one of the calls. -/
theorem calls_shownOnce (place : s.place? w = some (kind, .owned options))
    (called : kind ≠ .spinner) {n : Nat} (calls : Calls w s n s') :
    (∃ drawn after, Call w s' drawn after) ∧
      (∀ d, s'.dialog? w = some d → s'.ReadsFromFirst w d) ∧
      ∀ drawn after, Call w s' drawn after →
        (n = 0 → Seen w s.canvases.size (options.style.getD s.env.style) drawn after) ∧
        (n ≠ 0 → s'.place? w = some (kind, .shared s.canvases.size) ∧
          s'.isClosed s.canvases.size = true ∧
          drawn.face? s.canvases.size = s'.face? s.canvases.size ∧
          after.face? s.canvases.size = s'.face? s.canvases.size) := by
  rcases calls.fresh_or_spent known willing unfocused place with ⟨rfl, fresh⟩ | ⟨hn, spent⟩
  · refine ⟨exists_call fresh.place called fun l => fresh.drawn_openTasks known willing unfocused,
      fun d => fresh.readsFromFirst known willing, fun drawn after call => ?_⟩
    exact ⟨fun _ => (fresh.seen_spent known willing unfocused call).1, fun hn => absurd rfl hn⟩
  · refine ⟨exists_call spent.place called fun l => spent.drawn_openTasks,
      fun d => spent.readsFromFirst, fun drawn after call => ?_⟩
    refine ⟨fun hn' => absurd hn' hn, fun _ => ?_⟩
    obtain ⟨first, whole⟩ := spent.idle_call call
    exact ⟨spent.place, spent.closed, (first.canvas spent.closed).2, (whole.canvas spent.closed).2⟩

end

def ownCanvas : CanvasOptions := { width := .fixed 40, style := some ⟨false⟩ }

/-- A question with two answers at the keyboard. -/
def askedTwice : Scene where
  widgets := #[.dialog
    { prompt := .line { message := "Name" }
      slot := .owned ownCanvas
      keyboard := some { scripts := [.ofKeys [.char 'A', .enter], .ofKeys [.char 'B', .enter]] } }]

theorem calls_shownOnce_askedTwice :
    let first := (askedTwice.ask 0 ⟨0, none⟩).2
    let second := (first.ask 0 ⟨0, none⟩).2
    (askedTwice.place? 0 = some (.dialog, .owned ownCanvas) ∧
      ownCanvas.width.columns askedTwice.env ≠ 0 ∧ ownCanvas.behavior.Willing ∧
      askedTwice.focused 0 = none ∧ Widget.Kind.dialog ≠ .spinner ∧ Calls 0 askedTwice 1 first) ∧
    (∃ drawn, Seen 0 0 ⟨false⟩ drawn first) ∧ second.face? 0 = first.face? 0 := by
  intro first second
  have place : askedTwice.place? 0 = some (.dialog, .owned ownCanvas) := rfl
  have known : ownCanvas.width.columns askedTwice.env ≠ 0 := by decide
  have willing : ownCanvas.behavior.Willing := Sink.Behavior.willing_faultless
  obtain ⟨d, hd, -⟩ := exists_dialog place
  have call : Call 0 askedTwice (askedTwice.firstDrawn 0 d) first := .ask hd ⟨0, none⟩ id
  have calls : Calls 0 askedTwice 1 first := .call .start call
  obtain ⟨-, -, once⟩ := calls_shownOnce known willing rfl place nofun .start
  obtain ⟨-, -, again⟩ := calls_shownOnce known willing rfl place nofun calls
  have asks : ((askedTwice.ask 0 ⟨0, none⟩).2.dialog? 0).isSome = true := by decide +kernel
  obtain ⟨d', hd'⟩ := Option.isSome_iff_exists.mp asks
  have call' : Call 0 first (first.firstDrawn 0 d') second := .ask hd' ⟨0, none⟩ id
  obtain ⟨-, -, -, rests⟩ := (again _ _ call').2 Nat.one_ne_zero
  exact ⟨⟨place, known, willing, rfl, nofun, calls⟩, ⟨_, (once _ _ call).1 rfl⟩, rests⟩

theorem Shows.exists_frame {style : Style} {closing : Printer → List Text}
    (h : Shows w c style closing s) :
    ∃ frame ∈ s.frames c, Text.Utf8.encode ((s.gallery w style).text style) <:+: frame := by
  obtain ⟨q, earlier, last, hframes, hlast, hshown⟩ := h
  refine ⟨last, ?_, (Text.Utf8.infix_encode hshown).trans hlast.isInfix⟩
  rw [hframes]
  exact List.mem_append_right _ List.mem_cons_self

def buildTask : NewTask := { title := "Build", action := { outcome := .done .success } }

def ownList : Scene := { widgets := #[.tasks { slot := .owned ownCanvas }] }

/-- The second answer is given and the second task is run, and neither is ever shown: the canvas has
got the frames of the first call only. -/
theorem calls_secondUnseen :
    (let first := (askedTwice.ask 0 ⟨0, none⟩).2
      let second := first.ask 0 ⟨0, none⟩
      second.1 = .ok (.text "B") ∧ second.2.frames 0 = first.frames 0 ∧
        ∀ drawn, ¬ Seen 0 0 ⟨false⟩ drawn second.2) ∧
    let first := ((ownList.addTask 0 buildTask).runTasks 0).2
    let second := (first.addTask 0 fineTask).runTasks 0
    second.1 = .ok () ∧ second.2.frames 0 = first.frames 0 ∧
      ∀ drawn, ¬ Seen 0 0 ⟨false⟩ drawn second.2 := by
  have unseen {after : Scene} (missing : ∀ frame ∈ after.frames 0,
      ¬ Text.Utf8.encode ((after.gallery 0 ⟨false⟩).text ⟨false⟩) <:+: frame) (drawn : Scene) :
      ¬ Seen 0 0 ⟨false⟩ drawn after := by
    rintro ⟨-, -, erases, shows, last⟩
    obtain ⟨frame, hframe, shown⟩ := last.exists_frame
    exact missing frame hframe shown
  refine ⟨⟨?_, ?_, unseen ?_⟩, ?_, ?_, unseen ?_⟩ <;> decide +kernel

end Inlay.Scene
