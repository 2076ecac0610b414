import Inlay.Proofs.Prompts.Exhibited
import Inlay.Proofs.Prompts.Phases

namespace Inlay

open Text Keyboard

namespace Prompt

def message : Prompt → Text
  | confirm c => c.message
  | line l => l.message
  | select s => s.message
  | multiSelect m => m.message

theorem text_question (style : Style) (message : Text) {rest : Painting} :
    Painting.text style (paintQuestion style message ++ rest) =
      (style.highlight "? " ++ style.bold (message ++ ": ")) ++ Painting.text style rest := by
  rw [List.append_assoc]
  rfl

theorem text_ne_nil (style : Style) (p : Prompt) : (p.painting style).text style ≠ [] := by
  obtain ⟨rest, hrest⟩ : ∃ rest, p.painting style = paintQuestion style p.message ++ rest := by
    cases p with
    | confirm c | line l => exact ⟨_, rfl⟩
    | select s =>
        rw [painting, Select.painting, List.append_assoc, List.append_assoc]
        exact ⟨_, rfl⟩
    | multiSelect m =>
        rw [painting, MultiSelect.painting, List.append_assoc, List.append_assoc]
        exact ⟨_, rfl⟩
  have hmark : style.highlight "? " ≠ [] := by
    unfold Style.highlight Style.tint
    split
    · exact nofun
    · exact nofun
  rw [hrest, text_question, List.append_assoc]
  exact List.append_ne_nil_of_left_ne_nil hmark _

end Prompt

namespace Scene

variable {w : Nat} {c : CanvasRef} {s s' : Scene} {d : Dialog} {style : Style}

/-- A scene in which the last frame of a canvas shows a widget as a prompt. -/
structure InView (w : Nat) (c : CanvasRef) (style : Style) (s : Scene) (p : Prompt) : Prop where
  allowed : s.canUpdate (s.managerOf c) c = true
  canvas : ∃ e q, s.canvases[c]? = some e ∧
    e.canvas.Left w style ((p.painting style).text style) q

theorem inView_repaint {e : CanvasEntry} (call : DrawCall) (painted : call ≠ .clear)
    (he : s.canvases[c]? = some e) (exhibits : e.canvas.Exhibits w)
    (printed : (e.canvas.printerIn s.env).style = style)
    (allowed : s.canUpdate (s.managerOf c) c = true) (hd : s.dialog? w = some d) :
    InView w c style (s.draw c call).2 d.prompt := by
  have hangs : s.gallery w style = d.prompt.painting style := congrFun (gallery_of_dialog hd) style
  have nonempty : (s.gallery w style).text style ≠ [] := hangs ▸ d.prompt.text_ne_nil style
  obtain ⟨q, hleft⟩ := exhibits.repaint s.env s.pictures_gallery printed nonempty
  rw [hangs] at hleft
  have drawn := canvases_draw he exhibits.closed allowed call
  refine ⟨((sameStanding_draw s c call).canUpdate c).trans allowed, _, q, drawn, ?_⟩
  cases call with
  | run | update => exact hleft
  | clear => exact absurd rfl painted

theorem watched_inView (w : Nat) (c : CanvasRef) (style : Style) :
    Watched w c (InView w c style) := by
  constructor
  case follow =>
    rintro s d p hd ⟨allowed, e, q, he, left⟩
    have same := sameStanding_modifyDialog s w fun d => { d with prompt := p }
    have he' : (s.modifyDialog w fun d => { d with prompt := p }).canvases[c]? = some e := by
      rw [canvases_modifyDialog, he]
    have printed : (e.canvas.printerIn
        (s.modifyDialog w fun d => { d with prompt := p }).env).style = style :=
      (congrArg Printer.style (Canvas.printerIn_of_some left.printer _)).trans left.style
    exact inView_repaint .update nofun he' left.toExhibits printed
      ((same.canUpdate c).trans allowed) (dialog?_modifyDialog hd _)
  case wait =>
    rintro s p watch ⟨allowed, canvas⟩
    exact ⟨allowed, canvas⟩

/-- The last frame that a sink got shows a prompt, and after it the sink got closing texts that
depend on the printer of that frame. -/
def ShowsLast (style : Style) (p : Prompt) (closing : Printer → List Text) (sink : Sink) : Prop :=
  ∃ q earlier last, sink.frames = earlier ++ last :: (closing q).map Utf8.encode ∧
    Utf8.encode q.frame <:+ last ∧ (p.painting style).text style <:+: q.frame

/-- What is written after the last frame: what erases it and what shows the cursor. -/
def closingTexts (erases shows : Bool) (q : Printer) : List Text :=
  (if erases then [q.emptied.clear.frame] else []) ++
    if shows then [Cursor.showSequence] else []

theorem clear_of_left {e : CanvasEntry} {q : Printer} {text : Text} (he : s.canvases[c]? = some e)
    (allowed : s.canUpdate (s.managerOf c) c = true) (left : e.canvas.Left w style text q) :
    (s.clear c).1 = .ok () ∧ ∃ e', (s.clear c).2.canvases[c]? = some e' ∧
      e'.canvas.Closing q [q.emptied.clear.frame] := by
  obtain ⟨herased, hclosing⟩ := left.erase
  refine ⟨?_, _, canvases_draw he left.toExhibits.closed allowed .clear, hclosing⟩
  rw [clear, if_pos allowed, eraseUnlessClosed, he]
  dsimp only
  rw [Canvas.eraseUnlessClosed, left.toExhibits.closed, if_neg Bool.false_ne_true, herased]
  rfl

/-- After a reading of keys the last frame shows the prompt, and a prompt that clears on completion
erases it. -/
theorem closing_finish {i : Interaction} {read : Except Failure Unit × Keyboard × Scene}
    (ends : (askedKinds i.widget d (InView i.widget i.canvas style)).Ends read.1 read.2.2) :
    ∃ p e q, (i.finish read).2.2.dialog? i.widget = some { d with prompt := p } ∧
      (i.finish read).2.2.canvases[i.canvas]? = some e ∧
      (p.painting style).text style <:+: q.frame ∧
      e.canvas.Closing q (closingTexts
        (i.clearsOnCompletion && ((i.finish read).1.bind fun _ => p.answer).isOk) false q) := by
  obtain ⟨result, kb, s⟩ := read
  cases result with
  | error failure =>
      obtain ⟨p, hd, view⟩ : ∃ p, s.dialog? i.widget = some { d with prompt := p } ∧
          InView i.widget i.canvas style s p := by
        change Kinds.Failed _ s failure.summons? at ends
        generalize failure.summons? = reported at ends
        cases reported with
        | some summons =>
            obtain ⟨p, hd, -, view⟩ := ends
            exact ⟨p, hd, view⟩
        | none =>
            obtain ⟨p, hd, -, view⟩ := ends
            exact ⟨p, hd, view⟩
      obtain ⟨e, q, he, left⟩ := view.canvas
      refine ⟨p, e, q, hd, he, left.shown, ?_⟩
      change e.canvas.Closing q (closingTexts (i.clearsOnCompletion && false) false q)
      rw [Bool.and_false]
      exact left.toClosing
  | ok =>
      obtain ⟨p, hd, ⟨-, answer, hanswer⟩, view⟩ := ends
      change s.dialog? i.widget = _ at hd
      obtain ⟨e, q, he, left⟩ := view.canvas
      cases hclears : i.clearsOnCompletion with
      | true =>
          obtain ⟨hcleared, e', he', closing⟩ := clear_of_left he view.allowed left
          have hfinish : i.finish (.ok (), kb, s) =
              ((s.clear i.canvas).1, kb, (s.clear i.canvas).2) := if_pos hclears
          rw [hfinish, hcleared]
          refine ⟨p, e', q, (dialog?_of_widgets (widgets_clear s i.canvas) _).trans hd, he',
            left.shown, ?_⟩
          change e'.canvas.Closing q (closingTexts (true && p.answer.isOk) false q)
          rw [hanswer]
          exact closing
      | false =>
          have hfinish : i.finish (.ok (), kb, s) = (.ok (), kb, s) := by
            rw [Interaction.finish, hclears]
            rfl
          rw [hfinish]
          exact ⟨p, e, q, hd, he, left.shown, left.toClosing⟩

theorem closing_cursorShown {i : Interaction} {e : CanvasEntry} {q : Printer} {erases : Bool}
    (he : s.canvases[i.canvas]? = some e)
    (closing : e.canvas.Closing q (closingTexts erases false q)) :
    ∃ e', (s.cursorShown i).canvases[i.canvas]? = some e' ∧
      e'.canvas.Closing q (closingTexts erases i.hidesCursor q) := by
  unfold cursorShown closingTexts at *
  cases hhides : i.hidesCursor with
  | false => exact ⟨e, he, closing⟩
  | true =>
      refine ⟨{ e with canvas := (e.canvas.writeSequence s.env Cursor.showSequence).2 }, ?_, ?_⟩
      · rw [if_pos rfl, showCursor, writeSequence, he]
        exact canvases_modifyCanvas_self he _
      · have shown := closing.writeSequence s.env Cursor.showSequence
        rw [List.append_assoc] at shown
        exact shown

/-- The scene in which the first frame is drawn still exhibits the prompt. -/
theorem exhibits_cursorHidden {i : Interaction} {e : CanvasEntry}
    (he : s.canvases[i.canvas]? = some e) (exhibits : e.canvas.Exhibits w) :
    (s.hideCursor i.canvas).1 = .ok () ∧
      ∃ e', (s.cursorHidden i).canvases[i.canvas]? = some e' ∧ e'.canvas.Exhibits w ∧
        e'.canvas.printerIn s.env = e.canvas.printerIn s.env := by
  obtain ⟨hresult, exhibits', hprinter⟩ := exhibits.writeSequence s.env Cursor.hideSequence
  constructor
  · rw [hideCursor, writeSequence, he]
    dsimp only
    rw [hresult]
    rfl
  · unfold cursorHidden
    split
    · refine ⟨{ e with canvas := (e.canvas.writeSequence s.env Cursor.hideSequence).2 }, ?_,
        exhibits', hprinter⟩
      rw [hideCursor, writeSequence, he]
      exact canvases_modifyCanvas_self he _
    · exact ⟨e, he, exhibits, rfl⟩

theorem sameStanding_cursorHidden (s : Scene) (i : Interaction) :
    SameStanding s (s.cursorHidden i) := by
  unfold cursorHidden
  split
  · exact sameStanding_writeSequence s i.canvas _
  · rfl

/-- Where the canvas exhibits the prompt, the first frame has it in view. -/
theorem inView_run (h : s.dialog? w = some d) {e : CanvasEntry}
    (he : (s.openDialog w d).2.canvases[(s.openDialog w d).1.1]? = some e)
    (exhibits : e.canvas.Exhibits w) :
    ((s.granted w d).hideCursor (s.interaction w d).canvas).1 = .ok () ∧
      InView w (s.interaction w d).canvas (e.canvas.printerIn s.env).style
        (((s.granted w d).cursorHidden (s.interaction w d)).run (s.interaction w d).canvas).2
        (d.prompt.withPhase .interacting) := by
  let i := s.interaction w d
  obtain ⟨slot, hgranted⟩ := dialog?_granted h
  have henv : (s.granted w d).env = s.env := (evolves_focus _ _).env.trans (env_openDialog s w d)
  have he₁ : (s.granted w d).canvases[i.canvas]? = some e := (canvases_focus_self _ _).trans he
  obtain ⟨hhidden, e₂, he₂, exhibits₂, hprinter⟩ := exhibits_cursorHidden (i := i) he₁ exhibits
  have same := (s.granted w d).sameStanding_cursorHidden i
  have hd₂ : ((s.granted w d).cursorHidden i).dialog? w = (s.granted w d).dialog? w :=
    dialog?_of_widgets (widgets_cursorHidden _ _) w
  have printed : (e₂.canvas.printerIn ((s.granted w d).cursorHidden i).env).style =
      (e.canvas.printerIn s.env).style := by
    rw [same.env, hprinter, henv]
  exact ⟨hhidden, inView_repaint .run nofun he₂ exhibits₂ printed
    ((same.canUpdate i.canvas).trans (canUpdate_focus _ _)) (hd₂.trans hgranted)⟩

/-- Where the canvas exhibits the prompt, the reading of keys leaves it in view. -/
theorem inView_attempt (h : s.dialog? w = some d) {e : CanvasEntry}
    (he : (s.openDialog w d).2.canvases[(s.openDialog w d).1.1]? = some e)
    (exhibits : e.canvas.Exhibits w) (token : Token) (amid : List Occurrence → List Occurrence)
    (kb : Keyboard) :
    ∃ slot read, (askedKinds w { d with slot := slot } (InView w (s.openDialog w d).1.1
        (e.canvas.printerIn s.env).style)).Ends read.1 read.2.2 ∧
      (s.interaction w d).attempt amid token kb (s.granted w d) =
        (s.interaction w d).finish read := by
  let i := s.interaction w d
  obtain ⟨slot, hgranted⟩ := dialog?_granted h
  obtain ⟨hhidden, view⟩ := inView_run h he exhibits
  have hdrawn : (((s.granted w d).cursorHidden i).run i.canvas).2.dialog? w =
      (s.granted w d).dialog? w :=
    dialog?_of_widgets ((widgets_run _ _).trans (widgets_cursorHidden _ _)) w
  have drawn : (askedKinds w { d with slot := slot } (InView w i.canvas
      (e.canvas.printerIn s.env).style)).ongoing
        (((s.granted w d).cursorHidden i).run i.canvas).2 :=
    ⟨_, hdrawn.trans hgranted, Prompt.phase_withPhase _ _, view⟩
  obtain ⟨read, ends, hattempt⟩ := Interaction.ends_attempt (i := i)
    (watched_inView w i.canvas _) amid token kb
    (fun failure hfailure => by rw [hhidden] at hfailure; cases hfailure) drawn
  exact ⟨slot, read, ends, hattempt⟩

theorem showsLast_ask (h : s.dialog? w = some d) {d' : Dialog} (token : Token)
    (amid : List Occurrence → List Occurrence) (after : (s.ask w token amid).2.dialog? w = some d')
    {e : CanvasEntry} (he : (s.openDialog w d).2.canvases[(s.openDialog w d).1.1]? = some e)
    (exhibits : e.canvas.Exhibits w)
    (known : (s.ask w token amid).2.width? (s.openDialog w d).1.1 ≠ some 0) :
    ∃ sink, (s.ask w token amid).2.sink? (s.openDialog w d).1.1 = some sink ∧
      ShowsLast (e.canvas.printerIn s.env).style d'.prompt
        (closingTexts (d.prompt.clearsOnCompletion && (s.ask w token amid).1.isOk)
          d.prompt.hidesCursor) sink := by
  let i := s.interaction w d
  obtain ⟨slot, read, ends, hattempt⟩ := inView_attempt h he exhibits token amid d.reader.load
  obtain ⟨p, e₃, q, hd₃, he₃, shown, closing⟩ := closing_finish (i := i) ends
  obtain ⟨e₄, he₄, closing₄⟩ := closing_cursorShown (i := i) he₃ closing
  have hasked := askDialog_eq s w d token amid
  rw [hattempt] at hasked
  rw [ask_snd h] at after known ⊢
  rw [ask_fst h token amid after]
  obtain ⟨d₄, hd₄, hprompt⟩ := prompt_cleanUp hd₃ (s.openDialog w d).1.2
    ((s.openDialog w d).2.focus (s.openDialog w d).1.1).1 (i.finish read).2.1
  rw [hasked] at after known ⊢
  obtain rfl := Option.some.inj (hd₄.symm.trans after)
  change d₄.prompt = p at hprompt
  have hknown : q.width ≠ 0 := by
    obtain ⟨p₃, hp₃, hwidth⟩ := closing.width
    have hwidth? : (i.finish read).2.2.width? i.canvas = some q.width := by
      rw [width?, printer, he₃, Option.map_some, Option.map_some, Canvas.printerIn_of_some hp₃,
        hwidth]
    intro hzero
    exact known ((width?_cleanUp _ i _ _ _).trans (hwidth?.trans (congrArg some hzero)))
  obtain ⟨-, earlier, last, hframes, hlast⟩ := closing₄.written hknown
  rw [hprompt]
  refine ⟨e₄.canvas.sink, ?_, q, earlier, last, hframes, hlast, shown⟩
  exact (sink?_cleanUp _ i _ _ _ _).trans
    (congrArg (Option.map fun e : CanvasEntry => e.canvas.sink) he₄)

theorem ShowsLast.getLast? {p : Prompt} {sink : Sink}
    (h : ShowsLast style p (closingTexts false false) sink) :
    ∃ last, sink.frames.getLast? = some last ∧
      Utf8.encode ((p.painting style).text style) <:+: last := by
  obtain ⟨q, earlier, last, hframes, hlast, hshown⟩ := h
  refine ⟨last, ?_, (Utf8.infix_encode hshown).trans hlast.isInfix⟩
  rw [hframes]
  exact List.getLast?_concat

end Scene

end Inlay
