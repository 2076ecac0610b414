import Inlay.Proofs.Log.Reference
import Inlay.Proofs.Scene.Calls
/-!
A canvas of unknown width over many drawings. It hands to its sink what is new of each frame, once:
with a willing sink the log is the reference, and what a faulting sink did not take of a row is not
offered again.
-/

namespace Inlay

open Text

/-- A frame that was drawn, how its call ended and what the sink took of it. -/
structure Drawing where
  frame : Text
  result : Except Failure Unit
  taken : List UInt8

namespace Drawing

/-- What a drawing adds to a log: a first part of what is new in its frame, and all of it unless the
sink refused something. -/
structure Logged (d : Drawing) (earlier : List Drawing) : Prop where
  taken : d.taken <+: Utf8.encode (Log.news (earlier.map frame) d.frame)
  all : ¬ Unwritten d.result → d.taken = Utf8.encode (Log.news (earlier.map frame) d.frame)

/-- The drawing that brought a text into a row which has shown no other text since. The whole line
is in what the sink took of it, unless the sink refused something. -/
structure Brings (row : Nat) (text : Text) (d : Drawing) (earlier later : List Drawing) :
    Prop where
  shown : Log.rowShown? d.frame row = some text
  new : Log.latest? row (earlier.map frame) ≠ some text
  since : ∀ d' ∈ later, ∀ text', Log.rowShown? d'.frame row = some text' → text' = text
  whole : ¬ Unwritten d.result → ∃ line before after, (allLines d.frame)[row]? = some line ∧
    d.taken = Utf8.encode (before ++ line ++ "\n" ++ after)

end Drawing

namespace Log

/-- A line that shows another text than is known of its row is written whole. -/
theorem exists_newLines (known : Nat → Option Text) (row : Nat) {i : Nat} {lines : List Text}
    {line : Text} (hline : lines[i]? = some line) (hshown : shown? line ≠ none)
    (hnew : shown? line ≠ known (row + i)) :
    ∃ before after, newLines known row lines = before ++ line ++ "\n" ++ after := by
  induction lines generalizing row i with
  | nil => cases hline
  | cons first rest ih =>
      rw [newLines_cons]
      cases i with
      | zero =>
          rw [List.getElem?_cons_zero, Option.some.injEq] at hline
          rw [Nat.add_zero] at hnew
          rw [hline, if_neg (not_or.mpr ⟨hshown, hnew⟩)]
          exact ⟨[], newLines known (row + 1) rest, rfl⟩
      | succ i =>
          rw [List.getElem?_cons_succ] at hline
          rw [show row + (i + 1) = row + 1 + i by omega] at hnew
          obtain ⟨before, after, hrest⟩ := ih (row + 1) hline hnew
          rw [hrest]
          refine ⟨(if shown? first = none ∨ shown? first = known row then []
            else first ++ ("\n" : Text)) ++ before, after, ?_⟩
          simp only [List.append_assoc]

/-- A text that a row showed last was brought there by one of the drawings. -/
theorem exists_brings {history : List Drawing} {row : Nat} {text : Text}
    (logged : ∀ d earlier, d :: earlier <:+ history → d.Logged earlier)
    (h : latest? row (history.map Drawing.frame) = some text) :
    ∃ later d earlier, history = later ++ d :: earlier ∧ d.Brings row text earlier later := by
  induction history with
  | nil => cases h
  | cons d earlier ih =>
      have inEarlier (hbefore : latest? row (earlier.map Drawing.frame) = some text)
          (hsame : ∀ text', rowShown? d.frame row = some text' → text' = text) :
          ∃ later d' earlier', d :: earlier = later ++ d' :: earlier' ∧
            d'.Brings row text earlier' later := by
        obtain ⟨later, d', earlier', rfl, brings⟩ := ih
          (fun d' earlier' hsuffix => logged d' earlier' (hsuffix.trans (List.suffix_cons d _)))
          hbefore
        refine ⟨d :: later, d', earlier', rfl, brings.shown, brings.new, ?_, brings.whole⟩
        exact List.forall_mem_cons.mpr ⟨hsame, brings.since⟩
      rw [List.map_cons, latest?] at h
      cases hshown : rowShown? d.frame row with
      | none =>
          rw [hshown, Option.none_or] at h
          exact inEarlier h (by simp [hshown])
      | some shown =>
          rw [hshown, Option.some_or, Option.some.injEq] at h
          rw [h] at hshown
          by_cases hbefore : latest? row (earlier.map Drawing.frame) = some text
          · exact inEarlier hbefore (by simp [hshown])
          · refine ⟨[], d, earlier, rfl, hshown, hbefore, nofun, ?_⟩
            intro written
            obtain ⟨line, hline, htext⟩ := Option.bind_eq_some_iff.mp hshown
            obtain ⟨before, after, hnews⟩ := exists_newLines
              (latest? · (earlier.map Drawing.frame)) 0 hline (htext ▸ Option.some_ne_none text)
              (by rw [Nat.zero_add, htext]; exact Ne.symm hbefore)
            refine ⟨line, before, after, hline, ?_⟩
            rw [(logged d earlier (List.suffix_refl _)).all written, news, hnews]

/-- A frame whose rows show what those of the frame before showed has no news. -/
theorem news_eq_nil {latest frame : Text} {before : List Text}
    (h : ∀ row, rowShown? frame row = rowShown? latest row) :
    news (latest :: before) frame = [] := by
  have passed : ∀ (lines : List Text) (row : Nat),
      (∀ i line, lines[i]? = some line → (allLines frame)[row + i]? = some line) →
      newLines (latest? · (latest :: before)) row lines = [] := by
    intro lines
    induction lines with
    | nil => exact fun _ _ => rfl
    | cons line rest ih =>
        intro row hlines
        have hline : shown? line = rowShown? latest row := by
          rw [← h row, rowShown?, ← Nat.add_zero row, hlines 0 line rfl]
          rfl
        rw [newLines_cons, if_pos, List.nil_append, ih]
        · intro i line' hline'
          rw [show row + 1 + i = row + (i + 1) by omega]
          exact hlines (i + 1) line' hline'
        · cases hshown : shown? line with
          | none => exact Or.inl rfl
          | some text =>
              right
              rw [latest?, ← hline, hshown, Option.some_or]
  exact passed _ 0 fun i line hline => by rwa [Nat.zero_add]

theorem flatMap_taken_eq {history : List Drawing}
    (logged : ∀ d earlier, d :: earlier <:+ history → d.Logged earlier)
    (written : ∀ d ∈ history, ¬ Unwritten d.result) :
    history.reverse.flatMap Drawing.taken =
      Utf8.encode (reference (history.map Drawing.frame)) := by
  induction history with
  | nil => rfl
  | cons d earlier ih =>
      obtain ⟨hd, hearlier⟩ := List.forall_mem_cons.mp written
      have before := ih
        (fun d' earlier' hsuffix => logged d' earlier' (hsuffix.trans (List.suffix_cons d _)))
        hearlier
      rw [List.reverse_cons, List.flatMap_append, before, List.flatMap_singleton,
        (logged d earlier (List.suffix_refl _)).all hd, List.map_cons, reference,
        Utf8.encode_append]

end Log

namespace Canvas

/-- A canvas of unknown width that has drawn nothing, and none of whose visuals sets the width. -/
structure Unlogged (env : Environment) (c : Canvas) : Prop where
  printer : c.printer = none
  width : c.width.columns env = 0
  logged : c.logged = []
  steady : c.Steady

/-- A canvas of unknown width that remembers the frames it drew, of which the latest comes first. -/
structure Logs (env : Environment) (frames : List Text) (c : Canvas) : Prop where
  unknown : (c.printerIn env).width = 0
  emptied : (c.printerIn env).frame = []
  steady : c.Steady
  remembers : ∀ row, Log.remembered c.logged row = Log.latest? row frames

variable {env : Environment} {gallery : Gallery} {c : Canvas} {frames : List Text}

theorem Unlogged.logs (h : c.Unlogged env) : c.Logs env [] := by
  have hprinter : c.printerIn env = { width := 0, style := c.style.getD env.style } := by
    rw [printerIn_of_none h.printer, h.width]
  refine ⟨congrArg Printer.width hprinter, congrArg Printer.frame hprinter, h.steady, ?_⟩
  intro row
  rw [h.logged]
  rfl

theorem Logs.withPrinter (h : c.Logs env frames) : (c.withPrinter env).Logs env frames :=
  ⟨h.unknown, h.emptied, h.steady, h.remembers⟩

/-- The printer hands over nothing but the text of the frame. -/
theorem Logs.painted (hg : gallery.KeepsWidth) (h : c.Logs env frames) :
    let painted := Frame.paint gallery (c.printerIn env).clear c.visuals
    painted.printer.frame = c.frameText env gallery ∧ painted.printer.width = 0 := by
  intro painted
  have hunknown : (c.printerIn env).clear.width = 0 := (Printer.width_clear _).trans h.unknown
  obtain ⟨hframe, hpainted⟩ := Frame.frame_paint (p := (c.printerIn env).clear)
    fun v hv => Visual.addsText_of_unknown hg hunknown (h.steady v hv)
  constructor
  · rw [hframe, Printer.frame_clear_of_unknown h.unknown, h.emptied, List.nil_append,
      Printer.style_clear]
    rfl
  · exact (congrArg Prod.fst hpainted).trans hunknown

theorem Logs.repaint (hg : gallery.KeepsWidth) (h : c.Logs env frames) :
    (c.repaint env gallery).canvas.Logs env (c.frameText env gallery :: frames) := by
  obtain ⟨hframe, hwidth⟩ := h.painted hg
  constructor
  case unknown =>
    exact ((redrawn_repaint c env hg).steady h.steady).2.trans h.unknown
  case emptied =>
    rw [printerIn, printer_repaint]
    rfl
  case steady => exact ((redrawn_repaint c env hg).steady h.steady).1
  case remembers =>
    intro row
    change Log.remembered (Canvas.flush _ _).2.logged row = _
    rw [logged_flush, if_pos hwidth, hframe, (Log.newRows_eq _ _ _).2, if_pos (Nat.zero_le row),
      h.remembers]
    rfl

/-- A repaint offers the sink what is new in the frame. -/
theorem Logs.takes_repaint (hg : gallery.KeepsWidth) (h : c.Logs env frames) :
    ∃ taken, (c.repaint env gallery).canvas.sink.received = c.sink.received ++ taken ∧
      taken <+: Utf8.encode (Log.news frames (c.frameText env gallery)) ∧
      (¬ Unwritten (c.repaint env gallery).result →
        taken = Utf8.encode (Log.news frames (c.frameText env gallery))) := by
  obtain ⟨hframe, hwidth⟩ := h.painted hg
  obtain ⟨hcanvas, hwritten⟩ := repaint_eq c env gallery
  obtain ⟨taken, htaken, hreceived, hall⟩ := takes_flush_of_unknown
    { c with visuals := (Frame.paint gallery (c.printerIn env).clear c.visuals).visuals } hwidth
  have hnews : (newRows c.logged 0 (allLines (c.frameText env gallery))).1 =
      Log.news frames (c.frameText env gallery) :=
    (Log.newRows_eq _ _ _).1.trans (Log.newLines_congr (fun i _ => h.remembers i) _)
  rw [hframe, hnews] at htaken hall
  refine ⟨taken, ?_, htaken, fun written => hall (hwritten.mp written)⟩
  rw [hcanvas]
  exact hreceived

/-- There is nothing to erase. -/
theorem Logs.erase (h : c.Logs env frames) :
    c.erase.2.Logs env frames ∧ c.erase.2.sink = c.sink := by
  rw [Canvas.erase]
  cases hp : c.printer with
  | none => exact ⟨h, rfl⟩
  | some p =>
      have hprinter := printerIn_of_some hp env
      have hwidth : p.clear.width = 0 := p.width_clear.trans (hprinter ▸ h.unknown)
      have hframe : p.clear.frame = [] :=
        (Printer.frame_clear_of_unknown (hprinter ▸ h.unknown)).trans (hprinter ▸ h.emptied)
      have hflush : (c.flush p.clear).2 = { c with printer := some p.clear.emptied } := by
        rw [flush, if_pos hwidth, hframe]
        rfl
      dsimp only
      rw [hflush]
      exact ⟨⟨hwidth, rfl, h.steady, h.remembers⟩, rfl⟩

/-- No sequence goes past the printer. -/
theorem Logs.writeSequence (h : c.Logs env frames) (sequence : Text) :
    (c.writeSequence env sequence).2.Logs env frames ∧
      (c.writeSequence env sequence).2.sink = c.sink := by
  unfold Canvas.writeSequence
  split
  · exact ⟨h, rfl⟩
  · dsimp only
    rw [if_pos h.withPrinter.unknown]
    exact ⟨h.withPrinter, rfl⟩

end Canvas

namespace Scene

variable {s s' s'' : Scene} {c : CanvasRef} {e : CanvasEntry} {history : List Drawing}

/-- What a call draws: nothing if it only clears, or if the canvas is not drawn. -/
def drawings (s : Scene) (c : CanvasRef) (call : DrawCall) : List Drawing :=
  if call = .clear ∨ s.draws c = false then []
  else
    [{ frame := s.textAfter c call
       result := (s.draw c call).1
       taken := ((s.draw c call).2.received c).drop (s.received c).length }]

/-- What may happen beside the drawing of a canvas: it gets other visuals or what they show changes,
the focus moves, the canvas is closed. -/
structure Aside (c : CanvasRef) (s s' : Scene) : Prop where
  env : s'.env = s.env
  canvas : ∀ e, s.canvases[c]? = some e → ∃ e', s'.canvases[c]? = some e' ∧
    e'.canvas.sink = e.canvas.sink ∧ e'.canvas.logged = e.canvas.logged ∧
    (e'.canvas.printerIn s.env).width = (e.canvas.printerIn s.env).width ∧
    (e'.canvas.printerIn s.env).frame = (e.canvas.printerIn s.env).frame ∧
    (e.canvas.Steady → e'.canvas.Steady)

/-- Scenes that come of drawing on a canvas and of hiding and showing the cursor, with what was
drawn. The latest drawing comes first. -/
inductive LogSession (c : CanvasRef) (s : Scene) : Scene → List Drawing → Prop
  | begun : LogSession c s s []
  | draw {s' : Scene} {history : List Drawing} (session : LogSession c s s' history)
      (call : DrawCall) : LogSession c s (s'.draw c call).2 (s'.drawings c call ++ history)
  | hideCursor {s' : Scene} {history : List Drawing} (session : LogSession c s s' history) :
      LogSession c s (s'.hideCursor c).2 history
  | showCursor {s' : Scene} {history : List Drawing} (session : LogSession c s s' history) :
      LogSession c s (s'.showCursor c).2 history
  | meanwhile {s' s'' : Scene} {history : List Drawing} (session : LogSession c s s' history)
      (aside : Aside c s' s'') : LogSession c s s'' history

/-- The canvas remembers what was drawn. Its sink was as `origin` at first and has got since what
was taken of each drawing, in order. -/
structure Keeps (s : Scene) (c : CanvasRef) (origin : Sink) (history : List Drawing) : Prop where
  canvas : ∃ e, s.canvases[c]? = some e ∧ e.canvas.Logs s.env (history.map Drawing.frame) ∧
    e.canvas.sink.behavior = origin.behavior
  received : s.received c = origin.received ++ history.reverse.flatMap Drawing.taken
  logged : ∀ d earlier, d :: earlier <:+ history → d.Logged earlier
  written : origin.behavior.Willing → ∀ d ∈ history, ¬ Unwritten d.result

variable {origin : Sink}

/-- A call that draws nothing keeps what the sink has got. -/
theorem Keeps.keep (h : s.Keeps c origin history) (henv : s'.env = s.env)
    (canvas : ∀ e, s.canvases[c]? = some e → e.canvas.Logs s.env (history.map Drawing.frame) →
      ∃ e', s'.canvases[c]? = some e' ∧
        e'.canvas.Logs s.env (history.map Drawing.frame) ∧
        e'.canvas.sink = e.canvas.sink) :
    s'.Keeps c origin history ∧ s'.received c = s.received c := by
  obtain ⟨e, he, hlogs, hbehavior⟩ := h.canvas
  obtain ⟨e', he', hlogs', hsink⟩ := canvas e he hlogs
  have hreceived : s'.received c = s.received c := by
    rw [received_of_getElem? he, received_of_getElem? he', hsink]
  rw [← henv] at hlogs'
  rw [← hsink] at hbehavior
  exact ⟨⟨⟨e', he', hlogs', hbehavior⟩, hreceived.trans h.received, h.logged, h.written⟩,
    hreceived⟩

theorem Keeps.aside (h : s.Keeps c origin history) (aside : Aside c s s') :
    s'.Keeps c origin history := by
  refine (h.keep aside.env fun e he hlogs => ?_).1
  obtain ⟨e', he', hsink, hlogged, hwidth, hframe, hsteady⟩ := aside.canvas e he
  exact ⟨e', he', ⟨hwidth.trans hlogs.unknown, hframe.trans hlogs.emptied, hsteady hlogs.steady,
    fun row => hlogged ▸ hlogs.remembers row⟩, hsink⟩

theorem Keeps.writeSequence (h : s.Keeps c origin history) (sequence : Text) :
    (s.writeSequence c sequence).2.Keeps c origin history ∧
      (s.writeSequence c sequence).2.received c = s.received c := by
  apply h.keep (sameStanding_writeSequence s c sequence).env
  intro e he hlogs
  rw [Scene.writeSequence, he]
  obtain ⟨hlogs', hsink⟩ := hlogs.writeSequence sequence
  exact ⟨_, canvases_modifyCanvas_self he _, hlogs', hsink⟩

/-- A call that does not draw the canvas, or only clears it. -/
theorem Keeps.draw_nothing (h : s.Keeps c origin history) {call : DrawCall}
    (hnone : call = .clear ∨ s.draws c = false) :
    (s.draw c call).2.Keeps c origin history ∧
      (s.draw c call).2.received c = s.received c := by
  apply h.keep (sameStanding_draw s c call).env
  intro e he hlogs
  cases hdraws : s.draws c with
  | true =>
      rw [hnone.resolve_right (by simp [hdraws]), canvases_draw_of_draws he hdraws]
      obtain ⟨hlogs', hsink⟩ := hlogs.erase
      exact ⟨_, rfl, hlogs', hsink⟩
  | false =>
      rcases (draw_of_not_draws he hdraws call).2 with he' | he'
      · exact ⟨e, he', hlogs, rfl⟩
      · exact ⟨_, he', hlogs.withPrinter, rfl⟩

/-- A drawing of the canvas hands over what is new in its frame. -/
theorem Keeps.draw_frame (h : s.Keeps c origin history) {call : DrawCall}
    (hcall : call ≠ .clear) (hdraws : s.draws c = true) :
    ∃ taken, (s.draw c call).2.received c = s.received c ++ taken ∧
      (s.draw c call).2.Keeps c origin
        (⟨s.textAfter c call, (s.draw c call).1, taken⟩ :: history) := by
  obtain ⟨e, he, hlogs, hbehavior⟩ := h.canvas
  have he' := canvases_draw_of_draws he hdraws call
  have hresult := result_draw he hdraws call
  have henv := (sameStanding_draw s c call).env
  have hg := s.keepsWidth_gallery
  obtain ⟨taken, hreceived, htaken, hall⟩ := hlogs.takes_repaint hg
  have hdrawn : e.canvas.drawn s.env s.gallery call = (e.canvas.repaint s.env s.gallery).canvas ∧
      e.canvas.drawnResult s.env s.gallery call = (e.canvas.repaint s.env s.gallery).result ∧
      s.textAfter c call = e.canvas.frameText s.env s.gallery := by
    cases call with
    | clear => exact absurd rfl hcall
    | run | update =>
        rw [textAfter, he]
        exact ⟨rfl, rfl, rfl⟩
  rw [hdrawn.1] at he'
  rw [hdrawn.2.1] at hresult
  rw [hdrawn.2.2, hresult]
  have hreceived' : (s.draw c call).2.received c = s.received c ++ taken := by
    rw [received_of_getElem? he', received_of_getElem? he]
    exact hreceived
  refine ⟨taken, hreceived', ?_⟩
  constructor
  case canvas =>
    obtain ⟨texts, hsink⟩ := (e.canvas.redrawn_repaint s.env hg).sink
    rw [henv]
    refine ⟨_, he', hlogs.repaint hg, ?_⟩
    dsimp only
    rw [hsink, Sink.behavior_attempts, hbehavior]
  case received =>
    rw [hreceived', h.received, List.reverse_cons, List.flatMap_append, List.append_assoc,
      List.flatMap_singleton]
  case logged =>
    intro d earlier hsuffix
    rcases List.suffix_cons_iff.mp hsuffix with heq | hsuffix
    · obtain ⟨rfl, rfl⟩ := List.cons.inj heq
      exact ⟨htaken, hall⟩
    · exact h.logged d earlier hsuffix
  case written =>
    intro willing
    refine List.forall_mem_cons.mpr ⟨?_, h.written willing⟩
    rw [← hbehavior] at willing
    exact Canvas.written_repaint_of_willing willing s.env s.gallery

theorem Keeps.draw (h : s.Keeps c origin history) (call : DrawCall) :
    (s.draw c call).2.Keeps c origin (s.drawings c call ++ history) := by
  unfold drawings
  split
  · rename_i hnone
    exact (h.draw_nothing hnone).1
  · rename_i hdrawn
    rw [not_or, Bool.not_eq_false] at hdrawn
    obtain ⟨taken, hreceived, hkeeps⟩ := h.draw_frame hdrawn.1 hdrawn.2
    rw [hreceived, List.drop_left]
    exact hkeeps

theorem keeps_logSession (he : s.canvases[c]? = some e) (unlogged : e.canvas.Unlogged s.env)
    (session : LogSession c s s' history) : s'.Keeps c e.canvas.sink history := by
  induction session with
  | begun =>
      refine ⟨⟨e, he, unlogged.logs, rfl⟩, ?_, ?_, nofun⟩
      · rw [received_of_getElem? he]
        exact (List.append_nil _).symm
      · intro d earlier hsuffix
        cases List.suffix_nil.mp hsuffix
  | draw _ call ih => exact ih.draw call
  | hideCursor _ ih => exact (ih.writeSequence _).1
  | showCursor _ ih => exact (ih.writeSequence _).1
  | meanwhile _ aside ih => exact ih.aside aside

/-- With a willing sink the log is the reference of the frames: the rows that are not blank and show
another text than they showed last, each as it was printed. Clearing, hiding and showing the cursor
add nothing, and neither does a frame whose rows show what they showed in the frame before. -/
theorem received_logSession (he : s.canvases[c]? = some e) (unlogged : e.canvas.Unlogged s.env)
    (willing : e.canvas.sink.behavior.Willing) (session : LogSession c s s' history) :
    s'.received c =
        s.received c ++ Utf8.encode (Log.reference (history.map Drawing.frame)) ∧
      (s'.draw c .clear).2.received c = s'.received c ∧
      (s'.hideCursor c).2.received c = s'.received c ∧
      (s'.showCursor c).2.received c = s'.received c ∧
      ∀ call latest earlier, history = latest :: earlier →
        (∀ row, Log.rowShown? (s'.textAfter c call) row = Log.rowShown? latest.frame row) →
        (s'.draw c call).2.received c = s'.received c := by
  have keeps := keeps_logSession he unlogged session
  refine ⟨?_, (keeps.draw_nothing (Or.inl rfl)).2, (keeps.writeSequence _).2,
    (keeps.writeSequence _).2, ?_⟩
  · rw [keeps.received, received_of_getElem? he,
      Log.flatMap_taken_eq keeps.logged (keeps.written willing)]
  · rintro call latest earlier rfl hsame
    by_cases hnone : call = .clear ∨ s'.draws c = false
    · exact (keeps.draw_nothing hnone).2
    · rw [not_or, Bool.not_eq_false] at hnone
      obtain ⟨taken, hreceived, hkeeps⟩ := keeps.draw_frame hnone.1 hnone.2
      have htaken : taken <+: _ := (hkeeps.logged _ _ (List.suffix_refl _)).taken
      rw [List.map_cons, Log.news_eq_nil hsame] at htaken
      rw [hreceived, List.prefix_nil.mp htaken, List.append_nil]

/-- A list that shows one new row from its second frame on. -/
def listing (behavior : Sink.Behavior) : Scene :=
  (newCanvas {} 0
    { visuals := [.drawn (fun frame =>
        if frame = 0 then [.print "a\n", .print "b"]
        else [.moveTo ⟨0, 0⟩, .printLine "a", .print "c"]) 0]
      width := .fixed 0
      sink := { behavior := behavior } }).2

theorem steady_listing (behavior : Sink.Behavior) : (listing behavior).Steady 0 := by
  intro e he
  obtain rfl := Option.some.inj he
  refine List.forall_mem_singleton.mpr fun frame => ?_
  dsimp only
  split
  · rfl
  · rfl

theorem received_logSession_listing :
    let s := (((listing .faultless).draw 0 .run).2.hideCursor 0).2
    (s.draw 0 .update).2.received 0 = Utf8.encode "a\nb\nc\n" := by
  intro s
  exact (received_logSession (s := listing .faultless) rfl
    ⟨rfl, rfl, rfl, steady_listing .faultless _ rfl⟩ Sink.Behavior.willing_faultless
    (.draw (.hideCursor (.draw .begun .run)) .update)).1

/-- Whatever the sink refuses, each drawing hands it once what is new in its frame. A row that is
shown was brought by the drawing that showed its text first, and its whole line is in the log unless
the sink refused something of that very drawing. No later drawing offers the line again. -/
theorem brought_logSession (he : s.canvases[c]? = some e) (unlogged : e.canvas.Unlogged s.env)
    (session : LogSession c s s' history) :
    s'.received c = s.received c ++ history.reverse.flatMap Drawing.taken ∧
      ∀ d earlier, d :: earlier <:+ history →
        d.taken <+: Utf8.encode (Log.news (earlier.map Drawing.frame) d.frame) ∧
        (¬ Unwritten d.result →
          d.taken = Utf8.encode (Log.news (earlier.map Drawing.frame) d.frame)) ∧
        ∀ row text, Log.rowShown? d.frame row = some text →
          ∃ later first before, d :: earlier = later ++ first :: before ∧
            first.Brings row text before later := by
  have keeps := keeps_logSession he unlogged session
  refine ⟨by rw [keeps.received, received_of_getElem? he], ?_⟩
  intro d earlier hsuffix
  obtain ⟨htaken, hall⟩ := keeps.logged d earlier hsuffix
  refine ⟨htaken, hall, ?_⟩
  intro row text hshown
  apply Log.exists_brings fun d' earlier' hsuffix' => keeps.logged d' earlier'
    (hsuffix'.trans hsuffix)
  rw [List.map_cons, Log.latest?, hshown, Option.some_or]

/-- The first row was brought by the drawing that the sink refused. -/
theorem brought_logSession_refused :
    let s := ((listing .refusingFirst).draw 0 .run).2
    ∃ later first before,
      s.drawings 0 .update ++ (listing .refusingFirst).drawings 0 .run =
        later ++ first :: before ∧
      first.Brings 0 "a" before later := by
  intro s
  obtain ⟨-, hdrawings⟩ := brought_logSession (s := listing .refusingFirst) (c := 0) rfl
    ⟨rfl, rfl, rfl, steady_listing .refusingFirst _ rfl⟩ (.draw (.draw .begun .run) .update)
  obtain ⟨-, -, hbrought⟩ := hdrawings _ _ (List.suffix_refl _)
  exact hbrought 0 "a" rfl

/-- A line that was refused is not offered again by the next call, although that shows its row and
succeeds. -/
theorem update_losesRefusedLine :
    let s := ((listing .refusingFirst).draw 0 .run).2
    Unwritten ((listing .refusingFirst).draw 0 .run).1 ∧
      (s.draw 0 .update).1 = .ok () ∧
      Log.rowShown? (s.textAfter 0 .update) 0 = some "a" ∧
      (s.draw 0 .update).2.received 0 = Utf8.encode "c\n" := by
  refine ⟨⟨⟨.brokenPipe, "broken pipe"⟩, ?_⟩, ?_, rfl, ?_⟩
  · decide +kernel
  · decide +kernel
  · decide +kernel

end Scene

end Inlay
