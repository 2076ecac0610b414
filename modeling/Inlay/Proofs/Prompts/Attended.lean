import Inlay.Proofs.Keyboard.Enough
import Inlay.Proofs.Prompts.Reasked
import Inlay.Proofs.Scene.InSight

namespace Inlay

open Text Keyboard

namespace Prompt

variable (p : Prompt) (keys : List Key) (key : Key)

/-- The events of keys that begin an asking. -/
def events : List KeyEvent :=
  ({ value := p.inputConfig.initialValue } : KeyEvent).presses p.inputConfig.ignoreHintKeys keys

/-- The event of the last of them. -/
def eventAfter : KeyEvent :=
  ({ value := p.inputConfig.initialValue } : KeyEvent).pressAll p.inputConfig.ignoreHintKeys keys

/-- The text as keys have edited it. -/
def edited : Text := (p.eventAfter keys).value

/-- A prompt after keys. -/
def after : Prompt := (p.events keys).foldl (fun p event => (p.press event).2) p

/-- Whether a prompt reads on after a key that comes after others. -/
def goesOn : Bool := ((p.after keys).press (p.eventAfter (keys ++ [key]))).1

theorem eventAfter_concat :
    p.eventAfter (keys ++ [key]) = (p.eventAfter keys).press p.inputConfig.ignoreHintKeys key :=
  KeyEvent.pressAll_concat ..

theorem events_concat :
    p.events (keys ++ [key]) = p.events keys ++ [p.eventAfter (keys ++ [key])] :=
  KeyEvent.presses_concat ..

theorem after_concat :
    p.after (keys ++ [key]) = ((p.after keys).press (p.eventAfter (keys ++ [key]))).2 := by
  rw [after, events_concat, List.foldl_concat]
  rfl

theorem isCalm_eventAfter : (p.eventAfter keys).isCalm = true :=
  KeyEvent.isCalm_pressAll _ _ keys

/-- While a prompt reads on it stays in its phase. -/
theorem phase_after (wentOn : ∀ earlier k, earlier ++ [k] <+: keys → p.goesOn earlier k = true) :
    (p.after keys).phase = p.phase := by
  induction keys using List.reverseRecOn with
  | nil => rfl
  | append_singleton keys key ih =>
      have before := ih fun earlier k h => wentOn earlier k (h.trans (List.prefix_append ..))
      have goes : p.goesOn keys key = true := wentOn keys key (List.prefix_refl _)
      rw [after_concat]
      have htakes := (p.after keys).takes_press (p.isCalm_eventAfter (keys ++ [key]))
      unfold goesOn at goes
      generalize (p.after keys).press (p.eventAfter (keys ++ [key])) = taken at htakes goes ⊢
      cases htakes with
      | readsOn phase => exact phase.trans before
      | submits => cases goes

end Prompt

/-- The prompt of a dialog as it is when the dialog is asked. -/
def Dialog.asked (d : Dialog) : Prompt := d.prompt.withPhase .interacting

theorem Dialog.inputConfig_asked (d : Dialog) : d.asked.inputConfig = d.prompt.inputConfig :=
  d.prompt.inputConfig_withPhase .interacting

namespace Scene

variable {w : Nat} {c : CanvasRef} {s : Scene} {d : Dialog} {V : Scene → Prompt → Prop}

/-- The scene in which the next key of an asking is heard. -/
def attended (s : Scene) (w : Nat) (d : Dialog) (keys : List Key) : Scene :=
  (promptListener w (s.interaction w d).canvas).attend (d.asked.events keys) (s.firstDrawn w d)

theorem attended_eq (s : Scene) (w : Nat) (d : Dialog) (keys : List Key) :
    s.attended w d keys = (promptListener w (s.interaction w d).canvas).attend
      (({ value := (s.interaction w d).config.initialValue } : KeyEvent).presses
        (s.interaction w d).config.ignoreHintKeys keys) (s.firstDrawn w d) := by
  rw [attended, Prompt.events, d.inputConfig_asked]
  rfl

theorem attended_concat (s : Scene) (w : Nat) (d : Dialog) (keys : List Key) (key : Key) :
    s.attended w d (keys ++ [key]) = (promptListener w (s.interaction w d).canvas
      (d.asked.eventAfter (keys ++ [key])) (s.attended w d keys)).2 := by
  rw [attended, Prompt.events_concat, Listener.attend_concat]
  rfl

/-- The prompt of the scene in which a key is heard has followed the keys before. What the repaints
of the listener keep of a scene and its prompt holds then. -/
theorem asked_attended (h : s.dialog? w = some d)
    (watched : Watched w (s.interaction w d).canvas V) (drawn : V (s.firstDrawn w d) d.asked) :
    ∃ slot, ∀ keys, Asked w { d with slot := slot } V (· = d.asked.after keys)
      (s.attended w d keys) := by
  obtain ⟨slot, hgranted⟩ := dialog?_granted h
  refine ⟨slot, fun keys => ?_⟩
  induction keys using List.reverseRecOn with
  | nil =>
      have hdrawn : (s.firstDrawn w d).dialog? w = (s.granted w d).dialog? w :=
        dialog?_of_widgets ((widgets_run _ _).trans (widgets_cursorHidden _ _)) w
      exact ⟨_, hdrawn.trans hgranted, rfl, drawn⟩
  | append_singleton keys key ih =>
      rw [attended_concat, Prompt.after_concat]
      refine asked_follow watched ih ?_
      rintro _ rfl
      rfl

theorem holds_attended (h : s.dialog? w = some d) (keys : List Key) :
    (s.attended w d keys).Holds w (· = d.asked.after keys) := by
  have watched : Watched w (s.interaction w d).canvas fun _ _ => True :=
    ⟨fun _ _ _ => trivial, fun _ _ => trivial⟩
  obtain ⟨slot, hasked⟩ := asked_attended h watched trivial
  obtain ⟨p, hd, hp, -⟩ := hasked keys
  exact ⟨_, hd, hp⟩

theorem replies_promptListener (h : s.dialog? w = some d) :
    Input.Replies (promptListener w (s.interaction w d).canvas) d.asked.inputConfig.ignoreHintKeys
      { value := d.asked.inputConfig.initialValue } (s.firstDrawn w d) d.asked.goesOn := by
  intro keys key
  obtain ⟨d', hd, hp⟩ := holds_attended h keys
  have hreply := response_promptListener hd (s.interaction w d).canvas
    (d.asked.eventAfter (keys ++ [key]))
  rw [hp] at hreply
  exact hreply

/-- An attempt that ends well after some keys. -/
def answeredAfter (s : Scene) (w : Nat) (d : Dialog) (keys : List Key) (watch : Watch)
    (kb : Keyboard) : Except Failure Unit × Keyboard × Scene :=
  (s.interaction w d).finish (.ok (), kb, { s.attended w d keys with watch := watch })

/-- What an asking leaves that gave an answer after some keys. -/
def EndsAfter (s : Scene) (w : Nat) (d : Dialog) (keys : List Key) (s' : Scene) : Prop :=
  ∃ watch kb, s' = (s.answeredAfter w d keys watch kb).2.2.cleanUp (s.interaction w d)
    (s.openDialog w d).1.2 ((s.openDialog w d).2.focus (s.openDialog w d).1.1).1
    (s.answeredAfter w d keys watch kb).2.1

theorem EndsAfter.holds {s' : Scene} {keys : List Key} (ends : s.EndsAfter w d keys s')
    (h : s.dialog? w = some d) : s'.Holds w (· = d.asked.after keys) := by
  obtain ⟨watch, kb, rfl⟩ := ends
  have asked : ({ s.attended w d keys with watch := watch } : Scene).Holds
      (s.interaction w d).widget (· = d.asked.after keys) :=
    (holds_attended h keys).of_widgets rfl
  have finished : (s.answeredAfter w d keys watch kb).2.2.Holds (s.interaction w d).widget
      (· = d.asked.after keys) := Interaction.holds_finish asked
  exact finished.cleanUp _ _ _

section

variable {kb : Keyboard} {amid : List Occurrence → List Occurrence} {token : Token}

theorem filterMap_key?_awaited (occurrences : List Occurrence) (ending : Ending) (token : Token)
    (watch : Watch) : (occurrences ++ Input.awaited ending token watch).filterMap Occurrence.key? =
      occurrences.filterMap Occurrence.key? := by
  rw [List.filterMap_append]
  unfold Input.awaited
  split
  · exact List.append_nil _
  · exact List.append_nil _

/-- A reading of keys that the keyboard and a thread are there for is a loop over them. -/
theorem Interaction.readKeys_eq (i : Interaction) (amid : List Occurrence → List Occurrence)
    (token : Token) (present : kb.lost = false) (thread : kb.source.script.threadFault = none)
    (s : Scene) :
    i.readKeys amid token (kb, s) =
      let ended := Input.loop (promptListener i.widget i.canvas) i.config.ignoreHintKeys token
        (amid kb.read.1 ++ Input.awaited kb.source.script.ending token s.watch)
        ⟨s.watch, { value := i.config.initialValue }, s⟩
      (ended.1, kb.read.2, { ended.2.own with watch := ended.2.watch }) := by
  simp only [readKeys, listenAmid, present, thread]
  rfl

theorem Interaction.present_of_readKeys {i : Interaction} {s : Scene}
    (answered : (i.readKeys amid token (kb, s)).1 = .ok ()) :
    kb.lost = false ∧ kb.source.script.threadFault = none := by
  cases lost : kb.lost with
  | true =>
      rw [readKeys, listenAmid, lost] at answered
      cases answered
  | false =>
      cases thread : kb.source.script.threadFault with
      | none => exact ⟨rfl, rfl⟩
      | some fault =>
          rw [readKeys, listenAmid, lost, thread] at answered
          cases answered

theorem enough_of_readKeys (h : s.dialog? w = some d)
    (answered : ((s.interaction w d).readKeys amid token (kb, s.firstDrawn w d)).1 = .ok ()) :
    ∃ keys key, keys ++ [key] <+: (amid kb.read.1).filterMap Occurrence.key? ∧
      Enough d.asked.goesOn keys key ∧ ∃ watch kb',
        (s.interaction w d).readKeys amid token (kb, s.firstDrawn w d) =
          (.ok (), kb', { s.attended w d (keys ++ [key]) with watch := watch }) := by
  have replies := replies_promptListener h
  have hconfig : d.asked.inputConfig = (s.interaction w d).config := d.inputConfig_asked
  rw [hconfig] at replies
  obtain ⟨present, thread⟩ := Interaction.present_of_readKeys answered
  have hread := (s.interaction w d).readKeys_eq amid token present thread (s.firstDrawn w d)
  rw [hread] at answered
  obtain ⟨keys, key, hkeys, enough, hown⟩ := Input.enough_of_loop replies answered
  rw [filterMap_key?_awaited] at hkeys
  have hattended := s.attended_eq w d (keys ++ [key])
  rw [← hown] at hattended
  refine ⟨keys, key, hkeys, enough, ?_⟩
  rw [hread, hattended]
  exact ⟨_, _, Prod.ext answered rfl⟩

theorem enough_of_attempt (h : s.dialog? w = some d)
    (answered : (s.askDialog w d token amid).1 = .ok ()) :
    ∃ keys key watch kb, keys ++ [key] <+: (amid d.reader.load.read.1).filterMap Occurrence.key? ∧
      Enough d.asked.goesOn keys key ∧
      (s.interaction w d).attempt amid token d.reader.load (s.granted w d) =
        s.answeredAfter w d (keys ++ [key]) watch kb := by
  change ((s.interaction w d).attempt amid token d.reader.load (s.granted w d)).1 = .ok ()
    at answered
  have course := (s.interaction w d).course_attempt amid token d.reader.load (s.granted w d)
  generalize (s.interaction w d).attempt amid token d.reader.load (s.granted w d) = tried at *
  cases course with
  | unhidden | undrawn => cases answered
  | read =>
      have hread := Interaction.finish_of_ok answered
      obtain ⟨token', htoken⟩ := Token.askWithin_of_ok hread
      rw [htoken] at hread ⊢
      obtain ⟨keys, key, hkeys, enough, watch, kb, heard⟩ := enough_of_readKeys h hread
      exact ⟨keys, key, watch, kb, hkeys, enough, congrArg _ heard⟩

/-- An asking that gives an answer ends at the first key that is enough for the prompt, and the
answer is the one that the prompt has then. -/
theorem enough_of_ask (h : s.dialog? w = some d) {answer : Prompt.Answer}
    (answered : (s.ask w token amid).1 = .ok answer) :
    ∃ keys key, keys ++ [key] <+: (amid d.reader.load.read.1).filterMap Occurrence.key? ∧
      Enough d.asked.goesOn keys key ∧ (d.asked.after (keys ++ [key])).answer = .ok answer ∧
      s.EndsAfter w d (keys ++ [key]) (s.ask w token amid).2 := by
  obtain ⟨d', after, -⟩ := phaseAgrees_ask h token amid
  rw [ask_snd h] at after
  rw [ask_fst h token amid after] at answered
  rw [ask_snd h]
  cases hasked : (s.askDialog w d token amid).1 with
  | error failure =>
      rw [hasked] at answered
      cases answered
  | ok =>
      rw [hasked] at answered
      obtain ⟨keys, key, watch, kb, hkeys, enough, hattempt⟩ := enough_of_attempt h hasked
      have ends : s.EndsAfter w d (keys ++ [key]) (s.askDialog w d token amid).2 := by
        refine ⟨watch, kb, ?_⟩
        rw [askDialog_eq, hattempt]
      obtain ⟨d'', after', hprompt⟩ := ends.holds h
      obtain rfl := Option.some.inj (after'.symm.trans after)
      refine ⟨keys, key, hkeys, enough, ?_, ends⟩
      rw [← hprompt]
      exact answered

end

/-- An open canvas whose last frame was painted while a widget hung as a prompt, whatever became of
the frame in the sink. -/
structure Depicts (w : Nat) (c : CanvasRef) (s : Scene) (p : Prompt) : Prop where
  allowed : s.canUpdate (s.managerOf c) c = true
  canvas : ∃ (e : CanvasEntry) (before : Canvas) (gallery : Gallery), s.canvases[c]? = some e ∧
    before.closed = false ∧ e.canvas = (before.repaint s.env gallery).canvas ∧
    Frame.Hangs gallery w p

theorem depicts_draw (call : DrawCall) (painted : call ≠ .clear) {e : CanvasEntry}
    (he : s.canvases[c]? = some e) (hopen : e.canvas.closed = false)
    (allowed : s.canUpdate (s.managerOf c) c = true) (hd : s.dialog? w = some d) :
    Depicts w c (s.draw c call).2 d.prompt := by
  have same := sameStanding_draw s c call
  refine ⟨(same.canUpdate c).trans allowed, _, e.canvas, s.gallery,
    canvases_draw he hopen allowed call, hopen, ?_, gallery_of_dialog hd⟩
  dsimp only
  rw [same.env]
  cases call with
  | run | update => rfl
  | clear => exact absurd rfl painted

theorem watched_depicts (w : Nat) (c : CanvasRef) : Watched w c (Depicts w c) := by
  constructor
  case follow =>
    rintro s d p hd ⟨allowed, e, before, gallery, he, hopen, hpainted, -⟩
    have same := sameStanding_modifyDialog s w fun d => { d with prompt := p }
    have he' : (s.modifyDialog w fun d => { d with prompt := p }).canvases[c]? = some e := by
      rw [canvases_modifyDialog, he]
    have hopen' : e.canvas.closed = false := by
      rw [hpainted, Canvas.closed_repaint]
      exact hopen
    exact depicts_draw .update nofun he' hopen' ((same.canUpdate c).trans allowed)
      (dialog?_modifyDialog hd _)
  case wait =>
    rintro s p watch ⟨allowed, canvas⟩
    exact ⟨allowed, canvas⟩

theorem depicts_firstDrawn (h : s.dialog? w = some d) {e : CanvasEntry}
    (he : (s.openDialog w d).2.canvases[(s.interaction w d).canvas]? = some e)
    (hopen : e.canvas.closed = false) :
    Depicts w (s.interaction w d).canvas (s.firstDrawn w d) d.asked := by
  let i := s.interaction w d
  obtain ⟨slot, hgranted⟩ := dialog?_granted h
  have hd : ((s.granted w d).cursorHidden i).dialog? w = (s.granted w d).dialog? w :=
    dialog?_of_widgets (widgets_cursorHidden _ _) w
  have same := (s.granted w d).sameStanding_cursorHidden i
  have he₁ : (s.granted w d).canvases[i.canvas]? = some e := (canvases_focus_self _ _).trans he
  have hstanding := same.standing i.canvas
  rw [standing?, standing?, he₁, Option.map_some] at hstanding
  obtain ⟨e₂, he₂, hstanding⟩ := Option.map_eq_some_iff.mp hstanding
  have hopen₂ : e₂.canvas.closed = false := (congrArg Standing.closed hstanding).trans hopen
  have allowed := (same.canUpdate i.canvas).trans (canUpdate_focus _ _)
  exact depicts_draw .run (by rintro ⟨⟩) he₂ hopen₂ allowed (hd.trans hgranted)

/-- What there is when a key is heard. The prompt is as the keys before left it, and the last frame
of an open canvas was painted of it so. Where the canvas exhibits the prompt, that frame has got to
the sink. -/
structure Attends (s : Scene) (w : Nat) (d : Dialog) (keys : List Key) : Prop where
  holds : (s.attended w d keys).Holds w (· = d.asked.after keys)
  depicts : ∀ e : CanvasEntry,
    (s.openDialog w d).2.canvases[(s.interaction w d).canvas]? = some e → e.canvas.closed = false →
      Depicts w (s.interaction w d).canvas (s.attended w d keys) (d.asked.after keys)
  inView : ∀ e : CanvasEntry,
    (s.openDialog w d).2.canvases[(s.interaction w d).canvas]? = some e → e.canvas.Exhibits w →
      InView w (s.interaction w d).canvas (e.canvas.printerIn s.env).style
        (s.attended w d keys) (d.asked.after keys)

theorem attends (h : s.dialog? w = some d) (keys : List Key) : s.Attends w d keys := by
  refine ⟨holds_attended h keys, fun e he hopen => ?_, fun e he exhibits => ?_⟩
  · obtain ⟨_, hasked⟩ := asked_attended h (watched_depicts w _) (depicts_firstDrawn h he hopen)
    obtain ⟨_, -, rfl, depicts⟩ := hasked keys
    exact depicts
  · obtain ⟨-, view⟩ := inView_run h he exhibits
    obtain ⟨_, hasked⟩ := asked_attended h (watched_inView w _ _) view
    obtain ⟨_, -, rfl, view'⟩ := hasked keys
    exact view'

end Scene

end Inlay
