import Inlay.Proofs.Prompts.Attended

namespace Inlay

open Keyboard

namespace Token

variable {token : Token} {watch : Watch}

theorem summons?_withDeadline (uncalled : summons? token watch = none) {deadline : Instant}
    (later : watch.now < deadline) : summons? (token.withDeadline deadline) watch = none := by
  have hcancelled : token.isCancelled watch = false := by
    cases h : token.isCancelled watch with
    | false => rfl
    | true => rw [summons?, h] at uncalled; cases uncalled
  have hexpired : token.isExpired watch = false := by
    cases h : token.isExpired watch with
    | false => rfl
    | true => rw [summons?, hcancelled, h] at uncalled; cases uncalled
  have kept : (token.withDeadline deadline).isCancelled watch = false := hcancelled
  have passed : (token.withDeadline deadline).isExpired watch = false := by
    unfold isExpired withDeadline at *
    cases hdeadline : token.deadline with
    | none => simpa using later
    | some existing =>
        rw [hdeadline, Option.any_some, decide_eq_false_iff_not, not_le] at hexpired
        rw [Option.any_some, decide_eq_false_iff_not, not_le]
        exact lt_min hexpired later
  rw [summons?, kept, passed]
  rfl

/-- A time limit that the clock can count leaves a token that does not call off at once. -/
theorem exists_askWithin {limit : Option Duration} (uncalled : summons? token watch = none)
    (counted : ∀ span, limit = some span → (Instant.after? watch.now span).isSome) :
    ∃ token', summons? token' watch = none ∧
      ∀ {σ α : Type} (ask : Token → σ → Except Failure α × σ) (s : σ) (a : α),
        (ask token' s).1 = .ok a →
          token.askWithin limit watch.now ask s = ask token' s := by
  cases hspan : limit.filter fun d => !d.isZero with
  | none =>
      exact ⟨token, uncalled, fun ask s a _ => askWithin_of_none hspan ask s⟩
  | some span =>
      obtain ⟨hlimit, lasting⟩ := Option.filter_eq_some_iff.mp hspan
      obtain ⟨deadline, hafter⟩ := Option.isSome_iff_exists.mp (counted span hlimit)
      have later : watch.now < deadline := by
        have positive : 0 < span.nanos := by
          rw [Duration.isZero, Bool.not_eq_true', beq_eq_false_iff_ne] at lasting
          exact Nat.pos_of_ne_zero lasting
        unfold Instant.after? at hafter
        split at hafter
        · rw [← Option.some.inj hafter]
          exact Nat.lt_add_of_pos_right positive
        · cases hafter
      refine
        ⟨token.withDeadline deadline, summons?_withDeadline uncalled later, fun ask s a h => ?_⟩
      rw [askWithin_of_counted hspan hafter, map_blaming_of_ok h]

end Token

namespace Scene

variable {w : Nat} {c : CanvasRef} {s : Scene} {d : Dialog}

theorem watch_modifyDialog (s : Scene) (w : Nat) (f : Dialog → Dialog) :
    (s.modifyDialog w f).watch = s.watch := by
  unfold modifyDialog
  split
  · rfl
  · rfl

theorem watch_openDialog (s : Scene) (w : Nat) (d : Dialog) :
    (s.openDialog w d).2.watch = s.watch := by
  unfold openDialog
  refine (watch_modifyDialog _ w _).trans ?_
  unfold resolve
  split
  · rfl
  · dsimp only
    split
    · rfl
    · rfl

theorem watch_eraseUnlessClosed (s : Scene) (c : CanvasRef) :
    (s.eraseUnlessClosed c).2.watch = s.watch := by
  unfold eraseUnlessClosed
  split
  · rfl
  · rfl

theorem watch_eraseAll (s : Scene) (cs : List CanvasRef) : (s.eraseAll cs).watch = s.watch := by
  induction cs generalizing s with
  | nil => rfl
  | cons c rest ih => exact (ih _).trans (watch_eraseUnlessClosed s c)

theorem watch_cursorHidden (s : Scene) (i : Interaction) : (s.cursorHidden i).watch = s.watch := by
  unfold cursorHidden hideCursor writeSequence
  split
  · split
    · rfl
    · rfl
  · rfl

theorem watch_run (s : Scene) (c : CanvasRef) : (s.run c).2.watch = s.watch := by
  unfold run update repaintUnlessClosed
  split
  · split
    · rfl
    · split
      · rfl
      · rfl
  · rfl

/-- No time passes before the first key is waited for. -/
theorem watch_firstDrawn (s : Scene) (w : Nat) (d : Dialog) :
    (s.firstDrawn w d).watch = s.watch :=
  calc (s.firstDrawn w d).watch
    _ = ((s.granted w d).cursorHidden (s.interaction w d)).watch := watch_run _ _
    _ = (s.granted w d).watch := watch_cursorHidden _ _
    _ = (s.openDialog w d).2.watch := watch_eraseAll _ _
    _ = s.watch := watch_openDialog s w d

theorem reliable_openDialog (h : s.ReliableSlot d.slot) :
    (s.openDialog w d).2.Reliable (s.interaction w d).canvas := by
  cases hslot : d.slot with
  | shared c =>
      rw [hslot] at h
      have hopened := openDialog_of_shared (s := s) (w := w) hslot
      have hcanvas : (s.interaction w d).canvas = c := congrArg (fun opened => opened.1.1) hopened
      rw [hcanvas, hopened]
      refine Reliable.of_canvases h ?_
      dsimp only
      rw [canvases_modifyDialog]
  | owned options =>
      rw [hslot] at h
      obtain ⟨-, number, he⟩ := openDialog_of_owned (s := s) (w := w) hslot
      rw [canvas_interaction hslot]
      intro e he'
      obtain rfl := Option.some.inj (he.symm.trans he')
      exact ⟨h, fun v hv => List.mem_singleton.mp hv ▸ trivial⟩

theorem reliable_cursorHidden (h : s.ReliableSlot d.slot) :
    ((s.granted w d).hideCursor (s.interaction w d).canvas).1 = .ok () ∧
      ((s.granted w d).cursorHidden (s.interaction w d)).Reliable (s.interaction w d).canvas := by
  have granted : (s.granted w d).Reliable (s.interaction w d).canvas :=
    (reliable_openDialog h).of_canvases (canvases_focus_self _ _)
  obtain ⟨hhidden, hidden⟩ := reliable_hideCursor granted
  refine ⟨hhidden, ?_⟩
  unfold cursorHidden
  split
  · exact hidden
  · exact granted

theorem watched_reliable (w : Nat) (c : CanvasRef) : Watched w c fun s _ => s.Reliable c := by
  constructor
  case follow =>
    intro s d p hd reliable
    refine reliable_update (reliable.of_canvases ?_) c
    rw [canvases_modifyDialog]
  case wait => exact fun watch reliable => reliable.of_canvases rfl

/-- Nothing but its keys ends an asking: what is drawn on its canvas is taken, a thread can be made
for the reader, and the token and the time limit do not call it off at once. -/
structure Undisturbed (s : Scene) (d : Dialog) (token : Token) : Prop where
  reliable : s.ReliableSlot d.slot
  thread : d.reader.load.source.script.threadFault = none
  uncalled : summons? token s.watch = none
  counted : ∀ span, d.limit.or s.env.config.promptTimeout = some span →
    (Instant.after? s.watch.now span).isSome

theorem lost_reader (d : Dialog) : d.reader.load.lost = false := by
  unfold Dialog.reader
  cases hown : d.keyboard.filter fun kb => !kb.lost with
  | none => rfl
  | some kb =>
      obtain ⟨-, present⟩ := Option.filter_eq_some_iff.mp hown
      rw [Bool.not_eq_true'] at present
      exact present

theorem reliable_attended (h : s.dialog? w = some d) (reliable : s.ReliableSlot d.slot)
    (keys : List Key) : (s.attended w d keys).Reliable (s.interaction w d).canvas := by
  have drawn : (s.firstDrawn w d).Reliable (s.interaction w d).canvas :=
    (reliable_run (reliable_cursorHidden reliable).2).2
  obtain ⟨_, hasked⟩ := asked_attended h (watched_reliable w _) drawn
  obtain ⟨_, -, -, attended⟩ := hasked keys
  exact attended

section

variable (h : s.dialog? w = some d) {token : Token} {amid : List Occurrence → List Occurrence}
  {keys : List Key} {key : Key} {rest : List Occurrence}
  (occurs : amid d.reader.load.read.1 = keys.map .key ++ .key key :: rest)
  (enough : Enough d.asked.goesOn keys key)

include h occurs enough

theorem readKeys_of_enough (thread : d.reader.load.source.script.threadFault = none)
    (uncalled : summons? token s.watch = none) :
    ∃ watch kb, (s.interaction w d).readKeys amid token (d.reader.load, s.firstDrawn w d) =
      (.ok (), kb, { s.attended w d (keys ++ [key]) with watch := watch }) := by
  have replies := replies_promptListener h
  have hconfig : d.asked.inputConfig = (s.interaction w d).config := d.inputConfig_asked
  rw [hconfig] at replies
  rw [← watch_firstDrawn s w d] at uncalled
  obtain ⟨hresult, hown⟩ := Input.loop_of_enough replies uncalled enough
    (rest ++ Input.awaited d.reader.load.source.script.ending token (s.firstDrawn w d).watch)
  have hread :=
    (s.interaction w d).readKeys_eq amid token (lost_reader d) thread (s.firstDrawn w d)
  rw [occurs, List.append_assoc, List.cons_append] at hread
  rw [hread, attended_eq, ← hown]
  exact ⟨_, _, Prod.ext hresult rfl⟩

theorem attempt_of_enough (undisturbed : s.Undisturbed d token) :
    ∃ watch kb, (s.interaction w d).attempt amid token d.reader.load (s.granted w d) =
      s.answeredAfter w d (keys ++ [key]) watch kb := by
  obtain ⟨reliable, thread, uncalled, counted⟩ := undisturbed
  obtain ⟨hhidden, hidden⟩ := reliable_cursorHidden (w := w) reliable
  have henv : (s.granted w d).env = s.env := (evolves_focus _ _).env.trans (env_openDialog s w d)
  have hlimit : (s.interaction w d).limit = d.limit.or s.env.config.promptTimeout := by
    rw [← henv]
    rfl
  rw [← hlimit] at counted
  obtain ⟨token', uncalled', within⟩ := Token.exists_askWithin uncalled counted
  obtain ⟨watch, kb, hread⟩ := readKeys_of_enough h occurs enough thread uncalled'
  refine ⟨watch, kb, ?_⟩
  rw [readsFromFirst_of_drawn hhidden (reliable_run hidden).1, watch_firstDrawn,
    within _ _ () (congrArg Prod.fst hread), hread]
  rfl

/-- An undisturbed asking ends at the first key that is enough for the prompt, with the answer that
the prompt has then. -/
theorem ask_of_enough (undisturbed : s.Undisturbed d token) :
    (s.ask w token amid).1 = (d.asked.after (keys ++ [key])).answer := by
  obtain ⟨watch, kb, hattempt⟩ := attempt_of_enough h occurs enough undisturbed
  have hasked := askDialog_eq s w d token amid
  rw [hattempt] at hasked
  have ends : s.EndsAfter w d (keys ++ [key]) (s.askDialog w d token amid).2 :=
    ⟨watch, kb, congrArg Prod.snd hasked⟩
  obtain ⟨d', after, hprompt⟩ := ends.holds h
  have attended : ({ s.attended w d (keys ++ [key]) with watch := watch } : Scene).Reliable
      (s.interaction w d).canvas :=
    (reliable_attended h undisturbed.reliable (keys ++ [key])).of_canvases rfl
  have hfinished : (s.answeredAfter w d (keys ++ [key]) watch kb).1 = .ok () := by
    unfold answeredAfter Interaction.finish
    dsimp only
    split
    · exact (reliable_clear attended).1
    · rfl
  rw [ask_fst h token amid after, congrArg Prod.fst hasked, hfinished, hprompt]
  rfl

end

theorem undisturbed_twice (p : Prompt) (keys : List Key) : ∃ d, (twice p keys).dialog? 0 = some d ∧
    d.prompt = p ∧ (twice p keys).Undisturbed d ⟨0, none⟩ ∧
      d.keyboard = some { scripts := [.ofKeys keys, .ofKeys [.enter]] } := by
  refine ⟨_, rfl, rfl, ⟨?_, rfl, rfl, by rintro _ ⟨⟩⟩, rfl⟩
  intro e he
  obtain rfl := Option.some.inj he
  exact ⟨Sink.Behavior.willing_faultless, fun v hv => List.mem_singleton.mp hv ▸ trivial⟩

end Scene

end Inlay
