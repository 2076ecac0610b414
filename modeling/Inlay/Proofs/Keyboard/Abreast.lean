import Inlay.Proofs.Keyboard
import Inlay.Proofs.Keyboard.Events

namespace Inlay

namespace Key

/-- Keys that differ at most in the character that they add to the text. -/
inductive Alike (ignoreHintKeys : Bool) : Key → Key → Prop
  | same (key : Key) : Alike ignoreHintKeys key key
  | typed {c c' : Char} (adds : c ≠ '?' ∨ ignoreHintKeys = true)
      (adds' : c' ≠ '?' ∨ ignoreHintKeys = true) : Alike ignoreHintKeys (char c) (char c')

theorem Alike.eq_iff {ignoreHintKeys : Bool} {k k' : Key} (h : Alike ignoreHintKeys k k')
    (key : Key) (untyped : ∀ c, key ≠ char c) : k' = key ↔ k = key := by
  cases h with
  | same => rfl
  | typed =>
      constructor
      · rintro rfl
        exact absurd rfl (untyped _)
      · rintro rfl
        exact absurd rfl (untyped _)

end Key

namespace Keyboard

/-- Events that are the same but for what their texts say and for the characters typed. -/
structure KeyEvent.Alike (event event' : KeyEvent) : Prop where
  length : event'.value.length = event.value.length
  hint : event'.hint = event.hint
  cancelled : event'.cancelled = event.cancelled
  timedOut : event'.timedOut = event.timedOut
  enter : event'.key = some .enter ↔ event.key = some .enter

/-- What occurs to two loops abreast: keys that are alike, with texts of equal length after each,
and the same news. -/
inductive Abreast (ignoreHintKeys : Bool) :
    KeyEvent → KeyEvent → List Occurrence → List Occurrence → Prop
  | done {event event' : KeyEvent} : Abreast ignoreHintKeys event event' [] []
  | news {event event' : KeyEvent} {rest rest' : List Occurrence} (occurrence : Occurrence)
      (keyless : ∀ key, occurrence ≠ .key key)
      (later : Abreast ignoreHintKeys event event' rest rest') :
      Abreast ignoreHintKeys event event' (occurrence :: rest) (occurrence :: rest')
  | key {event event' : KeyEvent} {rest rest' : List Occurrence} {k k' : Key}
      (alike : k.Alike ignoreHintKeys k')
      (length : (event'.press ignoreHintKeys k').value.length =
        (event.press ignoreHintKeys k).value.length)
      (later : Abreast ignoreHintKeys (event.press ignoreHintKeys k)
        (event'.press ignoreHintKeys k') rest rest') :
      Abreast ignoreHintKeys event event' (.key k :: rest) (.key k' :: rest')

section

variable {ignoreHintKeys : Bool} {event event' : KeyEvent}

theorem KeyEvent.Alike.press (h : event.Alike event') {k k' : Key}
    (alike : k.Alike ignoreHintKeys k')
    (length : (event'.press ignoreHintKeys k').value.length =
      (event.press ignoreHintKeys k).value.length) :
    (event.press ignoreHintKeys k).Alike (event'.press ignoreHintKeys k') := by
  obtain ⟨-, hint, cancelled, timedOut, -⟩ := h
  have pressed (event : KeyEvent) (k : Key) : (event.press ignoreHintKeys k).key = some k ∧
      (event.press ignoreHintKeys k).cancelled = event.cancelled ∧
      (event.press ignoreHintKeys k).timedOut = event.timedOut := by
    unfold KeyEvent.press
    cases k with
    | char c =>
        dsimp only
        split
        · exact ⟨rfl, rfl, rfl⟩
        · exact ⟨rfl, rfl, rfl⟩
    | _ => exact ⟨rfl, rfl, rfl⟩
  obtain ⟨hkey, hcancelled, htimedOut⟩ := pressed event k
  obtain ⟨hkey', hcancelled', htimedOut'⟩ := pressed event' k'
  refine ⟨length, ?_, ?_, ?_, ?_⟩
  · cases alike with
    | same =>
        unfold KeyEvent.press
        cases k with
        | char c =>
            dsimp only
            split
            · exact congrArg not hint
            · exact hint
        | escape => rfl
        | _ => exact hint
    | typed adds adds' =>
        have unhinted {event : KeyEvent} {c : Char} (adds : c ≠ '?' ∨ ignoreHintKeys = true) :
            (event.press ignoreHintKeys (.char c)).hint = event.hint := by
          unfold KeyEvent.press
          dsimp only
          rw [if_neg]
          rintro ⟨rfl, hfalse⟩
          rcases adds with hne | htrue
          · exact hne rfl
          · exact absurd (htrue.symm.trans hfalse) nofun
        rw [unhinted adds, unhinted adds', hint]
  · rw [hcancelled, hcancelled', cancelled]
  · rw [htimedOut, htimedOut', timedOut]
  · rw [hkey, hkey', Option.some.injEq, Option.some.injEq]
    exact alike.eq_iff .enter nofun

theorem KeyEvent.Alike.called (h : event.Alike event') (summons : Summons) :
    (summons.event event).Alike (summons.event event') := by
  obtain ⟨length, hint, cancelled, timedOut, -⟩ := h
  cases summons with
  | cancelled => exact ⟨length, hint, rfl, timedOut, Iff.rfl⟩
  | timedOut => exact ⟨length, hint, cancelled, rfl, Iff.rfl⟩

/-- Keys are abreast if they are alike one by one and the texts are of equal length all along. -/
theorem Abreast.of_keys {keys keys' : List Key}
    (alike : List.Forall₂ (Key.Alike ignoreHintKeys) keys keys')
    (lengths : (keys'.scanl (·.press ignoreHintKeys ·) event').map (·.value.length) =
      (keys.scanl (·.press ignoreHintKeys ·) event).map (·.value.length)) :
    Abreast ignoreHintKeys event event' (keys.map .key) (keys'.map .key) := by
  induction alike generalizing event event' with
  | nil => exact .done
  | @cons k k' rest rest' halike hrest ih =>
      rw [List.scanl_cons, List.scanl_cons, List.map_cons, List.map_cons,
        List.cons.injEq] at lengths
      have hlength : (event'.press ignoreHintKeys k').value.length =
          (event.press ignoreHintKeys k).value.length := by
        have hheads := congrArg List.head? lengths.2
        rw [List.head?_map, List.head?_map, List.head?_scanl, List.head?_scanl] at hheads
        exact Option.some.inj hheads
      exact .key halike hlength (ih lengths.2)

theorem Abreast.append {occurrences occurrences' later : List Occurrence}
    (h : Abreast ignoreHintKeys event event' occurrences occurrences')
    (keyless : ∀ key, Occurrence.key key ∉ later) :
    Abreast ignoreHintKeys event event' (occurrences ++ later) (occurrences' ++ later) := by
  induction h with
  | done =>
      induction later with
      | nil => exact .done
      | cons occurrence rest ih =>
          refine .news occurrence (fun key heq => ?_) (ih fun key hkey => ?_)
          · exact keyless key (heq ▸ List.mem_cons_self)
          · exact keyless key (List.mem_cons_of_mem _ hkey)
  | news occurrence keyless later ih => exact .news occurrence keyless ih
  | key alike length later ih => exact .key alike length ih

end

variable {σ : Type} {R : σ → σ → Prop} {listener : Listener σ}

/-- A listener that answers related events alike, in related states. -/
def Listener.Respects (E : KeyEvent → KeyEvent → Prop) (R : σ → σ → Prop) (listener : Listener σ) :
    Prop :=
  ∀ {event event' : KeyEvent} {own own' : σ}, E event event' → R own own' →
    (listener event' own').1 = (listener event own).1 ∧
      R (listener event own).2 (listener event' own').2

/-- A listener that answers alike events alike, in related states. -/
def Listener.SeesAlike (R : σ → σ → Prop) (listener : Listener σ) : Prop :=
  listener.Respects KeyEvent.Alike R

/-- A relation of events that a call to end the loop keeps. -/
def KeyEvent.Lasts (E : KeyEvent → KeyEvent → Prop) : Prop :=
  ∀ {event event' : KeyEvent} (summons : Summons), E event event' →
    E (summons.event event) (summons.event event')

/-- What occurs to two loops of which the events stay related: keys that interrupt in both or in
neither, and the same news. -/
inductive Paired (E : KeyEvent → KeyEvent → Prop) (ignoreHintKeys : Bool) :
    KeyEvent → KeyEvent → List Occurrence → List Occurrence → Prop
  | done {event event' : KeyEvent} : Paired E ignoreHintKeys event event' [] []
  | news {event event' : KeyEvent} {rest rest' : List Occurrence} (occurrence : Occurrence)
      (keyless : ∀ key, occurrence ≠ .key key)
      (later : Paired E ignoreHintKeys event event' rest rest') :
      Paired E ignoreHintKeys event event' (occurrence :: rest) (occurrence :: rest')
  | key {event event' : KeyEvent} {rest rest' : List Occurrence} {k k' : Key}
      (interrupts : k' = .interrupt ↔ k = .interrupt)
      (related : E event event' → E (event.press ignoreHintKeys k) (event'.press ignoreHintKeys k'))
      (later : Paired E ignoreHintKeys (event.press ignoreHintKeys k)
        (event'.press ignoreHintKeys k') rest rest') :
      Paired E ignoreHintKeys event event' (.key k :: rest) (.key k' :: rest')

theorem Abreast.paired {ignoreHintKeys : Bool} {event event' : KeyEvent}
    {occurrences occurrences' : List Occurrence}
    (h : Abreast ignoreHintKeys event event' occurrences occurrences') :
    Paired KeyEvent.Alike ignoreHintKeys event event' occurrences occurrences' := by
  induction h with
  | done => exact .done
  | news occurrence keyless later ih => exact .news occurrence keyless ih
  | key alike length later ih =>
      exact .key (alike.eq_iff .interrupt fun _ => Key.noConfusion) (·.press alike length) ih

theorem paired_self (ignoreHintKeys : Bool) (event : KeyEvent) (occurrences : List Occurrence) :
    Paired Eq ignoreHintKeys event event occurrences occurrences := by
  induction occurrences generalizing event with
  | nil => exact .done
  | cons occurrence rest ih =>
      cases occurrence with
      | key k => exact .key Iff.rfl (fun _ => rfl) (ih _)
      | _ => exact .news _ (fun _ => Occurrence.noConfusion) (ih event)

namespace Input

variable {E : KeyEvent → KeyEvent → Prop}

/-- States of two loops abreast. -/
structure State.Abreast (E : KeyEvent → KeyEvent → Prop) (R : σ → σ → Prop) (s s' : State σ) :
    Prop where
  watch : s'.watch = s.watch
  event : E s.event s'.event
  own : R s.own s'.own

/-- Two loops that end alike. -/
structure EndsAlike (R : σ → σ → Prop) (ended ended' : Except Failure Unit × State σ) : Prop where
  result : ended'.1 = ended.1
  watch : ended'.2.watch = ended.2.watch
  own : R ended.2.own ended'.2.own

theorem State.Abreast.endsAlike {s s' : State σ} (h : s.Abreast E R s')
    (result : Except Failure Unit) : EndsAlike R (result, s) (result, s') :=
  ⟨rfl, h.watch, h.own⟩

section

variable (respects : Listener.Respects E R listener)
include respects

theorem State.Abreast.hear {s s' : State σ} (h : s.Abreast E R s') (token : Token)
    {event event' : KeyEvent} (related : E event event') :
    (s'.hear listener token event').1 = (s.hear listener token event).1 ∧
      (s.hear listener token event).2.Abreast E R (s'.hear listener token event').2 := by
  obtain ⟨hresponse, hown⟩ := respects related h.own
  unfold State.hear
  dsimp only
  rw [hresponse, h.watch]
  exact ⟨rfl, rfl, related, hown⟩

variable (lasts : KeyEvent.Lasts E)
include lasts

theorem State.Abreast.finish {s s' : State σ} (h : s.Abreast E R s') (token : Token)
    (summons : Summons) :
    EndsAlike R (s.finish listener token summons) (s'.finish listener token summons) :=
  (h.hear respects token (lasts summons h.event)).2.endsAlike _

/-- Loops that are abreast to the end of what occurs end alike. -/
theorem loop_paired {ignoreHintKeys : Bool} (token : Token) {event event' : KeyEvent}
    {occurrences occurrences' : List Occurrence}
    (paired : Paired E ignoreHintKeys event event' occurrences occurrences')
    {s s' : State σ} (h : s.Abreast E R s') (hevent : s.event = event)
    (hevent' : s'.event = event') :
    EndsAlike R (loop listener ignoreHintKeys token occurrences s)
      (loop listener ignoreHintKeys token occurrences' s') := by
  -- Along what occurs, the states stay abreast; a look at the token tells them apart no more than
  -- the listener does.
  induction paired generalizing s s' with
  | @done event event' =>
      cases calls : summons? token s.watch with
      | some summons =>
          rw [loop_of_summons calls, loop_of_summons (h.watch ▸ calls)]
          exact h.finish respects lasts token summons
      | none =>
          have uncalled' : summons? token s'.watch = none := h.watch ▸ calls
          rw [loop, loop, calls, uncalled']
          exact h.endsAlike _
  | @news event event' rest rest' occurrence keyless later ih =>
      cases calls : summons? token s.watch with
      | some summons =>
          rw [loop_of_summons calls, loop_of_summons (h.watch ▸ calls)]
          exact h.finish respects lasts token summons
      | none =>
          have uncalled' : summons? token s'.watch = none := h.watch ▸ calls
          cases occurrence with
          | key k => exact absurd rfl (keyless k)
          | interrupt =>
              rw [loop_interrupted calls rfl, loop_interrupted uncalled' rfl]
              exact h.finish respects lasts token .cancelled
          | failed fault | closed =>
              rw [loop.eq_def, loop.eq_def]
              simp only [calls, uncalled']
              exact h.endsAlike _
          | elapsed nanos | cancelled =>
              rw [loop_pass calls rfl, loop_pass uncalled' rfl]
              refine ih ⟨?_, h.event, h.own⟩ hevent hevent'
              unfold State.pass
              rw [h.watch]
  | @key event event' rest rest' k k' interrupts related later ih =>
      cases calls : summons? token s.watch with
      | some summons =>
          rw [loop_of_summons calls, loop_of_summons (h.watch ▸ calls)]
          exact h.finish respects lasts token summons
      | none =>
          have uncalled' : summons? token s'.watch = none := h.watch ▸ calls
          by_cases hinterrupt : k = .interrupt
          · have hinterrupt' := interrupts.mpr hinterrupt
            rw [hinterrupt, hinterrupt', loop_interrupted calls rfl, loop_interrupted uncalled' rfl]
            exact h.finish respects lasts token .cancelled
          · have typed' : k' ≠ .interrupt := fun heq => hinterrupt (interrupts.mp heq)
            subst hevent hevent'
            obtain ⟨hgoOn, heard⟩ := h.hear respects token (related h.event)
            cases hanswer : (s.hear listener token (s.event.press ignoreHintKeys k)).1 with
            | error failure =>
                rw [loop_key_refused calls hinterrupt (Prod.ext hanswer rfl),
                  loop_key_refused uncalled' typed' (Prod.ext (hgoOn.trans hanswer) rfl)]
                exact heard.endsAlike _
            | ok goesOn =>
                cases goesOn with
                | true =>
                    rw [loop_key_wentOn calls hinterrupt (Prod.ext hanswer rfl),
                      loop_key_wentOn uncalled' typed' (Prod.ext (hgoOn.trans hanswer) rfl)]
                    exact ih heard rfl rfl
                | false =>
                    rw [loop_key_answered calls hinterrupt (Prod.ext hanswer rfl),
                      loop_key_answered uncalled' typed' (Prod.ext (hgoOn.trans hanswer) rfl)]
                    exact heard.endsAlike _

end

end Input

/-- Readings of two keyboards abreast. The texts that the keys begin from may differ as well, but
not in length. -/
structure ReadAbreast (amid amid' : List Occurrence → List Occurrence)
    (config config' : InputConfig) (kb kb' : Keyboard) : Prop where
  lost : kb'.lost = kb.lost
  thread : kb'.source.script.threadFault = kb.source.script.threadFault
  ending : kb'.source.script.ending = kb.source.script.ending
  hints : config'.ignoreHintKeys = config.ignoreHintKeys
  initial : config'.initialValue.length = config.initialValue.length
  abreast : Abreast config.ignoreHintKeys { value := config.initialValue }
    { value := config'.initialValue } (amid kb.read.1) (amid' kb'.read.1)

theorem ReadAbreast.listenAmid {amid amid' : List Occurrence → List Occurrence}
    {config config' : InputConfig} {kb kb' : Keyboard}
    (h : ReadAbreast amid amid' config config' kb kb') (sees : Listener.SeesAlike R listener)
    (token : Token) (watch : Watch) {own own' : σ} (start : R own own') :
    Input.EndsAlike R
      ((kb.listenAmid config amid token listener watch own).1,
        (kb.listenAmid config amid token listener watch own).2.2)
      ((kb'.listenAmid config' amid' token listener watch own').1,
        (kb'.listenAmid config' amid' token listener watch own').2.2) := by
  obtain ⟨lost, thread, ending, hints, initial, abreast⟩ := h
  have alike : KeyEvent.Alike { value := config.initialValue } { value := config'.initialValue } :=
    ⟨initial, rfl, rfl, rfl, Iff.rfl⟩
  have starts : Input.State.Abreast KeyEvent.Alike R ⟨watch, { value := config.initialValue }, own⟩
      ⟨watch, { value := config'.initialValue }, own'⟩ := ⟨rfl, alike, start⟩
  rw [Keyboard.listenAmid, Keyboard.listenAmid, lost, thread]
  dsimp only
  split
  · exact starts.endsAlike _
  split
  · exact starts.endsAlike _
  · rw [hints, ending]
    exact Input.loop_paired sees (fun summons alike => alike.called summons) token
      (abreast.append (Input.key_notMem_awaited kb.source.script.ending token watch)).paired starts
      rfl rfl

/-- Two readings of the same keys end alike if the listener is told apart by nothing that differs
between its states. -/
theorem listenAmid_same (kb : Keyboard) (config : InputConfig)
    (amid : List Occurrence → List Occurrence) (token : Token)
    (respects : Listener.Respects Eq R listener) (watch : Watch) {own own' : σ}
    (start : R own own') :
    Input.EndsAlike R
      ((kb.listenAmid config amid token listener watch own).1,
        (kb.listenAmid config amid token listener watch own).2.2)
      ((kb.listenAmid config amid token listener watch own').1,
        (kb.listenAmid config amid token listener watch own').2.2) := by
  have starts : Input.State.Abreast Eq R ⟨watch, { value := config.initialValue }, own⟩
      ⟨watch, { value := config.initialValue }, own'⟩ := ⟨rfl, rfl, start⟩
  unfold Keyboard.listenAmid
  dsimp only
  split
  · exact starts.endsAlike _
  split
  · exact starts.endsAlike _
  · exact Input.loop_paired respects (fun summons same => congrArg summons.event same) token
      (paired_self ..) starts rfl rfl

end Keyboard

end Inlay
