import Inlay.Proofs.Keyboard
import Inlay.Proofs.Keyboard.Events

namespace Inlay.Keyboard

namespace KeyEvent

variable (event : KeyEvent) (ignoreHintKeys : Bool)

theorem pressAll_concat (keys : List Key) (key : Key) :
    event.pressAll ignoreHintKeys (keys ++ [key]) =
      (event.pressAll ignoreHintKeys keys).press ignoreHintKeys key := by
  rw [pressAll, List.foldl_concat]
  rfl

theorem presses_concat (keys : List Key) (key : Key) :
    event.presses ignoreHintKeys (keys ++ [key]) =
      event.presses ignoreHintKeys keys ++ [event.pressAll ignoreHintKeys (keys ++ [key])] := by
  induction keys generalizing event with
  | nil => rfl
  | cons first rest ih =>
      rw [List.cons_append, presses_cons, ih, presses_cons, List.cons_append, pressAll_cons]

end KeyEvent

/-- A listener's own state after some events. -/
def Listener.attend {σ : Type} (listener : Listener σ) (events : List KeyEvent) (own : σ) : σ :=
  events.foldl (fun own event => (listener event own).2) own

theorem Listener.attend_concat {σ : Type} (listener : Listener σ) (events : List KeyEvent)
    (event : KeyEvent) (own : σ) : listener.attend (events ++ [event]) own =
      (listener event (listener.attend events own)).2 :=
  List.foldl_concat ..

/-- A key that is enough, while more was asked for after each key before it. -/
structure Enough (goesOn : List Key → Key → Bool) (keys : List Key) (key : Key) : Prop where
  typed : Key.interrupt ∉ keys ++ [key]
  wentOn : ∀ earlier k, earlier ++ [k] <+: keys → goesOn earlier k = true
  enough : goesOn keys key = false

section

variable {goesOn : List Key → Key → Bool} {keys : List Key} {key first : Key}

theorem enough_nil (typed : key ≠ .interrupt) (enough : goesOn [] key = false) :
    Enough goesOn [] key :=
  ⟨by simpa using typed.symm, fun earlier k h => by simp at h, enough⟩

theorem enough_cons :
    Enough goesOn (first :: keys) key ↔
      first ≠ .interrupt ∧ goesOn [] first = true ∧
        Enough (fun later => goesOn (first :: later)) keys key := by
  constructor
  · rintro ⟨typed, wentOn, enough⟩
    obtain ⟨hfirst, hrest⟩ := List.ne_and_not_mem_of_not_mem_cons typed
    refine ⟨hfirst.symm, wentOn [] first (List.prefix_append [first] keys), hrest, ?_, enough⟩
    intro earlier k h
    exact wentOn (first :: earlier) k ((List.prefix_cons_inj first).mpr h)
  · rintro ⟨hfirst, hgoes, typed, wentOn, enough⟩
    refine ⟨List.not_mem_cons_of_ne_of_not_mem hfirst.symm typed, ?_, enough⟩
    intro earlier k h
    cases earlier with
    | nil =>
        obtain rfl : k = first := (List.cons_prefix_cons.mp h).1
        exact hgoes
    | cons k' earlier =>
        obtain ⟨rfl, hrest⟩ := List.cons_prefix_cons.mp h
        exact wentOn earlier k hrest

end

namespace Input

variable {σ : Type} {listener : Listener σ} {ignoreHintKeys : Bool} {token : Token}
  {goesOn : List Key → Key → Bool} {event : KeyEvent} {own : σ} {watch : Watch}

/-- What a listener replies to each key that comes after others, whatever it replied to those. -/
def Replies (listener : Listener σ) (ignoreHintKeys : Bool) (event : KeyEvent) (own : σ)
    (goesOn : List Key → Key → Bool) : Prop :=
  ∀ keys key, (listener (event.pressAll ignoreHintKeys (keys ++ [key]))
    (listener.attend (event.presses ignoreHintKeys keys) own)).1 = { goOn := .ok (goesOn keys key) }

theorem Replies.tail (h : Replies listener ignoreHintKeys event own goesOn) (first : Key) :
    Replies listener ignoreHintKeys (event.press ignoreHintKeys first)
      (listener (event.press ignoreHintKeys first) own).2 fun later => goesOn (first :: later) := by
  intro keys key
  have hreply := h (first :: keys) key
  rw [event.presses_cons] at hreply
  exact hreply

theorem Replies.hear (h : Replies listener ignoreHintKeys event own goesOn) (token : Token)
    (watch : Watch) (key : Key) :
    State.hear ⟨watch, event, own⟩ listener token (event.press ignoreHintKeys key) =
      (.ok (goesOn [] key), ⟨watch, event.press ignoreHintKeys key,
        (listener (event.press ignoreHintKeys key) own).2⟩) := by
  have hreply : (listener (event.press ignoreHintKeys key) own).1 =
      { goOn := .ok (goesOn [] key) } := h [] key
  unfold State.hear
  dsimp only
  rw [hreply]
  rfl

/-- A loop that ends well ends at the first key that is enough. -/
theorem enough_of_loop (replies : Replies listener ignoreHintKeys event own goesOn)
    {occurrences : List Occurrence}
    (h : (loop listener ignoreHintKeys token occurrences ⟨watch, event, own⟩).1 = .ok ()) :
    ∃ keys key, keys ++ [key] <+: occurrences.filterMap Occurrence.key? ∧
      Enough goesOn keys key ∧
      (loop listener ignoreHintKeys token occurrences ⟨watch, event, own⟩).2.own =
        listener.attend (event.presses ignoreHintKeys (keys ++ [key])) own := by
  induction occurrences generalizing event own watch goesOn with
  | nil =>
      rw [loop] at h
      split at h
      · cases h
      · cases h
  | cons occurrence rest ih =>
      cases calls : summons? token watch with
      | some summons =>
          rw [loop_of_summons calls] at h
          cases h
      | none =>
          cases occurrence with
          | key key =>
              rcases eq_or_ne key .interrupt with rfl | typed
              · rw [loop_interrupted calls rfl] at h
                cases h
              have heard := replies.hear token watch key
              have hkey : (Occurrence.key key :: rest).filterMap Occurrence.key? =
                  key :: rest.filterMap Occurrence.key? := rfl
              rw [hkey]
              cases hgoes : goesOn [] key with
              | true =>
                  rw [hgoes] at heard
                  rw [loop_key_wentOn calls typed heard] at h ⊢
                  obtain ⟨keys, last, hkeys, enough, hown⟩ := ih (replies.tail key) h
                  refine ⟨key :: keys, last, (List.prefix_cons_inj key).mpr hkeys,
                    enough_cons.mpr ⟨typed, hgoes, enough⟩, ?_⟩
                  rw [List.cons_append, event.presses_cons]
                  exact hown
              | false =>
                  rw [hgoes] at heard
                  rw [loop_key_answered calls typed heard]
                  exact ⟨[], key, List.prefix_append [key] _, enough_nil typed hgoes, rfl⟩
          | elapsed nanos | cancelled =>
              rw [loop_pass calls rfl] at h ⊢
              exact ih replies h
          | interrupt | failed fault | closed =>
              rw [loop] at h
              simp only [calls] at h
              cases h

/-- A loop that nothing calls off ends well at the first key that is enough. -/
theorem loop_of_enough (replies : Replies listener ignoreHintKeys event own goesOn)
    (uncalled : summons? token watch = none) {keys : List Key} {key : Key}
    (enough : Enough goesOn keys key) (rest : List Occurrence) :
    (loop listener ignoreHintKeys token (keys.map .key ++ .key key :: rest)
      ⟨watch, event, own⟩).1 = .ok () ∧
    (loop listener ignoreHintKeys token (keys.map .key ++ .key key :: rest)
      ⟨watch, event, own⟩).2.own =
        listener.attend (event.presses ignoreHintKeys (keys ++ [key])) own := by
  induction keys generalizing event own goesOn with
  | nil =>
      have typed : key ≠ .interrupt := by
        rintro rfl
        exact enough.typed (List.mem_singleton_self _)
      have heard := replies.hear token watch key
      rw [enough.enough] at heard
      rw [List.map_nil, List.nil_append, loop_key_answered uncalled typed heard]
      exact ⟨rfl, rfl⟩
  | cons first keys ih =>
      obtain ⟨typed, hgoes, later⟩ := enough_cons.mp enough
      have heard := replies.hear token watch first
      rw [hgoes] at heard
      rw [List.map_cons, List.cons_append, loop_key_wentOn uncalled typed heard, List.cons_append,
        event.presses_cons]
      exact ih (replies.tail first) later

end Input

end Inlay.Keyboard
