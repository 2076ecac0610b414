import Inlay.Keyboard.Input
import Mathlib.Data.List.Infix

namespace Inlay.Keyboard

/-- An event that a listener heard, and what it answered. -/
structure Hearing where
  event : KeyEvent
  goOn : Except Failure Bool

def Hearing.hasKey (h : Hearing) : Bool := h.event.key.isSome

/-- A listener with everything that it hears written down. -/
def Listener.logged {σ : Type} (listener : Listener σ) : Listener (List Hearing × σ) :=
  fun event state =>
    let (response, own) := listener event state.2
    (response, (state.1 ++ [⟨event, response.goOn⟩], own))

namespace Occurrence

def key? : Occurrence → Option Key
  | key k => some k
  | _ => none

/-- Whether a loop goes past an occurrence without an event. -/
def passes : Occurrence → Bool
  | elapsed _ | cancelled => true
  | _ => false

/-- Whether the one at the keyboard, or the system, calls the loop off. -/
def interrupts : Occurrence → Bool
  | key .interrupt | interrupt => true
  | _ => false

end Occurrence

namespace KeyEvent

/-- The event after some keys: the fold of their edits. -/
def pressAll (event : KeyEvent) (ignoreHintKeys : Bool) (keys : List Key) : KeyEvent :=
  keys.foldl (fun event key => event.press ignoreHintKeys key) event

/-- The events of keys, each after all keys up to its own. -/
def presses (event : KeyEvent) (ignoreHintKeys : Bool) (keys : List Key) : List KeyEvent :=
  keys.inits.tail.map (event.pressAll ignoreHintKeys)

/-- Neither cancelled nor timed out, as every event of a key is. -/
def isCalm (event : KeyEvent) : Bool := !event.cancelled && !event.timedOut

variable (event : KeyEvent) (ignoreHintKeys : Bool)

@[simp] theorem pressAll_nil : event.pressAll ignoreHintKeys [] = event := rfl

@[simp] theorem pressAll_cons (key : Key) (keys : List Key) :
    event.pressAll ignoreHintKeys (key :: keys) =
      (event.press ignoreHintKeys key).pressAll ignoreHintKeys keys :=
  rfl

theorem presses_cons (key : Key) (keys : List Key) :
    event.presses ignoreHintKeys (key :: keys) =
      event.press ignoreHintKeys key ::
        (event.press ignoreHintKeys key).presses ignoreHintKeys keys := by
  have hinits : keys.inits = [] :: keys.inits.tail := by
    cases keys with
    | nil => rfl
    | cons key' keys => rw [List.inits_cons, List.tail_cons]
  rw [presses, List.inits_cons, List.tail_cons, hinits, List.map_cons, List.map_cons, List.map_map]
  rfl

theorem key_press (key : Key) : (event.press ignoreHintKeys key).key = some key := by
  unfold press
  cases key with
  | char c =>
      dsimp only
      cases Decidable.em (c = '?' ∧ ignoreHintKeys = false) with
      | inl hhint => rw [if_pos hhint]
      | inr htext => rw [if_neg htext]
  | _ => rfl

theorem isCalm_press (key : Key) : (event.press ignoreHintKeys key).isCalm = event.isCalm := by
  unfold press
  cases key with
  | char c =>
      dsimp only
      cases Decidable.em (c = '?' ∧ ignoreHintKeys = false) with
      | inl hhint => rw [if_pos hhint]; rfl
      | inr htext => rw [if_neg htext]; rfl
  | _ => rfl

theorem isCalm_pressAll (keys : List Key) :
    (event.pressAll ignoreHintKeys keys).isCalm = event.isCalm := by
  induction keys generalizing event with
  | nil => rfl
  | cons key keys ih => rw [pressAll_cons, ih, isCalm_press]

end KeyEvent

/-- The courses that a loop can take through what occurs: from an event on, what the listener hears
and answers, and the result. The token may call the loop off at any point. -/
inductive Transcript (ignoreHintKeys : Bool) :
    KeyEvent → List Occurrence → List Hearing → Except Failure Unit → Prop
  | called {event : KeyEvent} {occurrences : List Occurrence} (summons : Summons)
      (goOn : Except Failure Bool) :
      Transcript ignoreHintKeys event occurrences [⟨summons.event event, goOn⟩]
        (.error summons.failure)
  | silent {event : KeyEvent} : Transcript ignoreHintKeys event [] [] (.error keyboardClosed)
  | closed {event : KeyEvent} {rest : List Occurrence} :
      Transcript ignoreHintKeys event (.closed :: rest) [] (.error keyboardClosed)
  | failed {event : KeyEvent} {rest : List Occurrence} (fault : Fault) :
      Transcript ignoreHintKeys event (.failed fault :: rest) [] (.error (.keyboard fault))
  | answered {event : KeyEvent} {rest : List Occurrence} (key : Key) :
      Transcript ignoreHintKeys event (.key key :: rest)
        [⟨event.press ignoreHintKeys key, .ok false⟩] (.ok ())
  | refused {event : KeyEvent} {rest : List Occurrence} (key : Key) (failure : Failure) :
      Transcript ignoreHintKeys event (.key key :: rest)
        [⟨event.press ignoreHintKeys key, .error failure⟩] (.error failure)
  | key {event : KeyEvent} {rest : List Occurrence} {log : List Hearing}
      {result : Except Failure Unit} (key : Key)
      (later : Transcript ignoreHintKeys (event.press ignoreHintKeys key) rest log result) :
      Transcript ignoreHintKeys event (.key key :: rest)
        (⟨event.press ignoreHintKeys key, .ok true⟩ :: log) result
  | pass {event : KeyEvent} {rest : List Occurrence} {log : List Hearing}
      {result : Except Failure Unit} (occurrence : Occurrence) (h : occurrence.passes = true)
      (later : Transcript ignoreHintKeys event rest log result) :
      Transcript ignoreHintKeys event (occurrence :: rest) log result

/-- An event of a key is neither cancelled nor timed out. -/
structure Hearing.OfKey (h : Hearing) : Prop where
  hasKey : h.hasKey = true
  calm : h.event.isCalm = true

/-- The result that the last event calls for, with the answer to it. -/
inductive Verdict : Option Hearing → Except Failure Unit → Prop
  | answered {h : Hearing} (key : h.OfKey) (goOn : h.goOn = .ok false) : Verdict (some h) (.ok ())
  | refused {h : Hearing} {failure : Failure} (key : h.OfKey) (goOn : h.goOn = .error failure) :
      Verdict (some h) (.error failure)
  | called {h : Hearing} {event : KeyEvent} (summons : Summons) (calm : event.isCalm = true)
      (last : h.event = summons.event event) : Verdict (some h) (.error summons.failure)
  | lost {last : Option Hearing} (fault : Fault)
      (wentOn : ∀ h ∈ last, h.OfKey ∧ h.goOn = .ok true) :
      Verdict last (.error (.keyboard fault))

namespace Transcript

variable {ignoreHintKeys : Bool} {event : KeyEvent} {occurrences : List Occurrence}
  {log : List Hearing} {result : Except Failure Unit}

/-- The events are those of the first keys, and at most one more. -/
theorem heard (h : Transcript ignoreHintKeys event occurrences log result) :
    ∃ keys, keys <+: occurrences.filterMap Occurrence.key? ∧ ∃ final : Option Summons,
      log.map Hearing.event =
        event.presses ignoreHintKeys keys ++
          (final.map fun summons => summons.event (event.pressAll ignoreHintKeys keys)).toList := by
  induction h with
  | called summons goOn => exact ⟨[], List.nil_prefix, some summons, rfl⟩
  | silent | closed | failed fault => exact ⟨[], List.nil_prefix, none, rfl⟩
  | answered key | refused key failure =>
      exact ⟨[key], (List.prefix_cons_inj key).mpr List.nil_prefix, none, rfl⟩
  | key key later ih =>
      obtain ⟨keys, hprefix, final, hlog⟩ := ih
      refine ⟨key :: keys, (List.prefix_cons_inj key).mpr hprefix, final, ?_⟩
      rw [List.map_cons, hlog, KeyEvent.presses_cons]
      rfl
  | @pass event rest log result occurrence h later ih =>
      have hkey : occurrence.key? = none := by
        cases occurrence with
        | elapsed nanos | cancelled => rfl
        | key key | interrupt | failed fault | closed => cases h
      rw [List.filterMap_cons_none hkey]
      exact ih

theorem ofKey_press (calm : event.isCalm = true) (key : Key) (goOn : Except Failure Bool) :
    Hearing.OfKey ⟨event.press ignoreHintKeys key, goOn⟩ := by
  constructor
  · rw [Hearing.hasKey, event.key_press]
    rfl
  · rw [event.isCalm_press]
    exact calm

/-- The listener wanted to read on after every event but the last. -/
theorem wentOn (h : Transcript ignoreHintKeys event occurrences log result)
    (calm : event.isCalm = true) :
    ∀ hearing ∈ log.dropLast, hearing.OfKey ∧ hearing.goOn = .ok true := by
  induction h with
  | called | silent | closed | failed | answered | refused => exact List.forall_mem_nil _
  | pass occurrence h later ih => exact ih calm
  | @key event rest log result key later ih =>
      cases log with
      | nil => exact List.forall_mem_nil _
      | cons hearing log =>
          rw [List.dropLast_cons_cons, List.forall_mem_cons]
          exact ⟨⟨ofKey_press calm key _, rfl⟩, ih ((event.isCalm_press _ key).trans calm)⟩

theorem verdict (h : Transcript ignoreHintKeys event occurrences log result)
    (calm : event.isCalm = true) : Verdict log.getLast? result := by
  induction h with
  | called summons goOn => exact .called summons calm rfl
  | silent | closed | failed => exact .lost _ (by simp)
  | answered key => exact .answered (ofKey_press calm key _) rfl
  | refused key failure => exact .refused (ofKey_press calm key _) rfl
  | pass occurrence h later ih => exact ih calm
  | @key event rest log result key later ih =>
      have hlater := ih ((event.isCalm_press _ key).trans calm)
      cases log with
      | nil =>
          cases hlater with
          | lost fault _ =>
              refine .lost fault ?_
              rintro hearing ⟨⟩
              exact ⟨ofKey_press calm key _, rfl⟩
      | cons hearing log => exact hlater

end Transcript

namespace Summons

/-- Whether an event says that the loop was called off in this way. -/
def marks (event : KeyEvent) : Summons → Bool
  | cancelled => event.cancelled
  | timedOut => event.timedOut

theorem marks_of_calm {event : KeyEvent} (calm : event.isCalm = true) (summons : Summons) :
    summons.marks event = false := by
  rw [KeyEvent.isCalm, Bool.and_eq_true, Bool.not_eq_true', Bool.not_eq_true'] at calm
  cases summons with
  | cancelled => exact calm.1
  | timedOut => exact calm.2

theorem marks_event {event : KeyEvent} (calm : event.isCalm = true) (summons summons' : Summons) :
    summons'.marks (summons.event event) = true ↔ summons' = summons := by
  have hcancelled : event.cancelled = false := marks_of_calm calm .cancelled
  have htimedOut : event.timedOut = false := marks_of_calm calm .timedOut
  cases summons <;> cases summons' <;> simp [marks, Summons.event, hcancelled, htimedOut]

theorem cancelled_event {event : KeyEvent} (calm : event.isCalm = true) (summons : Summons) :
    (summons.event event).cancelled = !(summons.event event).timedOut := by
  have hcancelled : event.cancelled = false := marks_of_calm calm .cancelled
  have htimedOut : event.timedOut = false := marks_of_calm calm .timedOut
  cases summons with
  | cancelled => simp [Summons.event, htimedOut]
  | timedOut => simp [Summons.event, hcancelled]

theorem key_event (event : KeyEvent) (summons : Summons) : (summons.event event).key = none := by
  cases summons with
  | cancelled => rfl
  | timedOut => rfl

theorem value_event (event : KeyEvent) (summons : Summons) :
    (summons.event event).value = event.value := by
  cases summons with
  | cancelled => rfl
  | timedOut => rfl

end Summons

namespace Verdict

variable {hearing : Hearing} {last : Option Hearing} {result : Except Failure Unit}

/-- The answer to the event of a key decides, if that was the last. -/
theorem of_hasKey (h : Verdict (some hearing) result) (key : hearing.hasKey = true) :
    match hearing.goOn with
    | .ok false => result = .ok ()
    | .ok true => ∃ fault, result = .error (.keyboard fault)
    | .error failure => result = .error failure := by
  cases h with
  | answered _ goOn => rw [goOn]
  | refused _ goOn => rw [goOn]
  | called summons _ last =>
      rw [Hearing.hasKey, last, summons.key_event] at key
      cases key
  | lost fault wentOn =>
      rw [(wentOn hearing rfl).2]
      exact ⟨fault, rfl⟩

theorem eq_ok_iff (h : Verdict last result) :
    result = .ok () ↔
      ∃ hearing, last = some hearing ∧ hearing.hasKey = true ∧ hearing.goOn = .ok false := by
  constructor
  · rintro rfl
    cases h with
    | answered key goOn => exact ⟨_, rfl, key.hasKey, goOn⟩
  · rintro ⟨hearing, rfl, hkey, hgoOn⟩
    have hresult := h.of_hasKey hkey
    rw [hgoOn] at hresult
    exact hresult

theorem eq_error_of_refused (h : Verdict last result) {failure : Failure}
    (refused : ∃ hearing, last = some hearing ∧ hearing.hasKey = true ∧
      hearing.goOn = .error failure) : result = .error failure := by
  obtain ⟨hearing, rfl, hkey, hgoOn⟩ := refused
  have hresult := h.of_hasKey hkey
  rw [hgoOn] at hresult
  exact hresult

theorem eq_called_iff (h : Verdict last result) (summons : Summons) :
    result = .error summons.failure ↔
      (∃ hearing, last = some hearing ∧ summons.marks hearing.event = true) ∨
        ∃ hearing, last = some hearing ∧ hearing.hasKey = true ∧
          hearing.goOn = .error summons.failure := by
  constructor
  · intro hresult
    cases h with
    | answered => cases hresult
    | refused key goOn =>
        cases hresult
        exact .inr ⟨_, rfl, key.hasKey, goOn⟩
    | called summons' calm hlast =>
        have heq : summons = summons' := by
          cases summons <;> cases summons' <;> first | rfl | cases hresult
        exact .inl ⟨_, rfl, by rw [hlast, Summons.marks_event calm, heq]⟩
    | lost fault => cases summons <;> cases hresult
  · rintro (⟨hearing, rfl, hmarks⟩ | refused)
    · have ofKey : ¬ hearing.OfKey := by
        intro key
        rw [Summons.marks_of_calm key.calm] at hmarks
        cases hmarks
      cases h with
      | answered key => exact absurd key ofKey
      | refused key => exact absurd key ofKey
      | called summons' calm hlast =>
          rw [hlast, Summons.marks_event calm] at hmarks
          rw [hmarks]
      | lost fault wentOn => exact absurd (wentOn hearing rfl).1 ofKey
    · exact h.eq_error_of_refused refused

/-- The keyboard is to blame where nothing else was. -/
theorem eq_keyboard_iff (h : Verdict last result) :
    (∃ fault, result = .error (.keyboard fault)) ↔
      (∀ hearing ∈ last, hearing.hasKey = true ∧ hearing.goOn = .ok true) ∨
        ∃ fault hearing, last = some hearing ∧ hearing.hasKey = true ∧
          hearing.goOn = .error (.keyboard fault) := by
  constructor
  · rintro ⟨fault, hresult⟩
    cases h with
    | answered => cases hresult
    | refused key goOn =>
        cases hresult
        exact .inr ⟨fault, _, rfl, key.hasKey, goOn⟩
    | called summons => cases summons <;> cases hresult
    | lost _ wentOn => exact .inl fun hearing hlast => (wentOn hearing hlast).imp_left (·.hasKey)
  · rintro (wentOn | ⟨fault, refused⟩)
    · cases last with
      | none =>
          cases h with
          | lost fault => exact ⟨fault, rfl⟩
      | some hearing =>
          obtain ⟨hkey, hgoOn⟩ := wentOn hearing rfl
          have hresult := h.of_hasKey hkey
          rw [hgoOn] at hresult
          exact hresult
    · exact ⟨fault, h.eq_error_of_refused refused⟩

theorem refused_of_eq_error (h : Verdict last result) {failure : Failure}
    (hresult : result = .error failure) :
    (∃ hearing, last = some hearing ∧ hearing.hasKey = true ∧ hearing.goOn = .error failure) ∨
      (∃ summons : Summons, failure = summons.failure) ∨ ∃ fault, failure = .keyboard fault := by
  cases h with
  | answered => cases hresult
  | refused key goOn =>
      cases hresult
      exact .inl ⟨_, rfl, key.hasKey, goOn⟩
  | called summons =>
      cases hresult
      exact .inr (.inl ⟨summons, rfl⟩)
  | lost fault =>
      cases hresult
      exact .inr (.inr ⟨fault, rfl⟩)

end Verdict

/-- How the events that a listener heard, with its answers, go with the result of the loop. A
failure of the listener's own may be any, so it is told from the loop's by the event it answers. -/
structure Agreement (ignoreHintKeys : Bool) (start : KeyEvent) (occurrences : List Occurrence)
    (log : List Hearing) (result : Except Failure Unit) : Prop where
  /-- One event for each key up to the end, and at most one more, which has no key. -/
  heard : ∃ keys, keys <+: occurrences.filterMap Occurrence.key? ∧ ∃ final : Option KeyEvent,
    log.map Hearing.event = start.presses ignoreHintKeys keys ++ final.toList ∧
      ∀ event ∈ final, event.key = none ∧
        event.value = (start.pressAll ignoreHintKeys keys).value ∧
        event.cancelled = !event.timedOut
  wentOn : ∀ hearing ∈ log.dropLast, hearing.hasKey = true ∧ hearing.goOn = .ok true
  answered : result = .ok () ↔ ∃ hearing ∈ log, hearing.hasKey = true ∧ hearing.goOn = .ok false
  refused : ∀ failure, (∃ hearing ∈ log, hearing.hasKey = true ∧ hearing.goOn = .error failure) →
    result = .error failure
  called : ∀ summons : Summons, result = .error summons.failure ↔
    (∃ hearing, log.getLast? = some hearing ∧ summons.marks hearing.event = true) ∨
      ∃ hearing ∈ log, hearing.hasKey = true ∧ hearing.goOn = .error summons.failure
  lost : (∃ fault, result = .error (.keyboard fault)) ↔
    (∀ hearing ∈ log, hearing.hasKey = true ∧ hearing.goOn = .ok true) ∨
      ∃ fault, ∃ hearing ∈ log, hearing.hasKey = true ∧ hearing.goOn = .error (.keyboard fault)
  blamed : ∀ failure, result = .error failure →
    (∃ hearing ∈ log, hearing.hasKey = true ∧ hearing.goOn = .error failure) ∨
      (∃ summons : Summons, failure = summons.failure) ∨ ∃ fault, failure = .keyboard fault

namespace Transcript

variable {ignoreHintKeys : Bool} {event : KeyEvent} {occurrences : List Occurrence}
  {log : List Hearing} {result : Except Failure Unit}

/-- Only the last event can be one after which the listener does not read on. -/
theorem exists_iff_last (h : Transcript ignoreHintKeys event occurrences log result)
    (calm : event.isCalm = true) {goOn : Except Failure Bool} (stops : goOn ≠ .ok true) :
    (∃ hearing ∈ log, hearing.hasKey = true ∧ hearing.goOn = goOn) ↔
      ∃ hearing, log.getLast? = some hearing ∧ hearing.hasKey = true ∧ hearing.goOn = goOn := by
  constructor
  · rintro ⟨hearing, hmem, hkey, hgoOn⟩
    by_cases hlast : some hearing = log.getLast?
    · exact ⟨hearing, hlast.symm, hkey, hgoOn⟩
    · have hbefore := List.mem_dropLast_of_mem_of_ne_getLast? hmem hlast
      exact absurd (hgoOn.symm.trans (h.wentOn calm hearing hbefore).2) stops
  · rintro ⟨hearing, hlast, hanswer⟩
    exact ⟨hearing, List.mem_of_getLast? hlast, hanswer⟩

theorem forall_iff_last (h : Transcript ignoreHintKeys event occurrences log result)
    (calm : event.isCalm = true) :
    (∀ hearing ∈ log, hearing.hasKey = true ∧ hearing.goOn = .ok true) ↔
      ∀ hearing ∈ log.getLast?, hearing.hasKey = true ∧ hearing.goOn = .ok true := by
  constructor
  · intro wentOn hearing hlast
    exact wentOn hearing (List.mem_of_getLast? hlast)
  · intro wentOn hearing hmem
    by_cases hlast : some hearing = log.getLast?
    · exact wentOn hearing hlast.symm
    · have hbefore := List.mem_dropLast_of_mem_of_ne_getLast? hmem hlast
      exact (h.wentOn calm hearing hbefore).imp_left (·.hasKey)

theorem agreement (h : Transcript ignoreHintKeys event occurrences log result)
    (calm : event.isCalm = true) : Agreement ignoreHintKeys event occurrences log result := by
  have verdict := h.verdict calm
  have refused : ∀ failure,
      (∃ hearing ∈ log, hearing.hasKey = true ∧ hearing.goOn = .error failure) ↔
        ∃ hearing, log.getLast? = some hearing ∧ hearing.hasKey = true ∧
          hearing.goOn = .error failure :=
    fun failure => h.exists_iff_last calm (by simp)
  constructor
  case heard =>
    obtain ⟨keys, hprefix, final, hlog⟩ := h.heard
    have calm' := (event.isCalm_pressAll ignoreHintKeys keys).trans calm
    refine ⟨keys, hprefix, _, hlog, ?_⟩
    intro e he
    rw [Option.mem_def, Option.map_eq_some_iff] at he
    obtain ⟨summons, -, rfl⟩ := he
    exact ⟨Summons.key_event _ summons, Summons.value_event _ summons,
      Summons.cancelled_event calm' summons⟩
  case wentOn =>
    intro hearing hmem
    exact (h.wentOn calm hearing hmem).imp_left (·.hasKey)
  case answered => rw [h.exists_iff_last calm (by simp), verdict.eq_ok_iff]
  case refused =>
    intro failure
    rw [refused]
    exact verdict.eq_error_of_refused
  case called =>
    intro summons
    rw [refused, verdict.eq_called_iff]
  case lost =>
    rw [h.forall_iff_last calm, verdict.eq_keyboard_iff]
    simp only [refused]
  case blamed =>
    intro failure hresult
    rw [refused]
    exact verdict.refused_of_eq_error hresult

end Transcript

end Inlay.Keyboard
