import Inlay.Proofs.Keyboard
import Inlay.Proofs.Keyboard.Events
import Inlay.Proofs.Token

namespace Inlay

namespace Failure

open Keyboard

/-- The summons that a failure reports, be it under the name of the limit that ran out. -/
def summons? : Failure → Option Summons
  | cancelled => some .cancelled
  | timeout _ | deadlineExceeded => some .timedOut
  | _ => none

@[simp] theorem summons?_failure (summons : Summons) : summons.failure.summons? = some summons := by
  cases summons with
  | cancelled | timedOut => rfl

end Failure

namespace Keyboard

/-- The kinds of states that a listener is in: while it goes on, once it has answered and once it
was called off. -/
structure Kinds (σ : Type) where
  ongoing : σ → Prop
  answered : σ → Prop
  called : Summons → σ → Prop

namespace Kinds

variable {σ : Type} {kinds : Kinds σ}

def Failed (kinds : Kinds σ) (own : σ) : Option Summons → Prop
  | some summons => kinds.called summons own
  | none => kinds.ongoing own

/-- What a result says about the state that it comes with. -/
def Ends (kinds : Kinds σ) (result : Except Failure Unit) (own : σ) : Prop :=
  match result with
  | .ok () => kinds.answered own
  | .error failure => kinds.Failed own failure.summons?

/-- The result says the same of another state of the same kinds. -/
theorem Ends.of_kinds {result : Except Failure Unit} {own own' : σ} (h : kinds.Ends result own)
    (ongoing : kinds.ongoing own → kinds.ongoing own')
    (answered : kinds.answered own → kinds.answered own')
    (called : ∀ summons, kinds.called summons own → kinds.called summons own') :
    kinds.Ends result own' := by
  cases result with
  | ok => exact answered h
  | error failure =>
      change kinds.Failed own failure.summons? at h
      change kinds.Failed own' failure.summons?
      generalize failure.summons? = reported at h ⊢
      cases reported with
      | some summons => exact called summons h
      | none => exact ongoing h

theorem Ends.blaming {result : Except Failure Unit} {own : σ} (h : kinds.Ends result own)
    (limit : Option Duration) : kinds.Ends (Inlay.blaming limit result) own := by
  cases result with
  | ok => exact h
  | error failure =>
      cases failure with
      | deadlineExceeded => cases limit <;> exact h
      | _ => exact h

/-- What a listener does in a state to the event of a key, and once it is called off. It does not
fail. -/
structure Kept (kinds : Kinds σ) (listener : Listener σ) : Prop where
  pressed : ∀ {event own}, event.isCalm = true → kinds.ongoing own →
    ∃ goOn, (listener event own).1.goOn = .ok goOn ∧
      if goOn then kinds.ongoing (listener event own).2 else kinds.answered (listener event own).2
  called : ∀ {event own} (summons : Summons), event.isCalm = true → kinds.ongoing own →
    kinds.called summons (listener (summons.event event) own).2

variable {listener : Listener σ} (h : kinds.Kept listener)

include h

theorem Kept.finish {s : Input.State σ} (calm : s.event.isCalm = true) (start : kinds.ongoing s.own)
    (token : Token) (summons : Summons) :
    kinds.Ends (s.finish listener token summons).1 (s.finish listener token summons).2.own := by
  change kinds.Failed _ summons.failure.summons?
  rw [Failure.summons?_failure]
  exact h.called summons calm start

theorem Kept.loop {ignoreHintKeys : Bool} {token : Token} (occurrences : List Occurrence)
    {s : Input.State σ} (calm : s.event.isCalm = true) (start : kinds.ongoing s.own) :
    kinds.Ends (Input.loop listener ignoreHintKeys token occurrences s).1
      (Input.loop listener ignoreHintKeys token occurrences s).2.own := by
  have heard {key : Key} {s s' : Input.State σ} {goOn : Except Failure Bool}
      (calm : s.event.isCalm = true) (start : kinds.ongoing s.own)
      (hs : s.hear listener token (s.event.press ignoreHintKeys key) = (goOn, s')) :
      s'.event.isCalm = true ∧ ∃ goesOn, goOn = .ok goesOn ∧
        if goesOn then kinds.ongoing s'.own else kinds.answered s'.own := by
    have calm' := (s.event.isCalm_press ignoreHintKeys key).trans calm
    obtain ⟨rfl, rfl⟩ := Prod.mk.inj hs
    exact ⟨calm', h.pressed calm' start⟩
  fun_induction Input.loop listener ignoreHintKeys token occurrences s with
  | case1 s summons | case3 occurrence rest s summons => exact h.finish calm start token summons
  | case4 rest s | case5 rest s => exact h.finish calm start token .cancelled
  | case2 s | case9 rest s uncalled fault | case10 rest s => exact start
  | case6 rest s uncalled key typed s' hs ih =>
      obtain ⟨calm', goesOn, hgoesOn, going⟩ := heard calm start hs
      rw [← Except.ok.inj hgoesOn] at going
      exact ih calm' going
  | case7 rest s uncalled key typed s' hs =>
      obtain ⟨-, goesOn, hgoesOn, answered⟩ := heard calm start hs
      rw [← Except.ok.inj hgoesOn] at answered
      exact answered
  | case8 rest s uncalled key typed failure s' hs =>
      obtain ⟨-, goesOn, hgoesOn, -⟩ := heard calm start hs
      cases hgoesOn
  | case11 rest s uncalled nanos ih | case12 rest s uncalled ih => exact ih calm start

theorem Kept.listenAmid (kb : Keyboard) (config : InputConfig)
    (amid : List Occurrence → List Occurrence) (token : Token) (watch : Watch) {own : σ}
    (start : kinds.ongoing own) :
    kinds.Ends (kb.listenAmid config amid token listener watch own).1
      (kb.listenAmid config amid token listener watch own).2.2.own := by
  rw [Keyboard.listenAmid]
  dsimp only
  split
  · exact start
  split
  · exact start
  · exact h.loop _ rfl start

end Kinds

end Keyboard

/-- A time limit changes the name of a failure at most. -/
theorem Token.ends_askWithin {σ τ : Type} {kinds : Keyboard.Kinds σ} (own : τ → σ)
    {ask : Token → τ → Except Failure Unit × τ} {s : τ}
    (asked : ∀ token, kinds.Ends (ask token s).1 (own (ask token s).2))
    (start : kinds.ongoing (own s)) (token : Token) (limit : Option Duration) (now : Instant) :
    kinds.Ends (token.askWithin limit now ask s).1 (own (token.askWithin limit now ask s).2) := by
  rcases token.askWithin_cases limit now with h | h | ⟨deadline, blamed, h⟩
  · rw [h]
    exact asked token
  · rw [h]
    exact start
  · rw [h]
    exact (asked (token.withDeadline deadline)).blaming blamed

/-- Waits that go alike under every token go alike under a time limit. -/
theorem Token.askWithin_alike {σ α : Type} {R : σ → σ → Prop}
    {ask ask' : Token → σ → Except Failure α × σ} (s s' : σ)
    (asked : ∀ token, (ask' token s').1 = (ask token s).1 ∧ R (ask token s).2 (ask' token s').2)
    (start : R s s') (token : Token) (limit : Option Duration) (now : Instant) :
    (token.askWithin limit now ask' s').1 = (token.askWithin limit now ask s).1 ∧
      R (token.askWithin limit now ask s).2 (token.askWithin limit now ask' s').2 := by
  rcases token.askWithin_cases limit now with h | h | ⟨deadline, blamed, h⟩
  · rw [h, h]
    exact asked token
  · rw [h, h]
    exact ⟨rfl, start⟩
  · rw [h, h]
    obtain ⟨hresult, hstate⟩ := asked (token.withDeadline deadline)
    exact ⟨congrArg (blaming blamed) hresult, hstate⟩

end Inlay
