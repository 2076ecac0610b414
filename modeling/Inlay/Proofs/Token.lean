import Inlay.Token

namespace Inlay

/-- Puts a limit in the place of a deadline that ran out, if there is a limit to blame. -/
def blaming {α : Type} (limit : Option Duration) : Except Failure α → Except Failure α
  | .error .deadlineExceeded => .error (limit.elim .deadlineExceeded .timeout)
  | outcome => outcome

theorem blaming_none {α : Type} : (blaming none : Except Failure α → Except Failure α) = id := by
  funext outcome
  unfold blaming
  split <;> rfl

theorem blaming_comp_blaming {α : Type} (outer inner : Option Duration) :
    (blaming outer ∘ blaming inner : Except Failure α → Except Failure α) =
      blaming (inner.or outer) := by
  funext outcome
  cases outcome with
  | ok a => rfl
  | error failure =>
      cases failure with
      | deadlineExceeded => cases inner <;> rfl
      | _ => rfl

theorem eq_ok_of_blaming {α : Type} {limit : Option Duration} {outcome : Except Failure α} {a : α}
    (h : blaming limit outcome = .ok a) : outcome = .ok a := by
  unfold blaming at h
  split at h
  · cases h
  · exact h

theorem map_blaming_of_ok {σ α : Type} {asked : Except Failure α × σ} {a : α}
    (h : asked.1 = .ok a) (limit : Option Duration) : asked.map (blaming limit) id = asked := by
  obtain ⟨outcome, s⟩ := asked
  obtain rfl : outcome = .ok a := h
  rfl

namespace Token

variable {σ α : Type} {token : Token} {limit : Option Duration} {span : Duration}
  {now deadline : Instant}

theorem askWithin_of_none (hspan : (limit.filter fun d => !d.isZero) = none)
    (ask : Token → σ → Except Failure α × σ) (s : σ) :
    token.askWithin limit now ask s = ask token s := by
  rw [askWithin, hspan]

theorem askWithin_of_uncounted (hspan : (limit.filter fun d => !d.isZero) = some span)
    (hafter : Instant.after? now span = none) (ask : Token → σ → Except Failure α × σ) (s : σ) :
    token.askWithin limit now ask s = (.error .clockOverflow, s) := by
  rw [askWithin, hspan]
  dsimp only
  rw [hafter]

theorem askWithin_of_counted (hspan : (limit.filter fun d => !d.isZero) = some span)
    (hafter : Instant.after? now span = some deadline) (ask : Token → σ → Except Failure α × σ)
    (s : σ) :
    token.askWithin limit now ask s = (ask (token.withDeadline deadline) s).map
      (blaming (if token.deadline.all (deadline < ·) then some span else none)) id := by
  rw [askWithin, hspan]
  dsimp only
  rw [hafter]
  dsimp only
  obtain ⟨outcome, s'⟩ := ask (token.withDeadline deadline) s
  cases outcome with
  | ok a => rfl
  | error failure =>
      cases failure with
      | deadlineExceeded => cases token.deadline.all (deadline < ·) <;> rfl
      | _ => rfl

/-- The ways of a time limit. Which one it goes does not depend on what is waited for. -/
theorem askWithin_cases (token : Token) (limit : Option Duration) (now : Instant) :
    (∀ (ask : Token → σ → Except Failure α × σ) s, token.askWithin limit now ask s = ask token s) ∨
    (∀ (ask : Token → σ → Except Failure α × σ) s,
      token.askWithin limit now ask s = (.error .clockOverflow, s)) ∨
    ∃ deadline blamed, ∀ (ask : Token → σ → Except Failure α × σ) s,
      token.askWithin limit now ask s =
        (ask (token.withDeadline deadline) s).map (blaming blamed) id := by
  cases hspan : limit.filter fun d => !d.isZero with
  | none => exact Or.inl (askWithin_of_none hspan)
  | some span =>
      cases hafter : Instant.after? now span with
      | none => exact Or.inr (Or.inl (askWithin_of_uncounted hspan hafter))
      | some deadline => exact Or.inr (Or.inr ⟨deadline, _, askWithin_of_counted hspan hafter⟩)

variable {ask : Token → σ → Except Failure α × σ} {s : σ}

/-- What a wait does to its state under every token, it does under a time limit. -/
theorem state_askWithin {R : σ → σ → Prop} (refl : ∀ s, R s s)
    (step : ∀ token s, R s (ask token s).2) (token : Token) (limit : Option Duration)
    (now : Instant) (s : σ) : R s (token.askWithin limit now ask s).2 := by
  rcases token.askWithin_cases limit now with h | h | ⟨deadline, blamed, h⟩
  · rw [h]
    exact step token s
  · rw [h]
    exact refl s
  · rw [h]
    exact step (token.withDeadline deadline) s

/-- What is waited for under a time limit came under some token. -/
theorem askWithin_of_ok {a : α} (h : (token.askWithin limit now ask s).1 = .ok a) :
    ∃ token', token.askWithin limit now ask s = ask token' s := by
  rcases token.askWithin_cases limit now with hask | hask | ⟨deadline, blamed, hask⟩
  · exact ⟨token, hask ask s⟩
  · rw [hask] at h
    cases h
  · rw [hask] at h
    exact ⟨token.withDeadline deadline,
      (hask ask s).trans (map_blaming_of_ok (eq_ok_of_blaming h) blamed)⟩

end Token

end Inlay
