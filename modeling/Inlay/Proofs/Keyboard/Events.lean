import Inlay.Proofs.Keyboard.Transcript

namespace Inlay.Keyboard

namespace Input

section

variable {σ : Type} {listener : Listener σ} {ignoreHintKeys : Bool} {token : Token}
  {occurrences rest : List Occurrence} {s : State σ}

theorem loop_of_summons {summons : Summons} (calls : summons? token s.watch = some summons) :
    loop listener ignoreHintKeys token occurrences s = s.finish listener token summons := by
  cases occurrences with
  | nil => simp only [loop, calls]
  | cons occurrence rest => rw [loop.eq_def]; simp only [calls]

theorem loop_interrupted (uncalled : summons? token s.watch = none) {occurrence : Occurrence}
    (h : occurrence.interrupts = true) :
    loop listener ignoreHintKeys token (occurrence :: rest) s =
      s.finish listener token .cancelled := by
  cases occurrence with
  | key key =>
      cases key with
      | interrupt => simp only [loop, uncalled]
      | _ => cases h
  | interrupt => simp only [loop, uncalled]
  | _ => cases h

section

variable (uncalled : summons? token s.watch = none) {key : Key} (typed : key ≠ .interrupt)
  {s' : State σ}
include uncalled typed

theorem loop_key_wentOn
    (heard : s.hear listener token (s.event.press ignoreHintKeys key) = (.ok true, s')) :
    loop listener ignoreHintKeys token (.key key :: rest) s =
      loop listener ignoreHintKeys token rest s' := by
  rw [loop.eq_def]
  simp only [uncalled, heard]

theorem loop_key_answered
    (heard : s.hear listener token (s.event.press ignoreHintKeys key) = (.ok false, s')) :
    loop listener ignoreHintKeys token (.key key :: rest) s = (.ok (), s') := by
  rw [loop.eq_def]
  simp only [uncalled, heard]

theorem loop_key_refused {failure : Failure}
    (heard : s.hear listener token (s.event.press ignoreHintKeys key) = (.error failure, s')) :
    loop listener ignoreHintKeys token (.key key :: rest) s = (.error failure, s') := by
  rw [loop.eq_def]
  simp only [uncalled, heard]

end

/-- A state after an occurrence that makes no event. -/
def State.pass (s : State σ) (token : Token) : Occurrence → State σ
  | .elapsed nanos => { s with watch := s.watch.advance nanos }
  | .cancelled => { s with watch := s.watch.cancel token }
  | _ => s

theorem loop_pass (uncalled : summons? token s.watch = none) {occurrence : Occurrence}
    (h : occurrence.passes = true) :
    loop listener ignoreHintKeys token (occurrence :: rest) s =
      loop listener ignoreHintKeys token rest (s.pass token occurrence) := by
  cases occurrence with
  | elapsed nanos | cancelled => simp only [loop, uncalled, State.pass]
  | key key | interrupt | failed fault | closed => cases h

/-- A state without the log of a logged listener. -/
def State.forget (s : State (List Hearing × σ)) : State σ := ⟨s.watch, s.event, s.own.2⟩

theorem hear_forget {s s' : State (List Hearing × σ)} {event : KeyEvent}
    {goOn : Except Failure Bool} (h : s.hear listener.logged token event = (goOn, s')) :
    s.forget.hear listener token event = (goOn, s'.forget) :=
  congrArg (fun r => (r.1, r.2.forget)) h

theorem log_hear {s s' : State (List Hearing × σ)} {event : KeyEvent}
    {goOn : Except Failure Bool} (h : s.hear listener.logged token event = (goOn, s')) :
    s'.event = event ∧ s'.own.1 = s.own.1 ++ [⟨event, goOn⟩] := by
  have hgoOn : (s.hear listener.logged token event).1 = goOn := congrArg Prod.fst h
  have hstate : (s.hear listener.logged token event).2 = s' := congrArg Prod.snd h
  rw [← hstate, ← hgoOn]
  exact ⟨rfl, rfl⟩

/-- Writing down what a listener hears changes nothing else. -/
theorem loop_forget (s : State (List Hearing × σ)) :
    loop listener ignoreHintKeys token occurrences s.forget =
      ((loop listener.logged ignoreHintKeys token occurrences s).1,
        (loop listener.logged ignoreHintKeys token occurrences s).2.forget) := by
  fun_induction loop listener.logged ignoreHintKeys token occurrences s with
  | case1 s summons calls | case3 occurrence rest s summons calls =>
      exact loop_of_summons (s := s.forget) calls
  | case2 s uncalled | case9 rest s uncalled fault | case10 rest s uncalled =>
      have uncalled' : summons? token s.forget.watch = none := uncalled
      simp only [loop, uncalled']
  | case4 rest s uncalled | case5 rest s uncalled =>
      exact loop_interrupted (s := s.forget) uncalled rfl
  | case6 rest s uncalled key typed s' heard ih =>
      exact (loop_key_wentOn (s := s.forget) uncalled typed (hear_forget heard)).trans ih
  | case7 rest s uncalled key typed s' heard =>
      exact loop_key_answered (s := s.forget) uncalled typed (hear_forget heard)
  | case8 rest s uncalled key typed failure s' heard =>
      exact loop_key_refused (s := s.forget) uncalled typed (hear_forget heard)
  | case11 rest s uncalled nanos ih =>
      exact (loop_pass (s := s.forget) uncalled rfl).trans ih
  | case12 rest s uncalled ih =>
      exact (loop_pass (s := s.forget) uncalled rfl).trans ih

/-- What a logged listener has written down by the end follows one of the courses there are. -/
theorem transcript_loop (s : State (List Hearing × σ)) :
    ∃ log, (loop listener.logged ignoreHintKeys token occurrences s).2.own.1 = s.own.1 ++ log ∧
      Transcript ignoreHintKeys s.event occurrences log
        (loop listener.logged ignoreHintKeys token occurrences s).1 := by
  fun_induction loop listener.logged ignoreHintKeys token occurrences s with
  | case1 s summons | case3 occurrence rest s summons => exact ⟨_, rfl, .called summons _⟩
  | case4 rest s | case5 rest s => exact ⟨_, rfl, .called .cancelled _⟩
  | case2 s => exact ⟨[], (List.append_nil _).symm, .silent⟩
  | case9 rest s uncalled fault => exact ⟨[], (List.append_nil _).symm, .failed fault⟩
  | case10 rest s => exact ⟨[], (List.append_nil _).symm, .closed⟩
  | case6 rest s uncalled key typed s' heard ih =>
      obtain ⟨hevent, hlog⟩ := log_hear heard
      obtain ⟨log, hlater, later⟩ := ih
      rw [hevent] at later
      refine ⟨_, ?_, .key key later⟩
      rw [hlater, hlog, List.append_assoc, List.singleton_append]
  | case7 rest s uncalled key typed s' heard =>
      exact ⟨_, (log_hear heard).2, .answered key⟩
  | case8 rest s uncalled key typed failure s' heard =>
      exact ⟨_, (log_hear heard).2, .refused key failure⟩
  | case11 rest s uncalled nanos ih =>
      obtain ⟨log, hlater, later⟩ := ih
      exact ⟨log, hlater, .pass (.elapsed nanos) rfl later⟩
  | case12 rest s uncalled ih =>
      obtain ⟨log, hlater, later⟩ := ih
      exact ⟨log, hlater, .pass .cancelled rfl later⟩

/-- The looks that a loop takes at its token: in each state with what is still to occur. -/
inductive Looks (listener : Listener σ) (ignoreHintKeys : Bool) (token : Token)
    (occurrences : List Occurrence) (s : State σ) : List Occurrence → State σ → Prop
  | first : Looks listener ignoreHintKeys token occurrences s occurrences s
  | key {rest : List Occurrence} {s₁ s₂ : State σ} {key : Key}
      (look : Looks listener ignoreHintKeys token occurrences s (.key key :: rest) s₁)
      (uncalled : summons? token s₁.watch = none) (typed : key ≠ .interrupt)
      (heard : s₁.hear listener token (s₁.event.press ignoreHintKeys key) = (.ok true, s₂)) :
      Looks listener ignoreHintKeys token occurrences s rest s₂
  | pass {rest : List Occurrence} {s₁ : State σ} (occurrence : Occurrence)
      (look : Looks listener ignoreHintKeys token occurrences s (occurrence :: rest) s₁)
      (uncalled : summons? token s₁.watch = none) (passes : occurrence.passes = true) :
      Looks listener ignoreHintKeys token occurrences s rest (s₁.pass token occurrence)

/-- At every look the loop goes on as from its start. -/
theorem Looks.loop_eq {s' : State σ}
    (h : Looks listener ignoreHintKeys token occurrences s rest s') :
    loop listener ignoreHintKeys token occurrences s =
      loop listener ignoreHintKeys token rest s' := by
  induction h with
  | first => rfl
  | key look uncalled typed heard ih => exact ih.trans (loop_key_wentOn uncalled typed heard)
  | pass occurrence look uncalled passes ih => exact ih.trans (loop_pass uncalled passes)

/-- How a loop ends at the last look at its token: the token calls it off, or does not and then it
depends on what occurs next and on the listener's answer. -/
inductive Ends (listener : Listener σ) (ignoreHintKeys : Bool) (token : Token) :
    List Occurrence → State σ → Except Failure Unit × State σ → Prop
  | called {rest : List Occurrence} {s : State σ} (summons : Summons)
      (calls : summons? token s.watch = some summons) :
      Ends listener ignoreHintKeys token rest s (s.finish listener token summons)
  | interrupted {rest : List Occurrence} {s : State σ} {occurrence : Occurrence}
      (uncalled : summons? token s.watch = none) (h : occurrence.interrupts = true) :
      Ends listener ignoreHintKeys token (occurrence :: rest) s
        (s.finish listener token .cancelled)
  | silent {s : State σ} (uncalled : summons? token s.watch = none) :
      Ends listener ignoreHintKeys token [] s (.error keyboardClosed, s)
  | closed {rest : List Occurrence} {s : State σ} (uncalled : summons? token s.watch = none) :
      Ends listener ignoreHintKeys token (.closed :: rest) s (.error keyboardClosed, s)
  | failed {rest : List Occurrence} {s : State σ} {fault : Fault}
      (uncalled : summons? token s.watch = none) :
      Ends listener ignoreHintKeys token (.failed fault :: rest) s (.error (.keyboard fault), s)
  | answered {rest : List Occurrence} {s s' : State σ} {key : Key}
      (uncalled : summons? token s.watch = none) (typed : key ≠ .interrupt)
      (heard : s.hear listener token (s.event.press ignoreHintKeys key) = (.ok false, s')) :
      Ends listener ignoreHintKeys token (.key key :: rest) s (.ok (), s')
  | refused {rest : List Occurrence} {s s' : State σ} {key : Key} {failure : Failure}
      (uncalled : summons? token s.watch = none) (typed : key ≠ .interrupt)
      (heard : s.hear listener token (s.event.press ignoreHintKeys key) = (.error failure, s')) :
      Ends listener ignoreHintKeys token (.key key :: rest) s (.error failure, s')

/-- After every look there is a last one. -/
theorem Looks.exists_ends {before : List Occurrence} {start : State σ}
    (look : Looks listener ignoreHintKeys token before start occurrences s) :
    ∃ rest s', Looks listener ignoreHintKeys token before start rest s' ∧
      Ends listener ignoreHintKeys token rest s'
        (loop listener ignoreHintKeys token occurrences s) := by
  fun_induction loop listener ignoreHintKeys token occurrences s with
  | case1 s summons calls | case3 occurrence rest s summons calls =>
      exact ⟨_, s, look, .called summons calls⟩
  | case2 s uncalled => exact ⟨_, s, look, .silent uncalled⟩
  | case4 rest s uncalled | case5 rest s uncalled => exact ⟨_, s, look, .interrupted uncalled rfl⟩
  | case6 rest s uncalled key typed s' heard ih => exact ih (look.key uncalled typed heard)
  | case7 rest s uncalled key typed s' heard => exact ⟨_, s, look, .answered uncalled typed heard⟩
  | case8 rest s uncalled key typed failure s' heard =>
      exact ⟨_, s, look, .refused uncalled typed heard⟩
  | case9 rest s uncalled fault => exact ⟨_, s, look, .failed uncalled⟩
  | case10 rest s uncalled => exact ⟨_, s, look, .closed uncalled⟩
  | case11 rest s uncalled nanos ih =>
      exact ih (look.pass (.elapsed nanos) uncalled rfl)
  | case12 rest s uncalled ih => exact ih (look.pass .cancelled uncalled rfl)

/-- A loop that was called off in a state: the listener hears of it, and nothing after it. -/
def CalledOff (summons : Summons) (s : State (List Hearing × σ))
    (ended : Except Failure Unit × State (List Hearing × σ)) : Prop :=
  ended.1 = .error summons.failure ∧
    ∃ goOn, ended.2.own.1 = s.own.1 ++ [⟨summons.event s.event, goOn⟩]

theorem calledOff_finish (s : State (List Hearing × σ)) (summons : Summons) :
    CalledOff summons s (s.finish listener.logged token summons) :=
  ⟨rfl, _, rfl⟩

end

variable {σ : Type} (listener : Listener σ) (ignoreHintKeys : Bool) (token : Token)
  (occurrences : List Occurrence) (watch : Watch) (initial : Text) (own : σ)

/-- The events of a loop agree with its result. Whenever the loop looks at its token, one that is
cancelled calls it off, expired or not, and then one that is expired, whatever is still to occur;
and the loop ends at a look, for one of the reasons there are. -/
theorem events_agree :
    let start : State (List Hearing × σ) := ⟨watch, { value := initial }, ([], own)⟩
    let ended := loop listener.logged ignoreHintKeys token occurrences start
    Agreement ignoreHintKeys { value := initial } occurrences ended.2.own.1 ended.1 ∧
      loop listener ignoreHintKeys token occurrences ⟨watch, { value := initial }, own⟩ =
        (ended.1, ended.2.forget) ∧
      (∀ rest s, Looks listener.logged ignoreHintKeys token occurrences start rest s →
        (token.isCancelled s.watch = true → CalledOff .cancelled s ended) ∧
        (token.isCancelled s.watch = false → token.isExpired s.watch = true →
          CalledOff .timedOut s ended)) ∧
      ∃ rest s, Looks listener.logged ignoreHintKeys token occurrences start rest s ∧
        Ends listener.logged ignoreHintKeys token rest s ended := by
  intro start ended
  refine ⟨?_, loop_forget start, ?_, Looks.first.exists_ends⟩
  · obtain ⟨log, hlog, transcript⟩ : ∃ log, ended.2.own.1 = [] ++ log ∧
        Transcript ignoreHintKeys start.event occurrences log ended.1 := transcript_loop start
    rw [List.nil_append] at hlog
    rw [hlog]
    exact transcript.agreement rfl
  · intro rest s look
    have hended : ended = loop listener.logged ignoreHintKeys token rest s := look.loop_eq
    rw [hended]
    constructor
    · intro cancelled
      have calls : summons? token s.watch = some .cancelled := if_pos cancelled
      rw [loop_of_summons calls]
      exact calledOff_finish s .cancelled
    · intro uncancelled expired
      have calls : summons? token s.watch = some .timedOut := by
        simp [summons?, uncancelled, expired]
      rw [loop_of_summons calls]
      exact calledOff_finish s .timedOut

end Input

end Inlay.Keyboard
