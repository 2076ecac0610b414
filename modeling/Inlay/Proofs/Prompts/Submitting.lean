import Inlay.Proofs.Prompts.Undisturbed

namespace Inlay

open Text Keyboard

namespace Prompt

variable {p : Prompt} {keys : List Key} {key : Key} {event : KeyEvent} {answer : Answer}

theorem MultiSelect.pressKey_goesOn {key : Option Key} (other : key ≠ some .enter)
    (m : MultiSelect) : (m.pressKey key).1 = true := by
  unfold MultiSelect.pressKey
  split
  · rfl
  · rfl
  · split
    · rfl
    · rfl
  · rfl
  · rfl
  · exact absurd rfl other
  · rfl

theorem press_goesOn (calm : event.isCalm = true) (other : event.key ≠ some .enter) (p : Prompt) :
    (p.press event).1 = true := by
  cases p with
  | confirm c =>
      change (c.press event).1 = true
      rw [Confirm.press_of_calm calm]
      dsimp only
      rw [if_neg other]
  | line l =>
      change (l.press event).1 = true
      rw [Line.press_of_calm calm]
      dsimp only
      rw [if_neg other]
  | select s =>
      change (s.press event).1 = true
      rw [Select.press_of_calm calm]
      dsimp only
      rw [if_neg fun h => other h.1]
  | multiSelect m =>
      change (m.press event).1 = true
      rw [MultiSelect.press_of_calm calm]
      exact MultiSelect.pressKey_goesOn other _

theorem key_eventAfter (p : Prompt) (keys : List Key) (key : Key) :
    (p.eventAfter (keys ++ [key])).key = some key := by
  rw [eventAfter_concat]
  exact KeyEvent.key_press ..

theorem edited_enter (p : Prompt) (keys : List Key) :
    (p.eventAfter (keys ++ [.enter])).value = p.edited keys := by
  rw [eventAfter_concat]
  rfl

/-- Only Enter ends an asking. -/
theorem goesOn_of_ne (other : key ≠ .enter) (p : Prompt) (keys : List Key) :
    p.goesOn keys key = true := by
  refine press_goesOn (p.isCalm_eventAfter _) ?_ _
  rw [key_eventAfter]
  exact fun h => other (Option.some.inj h)

/-- A prompt to which nothing was typed yet. -/
abbrev Fresh (p : Prompt) : Prop := p.Keeps false p.inputConfig

theorem keeps_after (fresh : p.Fresh) (keys : List Key) :
    (p.after keys).Keeps true p.inputConfig := by
  induction keys using List.reverseRecOn with
  | nil => exact ⟨fresh.reads, fresh.pictured, nofun⟩
  | append_singleton keys key ih =>
      rw [after_concat]
      exact ih.press nofun

/-- A prompt that was fresh keeps the text as the keys have edited it. -/
theorem kept_after (fresh : p.Fresh) (keys : List Key) :
    (p.after keys).kept = (p.after keys).taken (p.edited keys) := by
  induction keys using List.reverseRecOn with
  | nil => exact (fresh.kept rfl).trans p.taken_initialValue.symm
  | append_singleton keys key ih =>
      rw [after_concat, kept_press (p.isCalm_eventAfter _), taken_press]
      rfl

theorem submits_after (fresh : p.Fresh) (keys : List Key) :
    Submits (p.after keys).offered? ((p.after keys).press (p.eventAfter (keys ++ [.enter]))) := by
  rw [offered?_eq (kept_after fresh keys) (keeps_after fresh keys).pictured, ← edited_enter]
  exact submits_press (p.isCalm_eventAfter _) (p.key_eventAfter keys .enter) _

theorem goesOn_enter (fresh : p.Fresh) (keys : List Key) :
    p.goesOn keys .enter = (p.after keys).offered?.isNone := by
  have hsubmits := submits_after fresh keys
  unfold goesOn
  generalize (p.after keys).offered? = offered at hsubmits ⊢
  generalize (p.after keys).press (p.eventAfter (keys ++ [.enter])) = pressed at hsubmits ⊢
  cases hsubmits with
  | taken | refused => rfl

theorem answer_enter (fresh : p.Fresh) (offered : (p.after keys).offered? = some answer) :
    (p.after (keys ++ [.enter])).answer = .ok answer := by
  have hsubmits := submits_after fresh keys
  rw [after_concat]
  rw [offered] at hsubmits
  generalize (p.after keys).press (p.eventAfter (keys ++ [.enter])) = pressed at hsubmits ⊢
  cases hsubmits with
  | taken answered => exact answered

section

variable {answers : List Key → Answer → Prop}

/-- There is no answer at any Enter among some keys. -/
def Unanswered (answers : List Key → Answer → Prop) (keys : List Key) : Prop :=
  ∀ earlier, earlier ++ [Key.enter] <+: keys → ∀ answer, ¬ answers earlier answer

/-- There is an answer at Enter after some keys, and none at any Enter among those. -/
structure FirstAnswered (answers : List Key → Answer → Prop) (keys : List Key) (answer : Answer) :
    Prop where
  typed : Key.interrupt ∉ keys
  answered : answers keys answer
  first : Unanswered answers keys

theorem unanswered_nil (answers : List Key → Answer → Prop) : Unanswered answers [] := by
  intro earlier h
  exact absurd (List.prefix_nil.mp h) (List.concat_ne_nil Key.enter earlier)

theorem Unanswered.concat (h : Unanswered answers keys)
    (last : key = .enter → ∀ answer, ¬ answers keys answer) :
    Unanswered answers (keys ++ [key]) := by
  intro earlier hearlier
  rcases List.prefix_concat_iff.mp hearlier with heq | hkeys
  · obtain ⟨rfl, henter⟩ := List.append_inj' heq rfl
    exact last (List.singleton_inj.mp henter).symm
  · exact h earlier hkeys

theorem Unanswered.concat_of_ne (h : Unanswered answers keys) (other : key ≠ .enter) :
    Unanswered answers (keys ++ [key]) :=
  h.concat fun enter => absurd enter other

/-- A prompt with an answer for the keys of an asking, which it offers once they were typed. -/
def Gives (answers : List Key → Answer → Prop) (p : Prompt) : Prop :=
  ∀ keys answer, (p.after keys).offered? = some answer ↔ answers keys answer

theorem Gives.offered?_eq_none_iff (gives : p.Gives answers) (keys : List Key) :
    (p.after keys).offered? = none ↔ ∀ answer, ¬ answers keys answer := by
  simp only [Option.eq_none_iff_forall_ne_some, ne_eq, gives keys]

variable (fresh : p.Fresh) (gives : p.Gives answers)
include fresh gives

theorem goesOn_of_unanswered (unanswered : Unanswered answers (keys ++ [key])) :
    p.goesOn keys key = true := by
  rcases eq_or_ne key .enter with rfl | other
  · rw [goesOn_enter fresh, Option.isNone_iff_eq_none, gives.offered?_eq_none_iff]
    exact unanswered keys (List.prefix_refl _)
  · exact goesOn_of_ne other p keys

/-- A prompt that was not answered stays in its phase. -/
theorem phase_of_unanswered (unanswered : Unanswered answers keys) :
    (p.after keys).phase = p.phase :=
  p.phase_after keys fun _ _ h =>
    goesOn_of_unanswered fresh gives fun before h' => unanswered before (h'.trans h)

theorem enough_iff :
    Enough p.goesOn keys key ↔ key = .enter ∧ ∃ answer, FirstAnswered answers keys answer := by
  constructor
  · rintro ⟨typed, wentOn, enough⟩
    have hkey : key = .enter := by
      by_contra other
      rw [goesOn_of_ne other] at enough
      cases enough
    obtain rfl := hkey
    rw [goesOn_enter fresh, Option.isNone_eq_false_iff] at enough
    obtain ⟨answer, offered⟩ := Option.isSome_iff_exists.mp enough
    refine ⟨rfl, answer, fun h => typed (List.mem_append_left _ h), (gives keys answer).mp offered,
      fun earlier h => ?_⟩
    have hgoes := wentOn earlier .enter h
    rw [goesOn_enter fresh, Option.isNone_iff_eq_none] at hgoes
    exact (gives.offered?_eq_none_iff earlier).mp hgoes
  · rintro ⟨rfl, answer, typed, answered, first⟩
    refine ⟨by simpa using typed, fun earlier k h => ?_, ?_⟩
    · exact goesOn_of_unanswered fresh gives fun before h' => first before (h'.trans h)
    · rw [goesOn_enter fresh, (gives keys answer).mpr answered]
      rfl

end

end Prompt

theorem Dialog.fresh_asked {d : Dialog} (fresh : d.prompt.Fresh) : d.asked.Fresh := by
  have opened := fresh.withPhase .interacting
  rw [← d.inputConfig_asked] at opened
  exact opened

namespace Scene

/-- What askings come to, whatever they are disturbed by. Where there is an answer, it is the first
for the keys that were typed, and what the asking leaves is the scene that those keys lead to,
cleaned up. Where nothing disturbs, there is that answer. -/
structure GivesFirst (s : Scene) (w : Nat) (d : Dialog)
    (answers : List Key → Prompt.Answer → Prop) : Prop where
  given : ∀ token amid answer, (s.ask w token amid).1 = .ok answer → ∃ keys,
    keys ++ [.enter] <+: (amid d.reader.load.read.1).filterMap Occurrence.key? ∧
      Prompt.FirstAnswered answers keys answer ∧
      s.EndsAfter w d (keys ++ [.enter]) (s.ask w token amid).2
  gives : ∀ token amid keys rest answer, s.Undisturbed d token →
    amid d.reader.load.read.1 = keys.map Occurrence.key ++ .key .enter :: rest →
    Prompt.FirstAnswered answers keys answer → (s.ask w token amid).1 = .ok answer

variable {w : Nat} {s : Scene} {d : Dialog} {answers : List Key → Prompt.Answer → Prop}
  (h : s.dialog? w = some d) (fresh : d.prompt.Fresh) (gives : d.asked.Gives answers)
include h fresh gives

/-- The answer of an asking is the one that there is at the first Enter with one. -/
theorem answered_of_ask {token : Token} {amid : List Occurrence → List Occurrence}
    {answer : Prompt.Answer} (answered : (s.ask w token amid).1 = .ok answer) : ∃ keys,
      keys ++ [.enter] <+: (amid d.reader.load.read.1).filterMap Occurrence.key? ∧
        Prompt.FirstAnswered answers keys answer ∧
        s.EndsAfter w d (keys ++ [.enter]) (s.ask w token amid).2 := by
  have asked := Dialog.fresh_asked fresh
  obtain ⟨keys, key, hkeys, enough, hanswer, ends⟩ := enough_of_ask h answered
  obtain ⟨rfl, answer', first⟩ := (Prompt.enough_iff asked gives).mp enough
  have offered := (gives keys answer').mpr first.answered
  obtain rfl := Except.ok.inj ((Prompt.answer_enter asked offered).symm.trans hanswer)
  exact ⟨keys, hkeys, first, ends⟩

/-- Askings of a fresh prompt give the first of its answers. -/
theorem givesFirst : s.GivesFirst w d answers := by
  have asked := Dialog.fresh_asked fresh
  refine ⟨fun token amid answer answered => answered_of_ask h fresh gives answered,
    fun token amid keys rest answer undisturbed occurs first => ?_⟩
  have enough := (Prompt.enough_iff asked gives).mpr ⟨rfl, answer, first⟩
  have offered := (gives keys answer).mpr first.answered
  rw [ask_of_enough h occurs enough undisturbed, Prompt.answer_enter asked offered]

end Scene

end Inlay
