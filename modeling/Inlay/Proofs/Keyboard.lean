import Inlay.Keyboard

namespace Inlay.Keyboard

/-- The raw mode of a source after a reading: it was not entered, or it was entered once and left
once. -/
inductive Balanced (before after : Source) : Prop where
  | untouched (entered : after.entered = before.entered) (left : after.left = before.left)
      (rawMode : after.rawMode = before.rawMode)
  | paired (entered : after.entered = before.entered + 1) (left : after.left = before.left + 1)
      (rawMode : after.rawMode = false)

namespace Source

structure SameMode (before after : Source) : Prop where
  entered : after.entered = before.entered
  left : after.left = before.left
  rawMode : after.rawMode = before.rawMode

theorem SameMode.trans {a b c : Source} (h : SameMode a b) (h' : SameMode b c) : SameMode a c :=
  ⟨h'.entered.trans h.entered, h'.left.trans h.left, h'.rawMode.trans h.rawMode⟩

end Source

namespace Reader

open Source

end Reader

section

variable {σ : Type} {R : σ → σ → Prop} {listener : Listener σ}

/-- What every answer of the listener to an event of some kind does to its state, a whole loop does
that has no other events. -/
theorem Input.own_loop_of {Q : KeyEvent → Prop} (refl : ∀ own, R own own)
    (trans : ∀ {own own' own''}, R own own' → R own' own'' → R own own'')
    (step : ∀ event own, Q event → R own (listener event own).2) (ignoreHintKeys : Bool)
    (token : Token) (called : ∀ event (summons : Summons), Q event → Q (summons.event event))
    (occurrences : List Occurrence)
    (pressed : ∀ event key, Occurrence.key key ∈ occurrences → Q event →
      Q (event.press ignoreHintKeys key))
    (s : Input.State σ) (start : Q s.event) :
    R s.own (Input.loop listener ignoreHintKeys token occurrences s).2.own := by
  induction occurrences generalizing s with
  | nil =>
      rw [Input.loop]
      split
      · exact step _ _ (called _ _ start)
      · exact refl _
  | cons occurrence rest ih =>
      have ih' := ih fun event key hkey => pressed event key (List.mem_cons_of_mem _ hkey)
      unfold Input.loop
      split
      · exact step _ _ (called _ _ start)
      · split
        · exact step _ _ (called _ _ start)
        · exact step _ _ (called _ _ start)
        · rename_i key hkey
          have typed := pressed s.event key List.mem_cons_self start
          have heard := step (s.event.press ignoreHintKeys key) s.own typed
          split
          · rename_i s' hs'
            have hown : s'.own = (listener (s.event.press ignoreHintKeys key) s.own).2 :=
              congrArg (fun r => r.2.own) hs'.symm
            have hevent : s'.event = s.event.press ignoreHintKeys key :=
              congrArg (fun r => r.2.event) hs'.symm
            rw [← hown] at heard
            rw [← hevent] at typed
            exact trans heard (ih' s' typed)
          · rename_i s' hs'
            exact congrArg (fun r => r.2.own) hs' ▸ heard
          · rename_i failure s' hs'
            exact congrArg (fun r => r.2.own) hs' ▸ heard
        · exact refl _
        · exact refl _
        · rename_i nanos
          exact ih' { s with watch := s.watch.advance nanos } start
        · exact ih' { s with watch := s.watch.cancel token } start

/-- A silent source brings no keys. -/
theorem Input.key_notMem_awaited (ending : Ending) (token : Token) (watch : Watch) (key : Key) :
    Occurrence.key key ∉ Input.awaited ending token watch := by
  unfold Input.awaited
  split
  · simp
  · exact List.not_mem_nil

variable (kb : Keyboard) (config : InputConfig) (amid : List Occurrence → List Occurrence)
  (token : Token) (watch : Watch) (own : σ)

theorem own_listenAmid_of {Q : KeyEvent → Prop} (refl : ∀ own, R own own)
    (trans : ∀ {own own' own''}, R own own' → R own' own'' → R own own'')
    (step : ∀ event own, Q event → R own (listener event own).2)
    (called : ∀ event (summons : Summons), Q event → Q (summons.event event))
    (pressed : ∀ event key, Occurrence.key key ∈ amid kb.read.1 → Q event →
      Q (event.press config.ignoreHintKeys key))
    (start : Q { value := config.initialValue }) :
    R own (kb.listenAmid config amid token listener watch own).2.2.own := by
  rw [listenAmid]
  split
  · exact refl own
  dsimp only
  split
  · exact refl own
  · refine Input.own_loop_of refl trans step config.ignoreHintKeys token called
      (amid kb.read.1 ++ Input.awaited kb.source.script.ending token watch)
      (fun event key hkey => ?_) ⟨watch, { value := config.initialValue }, own⟩ start
    rcases List.mem_append.mp hkey with hkey | hkey
    · exact pressed event key hkey
    · exact absurd hkey (Input.key_notMem_awaited _ token watch key)

theorem own_listenAmid (refl : ∀ own, R own own)
    (trans : ∀ {own own' own''}, R own own' → R own' own'' → R own own'')
    (step : ∀ event own, R own (listener event own).2) :
    R own (kb.listenAmid config amid token listener watch own).2.2.own :=
  own_listenAmid_of kb config amid token watch own refl trans (Q := fun _ => True)
    (fun event own _ => step event own) (fun _ _ _ => trivial) (fun _ _ _ _ => trivial) trivial

/-- A keyboard comes out of a reading as it went in, if it is lost, or else as its reader left
it. -/
theorem keyboard_listenAmid (listener : Listener σ) :
    (kb.listenAmid config amid token listener watch own).2.1 =
      if kb.lost then kb else kb.read.2 := by
  rw [listenAmid]
  split
  · rfl
  dsimp only
  split
  · rfl
  · rfl

end

/-- A keyboard that comes back from a reading of its next script. -/
structure Returned (before after : Keyboard) : Prop where
  scripts : after.scripts = before.scripts.tail
  otherwise : after.otherwise = before.otherwise
  balanced : Balanced before.source after.source
  lost : after.lost = true → Reader.losesSource (before.scripts.headD before.otherwise) = true

end Inlay.Keyboard
