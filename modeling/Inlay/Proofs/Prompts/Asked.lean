import Inlay.Proofs.Prompts.Calm
import Inlay.Proofs.Prompts.Sharing

namespace Inlay

open Text Keyboard

namespace Prompt

variable {q : Char → Prop}

theorem madeOf_withPhase {p : Prompt} (h : p.MadeOf q) (phase : Phase) :
    (p.withPhase phase).MadeOf q := by
  cases p with
  | confirm c => exact ⟨h.message, h.help, h.hint, h.value⟩
  | line l =>
      exact ⟨h.message, h.placeholder, h.help, h.hint, h.value, h.error, h.objection⟩
  | select s => exact ⟨h.message, h.help, h.list⟩
  | multiSelect m => exact ⟨h.message, h.help, h.list⟩

theorem hidesCursor_withPhase (p : Prompt) (phase : Phase) :
    (p.withPhase phase).hidesCursor = p.hidesCursor := by
  cases p with
  | confirm c | line l | select s | multiSelect m => rfl

theorem Select.filtering_press (s : Select) (event : KeyEvent) :
    (s.press event).2.filtering = s.filtering := by
  unfold Select.press
  split
  · rfl
  split
  · rfl
  dsimp only
  generalize (if s.filtering then s.list.setFilter event.value else s.list) = list
  split
  · rfl
  · rfl

theorem MultiSelect.filtering_pressKey (m : MultiSelect) (key : Option Key) :
    (m.pressKey key).2.filtering = m.filtering := by
  obtain ⟨submitted, phase, hpressed⟩ := m.snd_pressKey key
  rw [hpressed]

theorem MultiSelect.filtering_press (m : MultiSelect) (event : KeyEvent) :
    (m.press event).2.filtering = m.filtering := by
  unfold MultiSelect.press
  split
  · rfl
  split
  · rfl
  · exact MultiSelect.filtering_pressKey _ event.key

theorem hidesCursor_press (p : Prompt) (event : KeyEvent) :
    (p.press event).2.hidesCursor = p.hidesCursor := by
  cases p with
  | confirm c | line l => rfl
  | select s => exact congrArg not (s.filtering_press event)
  | multiSelect m => exact congrArg not (m.filtering_press event)

end Prompt

namespace Text

theorem Cluster.dropFirstBackwards_isSuffix (back : Text) : dropFirstBackwards back <:+ back := by
  fun_induction dropFirstBackwards back with
  | case1 => exact List.suffix_refl _
  | case2 c => exact List.nil_suffix
  | case3 c previous before ends => exact List.suffix_cons _ _
  | case4 c previous before joined ih => exact ih.trans (List.suffix_cons _ _)

/-- All that is used of the borders between clusters. -/
theorem Cluster.dropLast_isPrefix (text : Text) : dropLast text <+: text := by
  have hbackwards := dropFirstBackwards_isSuffix text.reverse
  rwa [← List.reverse_prefix, List.reverse_reverse] at hbackwards

theorem MadeOf.clusters {q : Char → Prop} {text : Text} (h : text.MadeOf q) :
    (Cluster.dropLast text).MadeOf q := by
  intro c hc
  exact h c ((Cluster.dropLast_isPrefix text).mem hc)

end Text

namespace Keyboard.KeyEvent

variable {q : Char → Prop} {event : KeyEvent}

theorem madeOf_press (h : event.value.MadeOf q) (ignoreHintKeys : Bool) {key : Key}
    (typed : ∀ c, key = .char c → q c) : (event.press ignoreHintKeys key).value.MadeOf q := by
  unfold press
  cases key with
  | char c =>
      dsimp only
      split
      · exact h
      · exact h.append (List.forall_mem_singleton.mpr (typed c rfl))
  | backspace => exact h.clusters
  | _ => exact h

end Keyboard.KeyEvent

theorem Keyboard.Summons.madeOf_event {q : Char → Prop} {event : KeyEvent} (summons : Summons)
    (h : event.value.MadeOf q) : (summons.event event).value.MadeOf q := by
  cases summons with
  | cancelled => exact h
  | timedOut => exact h

namespace Scene

variable {s s' start : Scene} {c : CanvasRef} {w : Nat} {ws : List Nat} {shown : List Prompt}

theorem dialog?_modifyDialog_of_ne (s : Scene) {w w' : Nat} (h : w' ≠ w) (f : Dialog → Dialog) :
    (s.modifyDialog w f).dialog? w' = s.dialog? w' := by
  unfold modifyDialog
  split
  · unfold dialog? setWidget
    rw [Array.getElem?_setIfInBounds_ne h.symm]
  · rfl

/-- Whoever has the focus may draw. -/
theorem canUpdate_focus (s : Scene) (c : CanvasRef) :
    (s.focus c).2.canUpdate ((s.focus c).2.managerOf c) c = true := by
  refine ((sameStanding_eraseAll _ _).canUpdate c).trans ?_
  unfold canUpdate
  change Option.all _ ((s.modifyManager (s.managerOf c) _).focused (s.managerOf c)) = true
  rw [focused_modifyManager, if_pos rfl]
  cases s.managers[s.managerOf c]? with
  | none => rfl
  | some manager => exact decide_eq_true rfl

/-- No prompt but the last places the cursor, be it that it is finished and not asked again, or that
it is a list that is shown without the cursor. -/
def LeavesCursor (s : Scene) (w : Nat) (ws : List Nat) : Prop :=
  ∀ w' ∈ ws.dropLast, ∀ d, s.dialog? w' = some d →
    d.prompt.hidesCursor = true ∨ w' ≠ w ∧ d.prompt.phase.isFinished = true

theorem promptsOn_dropLast (h : s.ArePrompts ws) :
    (s.promptsOn ws).dropLast = s.promptsOn ws.dropLast := by
  induction ws with
  | nil => rfl
  | cons w rest ih =>
      obtain ⟨⟨d, hd, -⟩, hrest⟩ := List.forall_mem_cons.mp h
      cases rest with
      | nil =>
          rw [promptsOn_cons hd]
          rfl
      | cons next rest =>
          obtain ⟨⟨d', hd', -⟩, -⟩ := List.forall_mem_cons.mp hrest
          rw [List.dropLast_cons_cons, promptsOn_cons hd, promptsOn_cons hd, ← ih hrest,
            promptsOn_cons hd', List.dropLast_cons_cons]

theorem LeavesCursor.drawsResting (h : s.LeavesCursor w ws) (prompts : s.ArePrompts ws)
    (call : DrawCall) : s.DrawsResting ws call := by
  have rests : ∀ p ∈ (s.promptsOn ws).dropLast, p.placesCursor = false := by
    intro p hp
    rw [promptsOn_dropLast prompts] at hp
    obtain ⟨w', hw', hprompt⟩ := List.mem_filterMap.mp hp
    obtain ⟨d, hd, rfl⟩ := Option.map_eq_some_iff.mp hprompt
    rcases h w' hw' d hd with hidden | ⟨-, finished⟩
    · simp [Prompt.placesCursor, hidden]
    · simp [Prompt.placesCursor, finished]
  cases call with
  | run | update => exact rests
  | clear => trivial

/-- A scene in the middle of the asking of `w`. -/
structure Amid (c : CanvasRef) (ws : List Nat) (start : Scene) (w : Nat) (s : Scene) : Prop where
  sharing : ∃ shown, Sharing c ws start s shown
  allowed : s.canUpdate (s.managerOf c) c = true
  prompts : s.ArePrompts ws
  leaves : s.LeavesCursor w ws

namespace Amid

theorem beside (h : Amid c ws start w s) (beside : Beside c ws s s')
    (leaves : s'.LeavesCursor w ws) : Amid c ws start w s' := by
  obtain ⟨shown, sharing⟩ := h.sharing
  exact ⟨⟨shown, sharing.meanwhile beside⟩, beside.allowed, beside.prompts, leaves⟩

theorem leaves_of_widgets (h : Amid c ws start w s) (hwidgets : s'.widgets = s.widgets) :
    s'.LeavesCursor w ws := by
  intro w' hw' d hd
  rw [dialog?_of_widgets hwidgets] at hd
  exact h.leaves w' hw' d hd

/-- A change beside the widgets. -/
theorem aside (h : Amid c ws start w s) (hwidgets : s'.widgets = s.widgets)
    (henv : s'.env = s.env) (hallowed : s'.canUpdate (s'.managerOf c) c = true)
    (hcanvas : s'.canvases[c]? = s.canvases[c]?) : Amid c ws start w s' :=
  h.beside ⟨henv, hallowed, hcanvas, arePrompts_of_widgets hwidgets h.prompts⟩
    (h.leaves_of_widgets hwidgets)

/-- A step of the sharing that leaves the widgets alone. -/
theorem drawn (h : Amid c ws start w s) (sharing : Sharing c ws start s' shown)
    (same : SameStanding s s') (hwidgets : s'.widgets = s.widgets) : Amid c ws start w s' :=
  ⟨⟨shown, sharing⟩, (same.canUpdate c).trans h.allowed, arePrompts_of_widgets hwidgets h.prompts,
    h.leaves_of_widgets hwidgets⟩

theorem draw (h : Amid c ws start w s) (call : DrawCall) :
    Amid c ws start w (s.draw c call).2 := by
  obtain ⟨shown, sharing⟩ := h.sharing
  exact h.drawn (sharing.draw call (h.leaves.drawsResting h.prompts call))
    (sameStanding_draw s c call) (widgets_draw s c call)

theorem hideCursor (h : Amid c ws start w s) : Amid c ws start w (s.hideCursor c).2 := by
  obtain ⟨shown, sharing⟩ := h.sharing
  exact h.drawn sharing.hideCursor (sameStanding_writeSequence s c _) (widgets_writeSequence s c _)

theorem showCursor (h : Amid c ws start w s) : Amid c ws start w (s.showCursor c).2 := by
  obtain ⟨shown, sharing⟩ := h.sharing
  exact h.drawn sharing.showCursor (sameStanding_writeSequence s c _) (widgets_writeSequence s c _)

/-- The prompt that is asked may change, as long as its texts are plain and a list without the
cursor stays one. -/
theorem modifyDialog (h : Amid c ws start w s) {f : Dialog → Dialog}
    (plain : ∀ d, s.dialog? w = some d → d.prompt.MadeOf Plain → (f d).prompt.MadeOf Plain)
    (hides : ∀ d, s.dialog? w = some d → (f d).prompt.hidesCursor = d.prompt.hidesCursor) :
    Amid c ws start w (s.modifyDialog w f) := by
  have hsame := sameStanding_modifyDialog s w f
  refine h.beside ⟨hsame.env, (hsame.canUpdate c).trans h.allowed, ?_, ?_⟩ ?_
  · rw [canvases_modifyDialog]
  · intro w' hw'
    obtain ⟨d, hd, hplain⟩ := h.prompts w' hw'
    rcases eq_or_ne w' w with rfl | hne
    · exact ⟨f d, dialog?_modifyDialog hd f, plain d hd hplain⟩
    · exact ⟨d, (dialog?_modifyDialog_of_ne s hne f).trans hd, hplain⟩
  · intro w' hw' d' hd'
    rcases eq_or_ne w' w with rfl | hne
    · obtain ⟨d, hd, -⟩ := h.prompts w' ((List.dropLast_sublist _).mem hw')
      rw [dialog?_modifyDialog hd f, Option.some.injEq] at hd'
      have hidden := (h.leaves w' hw' d hd).resolve_right fun asked => asked.1 rfl
      exact Or.inl (hd' ▸ (hides d hd).trans hidden)
    · rw [dialog?_modifyDialog_of_ne s hne f] at hd'
      exact h.leaves w' hw' d' hd'

theorem follow (h : Amid c ws start w s) {event : KeyEvent} (plain : event.value.MadeOf Plain) :
    Amid c ws start w (promptListener w c event s).2 := by
  unfold promptListener
  split
  · exact h
  · rename_i d hd
    have followed : Amid c ws start w
        (s.modifyDialog w fun d' => { d' with prompt := (d.prompt.press event).2 }) := by
      refine h.modifyDialog (fun d' hd' hplain => ?_) fun d' hd' => ?_
      · rw [hd, Option.some.injEq] at hd'
        rw [← hd'] at hplain
        exact Prompt.madeOf_press (fun _ h => h) hplain plain
      · rw [hd, Option.some.injEq] at hd'
        rw [← hd']
        exact d.prompt.hidesCursor_press event
    exact followed.draw .update

/-- The characters that are typed are plain. -/
def TypesPlain (amid : List Occurrence → List Occurrence) (kb : Keyboard) : Prop :=
  ∀ c, Occurrence.key (.char c) ∈ amid kb.read.1 → Plain c

theorem readKeys (i : Interaction) (amid : List Occurrence → List Occurrence) (token : Token)
    {kb : Keyboard} (typed : TypesPlain amid kb) (initial : i.config.initialValue.MadeOf Plain)
    (h : Amid i.canvas ws start i.widget s) :
    Amid i.canvas ws start i.widget (i.readKeys amid token (kb, s)).2.2 := by
  have step : ∀ (event : KeyEvent) (s : Scene), event.value.MadeOf Plain →
      Amid i.canvas ws start i.widget s →
      Amid i.canvas ws start i.widget (promptListener i.widget i.canvas event s).2 :=
    fun _ _ plain h => h.follow plain
  have heard := own_listenAmid_of
    (R := fun s s' => Amid i.canvas ws start i.widget s → Amid i.canvas ws start i.widget s')
    (Q := fun event => event.value.MadeOf Plain) kb i.config amid token s.watch s
    (fun _ h => h) (fun first second h => second (first h)) step
    (fun _ summons plain => summons.madeOf_event plain)
    (fun event key hkey plain =>
      event.madeOf_press plain _ fun c hc => typed c (hc ▸ hkey))
    initial h
  exact heard.aside rfl rfl heard.allowed rfl

theorem attempt (i : Interaction) (amid : List Occurrence → List Occurrence) (token : Token)
    {kb : Keyboard} (typed : TypesPlain amid kb) (initial : i.config.initialValue.MadeOf Plain)
    (h : Amid i.canvas ws start i.widget s) :
    Amid i.canvas ws start i.widget (i.attempt amid token kb s).2.2 := by
  have hidden : Amid i.canvas ws start i.widget
      (if i.hidesCursor then s.hideCursor i.canvas else (.ok (), s)).2 := by
    split
    · exact h.hideCursor
    · exact h
  rw [Interaction.attempt]
  dsimp only
  split
  · exact hidden
  · generalize (if i.hidesCursor then s.hideCursor i.canvas else (.ok (), s)).2 = s₁ at hidden
    have ran : Amid i.canvas ws start i.widget (s₁.run i.canvas).2 := hidden.draw .run
    split
    · rename_i failure s₂ hrun
      rw [hrun] at ran
      exact ran
    · rename_i s₂ hrun
      rw [hrun] at ran
      have step : ∀ token (before : Keyboard × Scene), TypesPlain amid before.1 →
          Amid i.canvas ws start i.widget before.2 →
          Amid i.canvas ws start i.widget (i.readKeys amid token before).2.2 :=
        fun token _ typed h => readKeys i amid token typed initial h
      have asked := token.state_askWithin
        (R := fun before after => TypesPlain amid before.1 →
          Amid i.canvas ws start i.widget before.2 → Amid i.canvas ws start i.widget after.2)
        (fun _ _ h => h) step i.limit s₂.watch.now (kb, s₂) typed ran
      split
      · rename_i failure kb' s₃ hasked
        rw [hasked] at asked
        exact asked
      · rename_i kb' s₃ hasked
        rw [hasked] at asked
        split
        · exact asked.draw .clear
        · exact asked

theorem focus (h : Amid c ws start w s) : Amid c ws start w (s.focus c).2 := by
  exact h.aside (widgets_eraseAll _ _) (evolves_focus s c).env (canUpdate_focus s c)
    (canvases_focus_self s c)

theorem release (h : Amid c ws start w s) (guard : FocusGuard) :
    Amid c ws start w (s.release guard) := by
  refine h.aside rfl rfl ?_ rfl
  have hallowed := h.allowed
  unfold canUpdate at hallowed ⊢
  change ((s.release guard).focused (s.managerOf c)).all (· = s.numberOf c) = true
  rcases focused_release s guard (s.managerOf c) with heq | heq
  · rw [heq]
    exact hallowed
  · rw [heq]
    rfl

theorem cleanUp (i : Interaction) (guard : FocusGuard) (kb : Keyboard)
    (h : Amid i.canvas ws start i.widget s) :
    Amid i.canvas ws start i.widget (s.cleanUp i false guard kb) := by
  have shown : Amid i.canvas ws start i.widget (s.cursorShown i) := by
    unfold cursorShown
    split
    · exact h.showCursor
    · exact h
  have returned (d : Dialog) : (d.returnKeyboard kb).prompt = d.prompt := by
    unfold Dialog.returnKeyboard
    split
    · split
      · rfl
      · rfl
    · rfl
  have handed := shown.modifyDialog (f := fun d => d.returnKeyboard kb)
    (fun d _ hplain => (returned d).symm ▸ hplain)
    (fun d _ => congrArg Prompt.hidesCursor (returned d))
  exact handed.release guard

end Amid

/-- Asking a prompt on a shared canvas draws it as its sharing allows. -/
theorem sharing_ask {d : Dialog} (sharing : Sharing c ws start s shown)
    (allowed : s.canUpdate (s.managerOf c) c = true) (prompts : s.ArePrompts ws)
    (leaves : s.LeavesCursor w ws) (hd : s.dialog? w = some d) (slot : d.slot = .shared c)
    (initial : d.prompt.inputConfig.initialValue.MadeOf Plain) (token : Token)
    {amid : List Occurrence → List Occurrence} (typed : Amid.TypesPlain amid d.reader.load) :
    ∃ shown', Sharing c ws start (s.ask w token amid).2 shown' := by
  have h : Amid c ws start w s := ⟨⟨shown, sharing⟩, allowed, prompts, leaves⟩
  have opened := h.modifyDialog
    (f := fun d => { d with prompt := d.prompt.withPhase .interacting })
    (fun d _ hplain => Prompt.madeOf_withPhase hplain _)
    (fun d _ => d.prompt.hidesCursor_withPhase _)
  have focused := opened.focus
  rw [ask_snd hd, askDialog, openDialog_of_shared slot]
  exact (Amid.attempt (.ofDialog w c d _) amid token typed initial focused).cleanUp _ _ _ |>.sharing

end Scene

end Inlay
