import Inlay.Proofs.Scene.Registers
import Inlay.Proofs.Screen.Texts
import Inlay.Proofs.Threads.Alone

namespace Inlay

theorem Canvas.eraseUnlessClosed_of_printer {c : Canvas} {p : Printer} (hopen : c.closed = false)
    (hprinter : c.printer = some p) : c.eraseUnlessClosed = c.flush p.clear := by
  rw [eraseUnlessClosed, hopen, if_neg Bool.false_ne_true, erase, hprinter]

namespace Scene

variable {s : Scene} {c o : CanvasRef}

/-- The printer of a canvas, if it was made. -/
def printer? (s : Scene) (c : CanvasRef) : Option Printer :=
  s.canvases[c]?.bind fun e => e.canvas.printer

/-- The canvases whose frames make way when `c` gets the focus. -/
def displaced (s : Scene) (c : CanvasRef) : List CanvasRef :=
  (s.entries (s.managerOf c)).filter fun o =>
    o ≠ c && s.isAlive o && !s.isClosed o && (s.printer? o).isSome

theorem exists_of_mem_displaced (h : o ∈ s.displaced c) : ∃ e p,
    s.canvases[o]? = some e ∧ e.canvas.closed = false ∧ e.canvas.printer = some p := by
  have hfacts := (List.mem_filter.mp h).2
  simp only [Bool.and_eq_true, Bool.not_eq_true'] at hfacts
  obtain ⟨⟨-, hopen⟩, hmade⟩ := hfacts
  obtain ⟨p, hp⟩ := Option.isSome_iff_exists.mp hmade
  obtain ⟨e, he, hprinter⟩ := Option.bind_eq_some_iff.mp hp
  rw [isClosed_of_getElem? he] at hopen
  exact ⟨e, p, he, hopen, hprinter⟩

/-- A scene in which `c` has the focus and nothing is erased yet. -/
def withFocusOn (s : Scene) (c : CanvasRef) : Scene :=
  s.modifyManager (s.managerOf c) fun manager => { manager with focused := some (s.numberOf c) }

theorem focus_snd (s : Scene) (c : CanvasRef) :
    (s.focus c).2 = (s.withFocusOn c).eraseAll ((s.withFocusOn c).others (s.managerOf c) c) :=
  rfl

theorem others_withFocusOn (s : Scene) (c : CanvasRef) (m : ManagerRef) :
    (s.withFocusOn c).others m c = s.others m c :=
  congrArg (List.filter _) (entries_modifyManager s _ m fun _ => rfl)

/-- Whether erasing leaves a canvas as it is. -/
def Spared (s : Scene) (c : CanvasRef) : Prop :=
  ∀ e, s.canvases[c]? = some e → e.canvas.eraseUnlessClosed.2 = e.canvas

theorem spared_of_closed (h : s.isClosed c = true) : s.Spared c := by
  intro e he
  rw [isClosed_of_getElem? he] at h
  rw [Canvas.eraseUnlessClosed_of_closed h]

theorem spared_of_unmade (h : s.printer? c = none) : s.Spared c := by
  intro e he
  rw [printer?, he, Option.bind_some] at h
  rw [Canvas.eraseUnlessClosed, Canvas.erase, h, ite_self]

theorem canvases_eraseUnlessClosed_of_ne (hne : o ≠ c) :
    (s.eraseUnlessClosed c).2.canvases[o]? = s.canvases[o]? := by
  rw [eraseUnlessClosed_snd, canvases_modifyCanvas_of_ne hne]

theorem canvases_eraseUnlessClosed_self {e : CanvasEntry} (he : s.canvases[c]? = some e) :
    (s.eraseUnlessClosed c).2.canvases[c]? =
      some { e with canvas := e.canvas.eraseUnlessClosed.2 } := by
  rw [eraseUnlessClosed_snd, canvases_modifyCanvas_self he]

theorem Spared.eraseUnlessClosed (h : s.Spared c) : (s.eraseUnlessClosed c).2 = s := by
  have hcanvases : (s.canvases.modify c fun e =>
      { e with canvas := e.canvas.eraseUnlessClosed.2 }) = s.canvases := by
    apply Array.ext_getElem?
    intro i
    rw [Array.getElem?_modify]
    split
    · rename_i heq
      subst heq
      cases he : s.canvases[c]? with
      | none => rfl
      | some e => rw [Option.map_some, h e he]
    · rfl
  rw [eraseUnlessClosed_snd, modifyCanvas, modifyEntry, hcanvases]

/-- Canvases that erasing leaves as they are can be left out. -/
theorem eraseAll_filter {cs : List CanvasRef} {p : CanvasRef → Bool}
    (h : ∀ o ∈ cs, p o = false → s.Spared o) : s.eraseAll cs = s.eraseAll (cs.filter p) := by
  induction cs generalizing s with
  | nil => rfl
  | cons o rest ih =>
      rw [List.forall_mem_cons] at h
      obtain ⟨hfirst, hrest⟩ := h
      cases hp : p o with
      | false =>
          rw [List.filter_cons_of_neg (by simp [hp]), eraseAll, (hfirst hp).eraseUnlessClosed]
          exact ih hrest
      | true =>
          rw [List.filter_cons_of_pos hp, eraseAll, eraseAll]
          -- the canvas erased is none of those left out, so these are as they were
          refine ih fun o' ho' hspared => ?_
          have hne : o' ≠ o := by
            rintro rfl
            rw [hp] at hspared
            cases hspared
          intro e he
          rw [canvases_eraseUnlessClosed_of_ne hne] at he
          exact hrest o' ho' hspared e he

/-- A canvas is erased once, whatever is erased before and after it. -/
theorem canvases_eraseAll_of_mem {cs : List CanvasRef} (nodup : cs.Nodup) (hmem : o ∈ cs)
    {e : CanvasEntry} (he : s.canvases[o]? = some e) :
    (s.eraseAll cs).canvases[o]? = some { e with canvas := e.canvas.eraseUnlessClosed.2 } := by
  induction cs generalizing s with
  | nil => cases hmem
  | cons o' rest ih =>
      rw [List.nodup_cons] at nodup
      rw [eraseAll]
      by_cases heq : o = o'
      · subst heq
        rw [canvases_eraseAll_of_notMem nodup.1, canvases_eraseUnlessClosed_self he]
      · refine ih nodup.2 ((List.mem_cons.mp hmem).resolve_left heq) ?_
        rw [canvases_eraseUnlessClosed_of_ne heq, he]

theorem belongs_managerOf (here : c < s.canvases.size) : s.Belongs c (s.managerOf c) := by
  obtain ⟨identity, hidentity⟩ := Option.isSome_iff_exists.mp (lt_size_iff.mp here)
  refine ⟨identity.2, ?_⟩
  rw [managerOf_eq_identity, hidentity]
  rfl

/-- A number tells a canvas from those registered with it, and from those of its manager. -/
theorem Orderly.eq_of_numberOf (orderly : s.Orderly) (here : c < s.canvases.size)
    (apart : c ∈ s.entries (s.managerOf c) ∨ ∀ o ∈ s.entries (s.managerOf c),
      s.Belongs o (s.managerOf c) ∨ s.numberOf o ≠ s.numberOf c)
    (ho : o ∈ s.entries (s.managerOf c)) (same : s.numberOf o = s.numberOf c) : o = c := by
  rcases apart with registered | others
  · exact (orderly.listed _).eq_of_numberOf ho registered same
  · rcases others o ho with belongs | hne
    · exact Grants.numberOf_inj orderly.numbered belongs (belongs_managerOf here) same
    · exact absurd same hne

theorem focus_eq_eraseAll
    (hnumber : ∀ o ∈ s.entries (s.managerOf c), s.numberOf o = s.numberOf c → o = c) :
    (s.focus c).2 = (s.withFocusOn c).eraseAll (s.displaced c) := by
  have hothers : (s.withFocusOn c).others (s.managerOf c) c =
      (s.entries (s.managerOf c)).filter fun o => o ≠ c && s.isAlive o := by
    refine (others_withFocusOn s c _).trans (List.filter_congr fun o ho => ?_)
    have hne : s.numberOf o ≠ s.numberOf c ↔ o ≠ c :=
      not_congr ⟨hnumber o ho, fun heq => congrArg s.numberOf heq⟩
    exact congrArg (· && s.isAlive o) (decide_eq_decide.mpr hne)
  have hdisplaced : ((s.withFocusOn c).others (s.managerOf c) c).filter
      (fun o => !s.isClosed o && (s.printer? o).isSome) = s.displaced c := by
    rw [hothers, List.filter_filter, displaced]
    refine List.filter_congr fun o _ => ?_
    rw [Bool.and_comm, ← Bool.and_assoc]
  rw [focus_snd, ← hdisplaced]
  refine eraseAll_filter fun o _ hspared => ?_
  rw [Bool.and_eq_false_iff, Bool.not_eq_false', Option.isSome_eq_false_iff,
    Option.isNone_iff_eq_none] at hspared
  exact hspared.elim spared_of_closed spared_of_unmade

/-- Taking the focus grants it and erases every other canvas that is registered, alive, open and
drawn: each once, in the order of registration, whatever became of those before it. The rows counted
for such a canvas are erased by one write, and it counts none from then on. No other canvas is
touched. -/
theorem focus_erasesOthers (possible : s.Possible) (here : c < s.canvases.size)
    (apart : c ∈ s.entries (s.managerOf c) ∨ ∀ o ∈ s.entries (s.managerOf c),
      s.Belongs o (s.managerOf c) ∨ s.numberOf o ≠ s.numberOf c) :
    (s.focus c).2.focused (s.managerOf c) = some (s.numberOf c) ∧
      (s.displaced c).Nodup ∧ (s.focus c).2 = (s.withFocusOn c).eraseAll (s.displaced c) ∧
      (∀ o ∈ s.displaced c, ∃ e p, s.canvases[o]? = some e ∧ e.canvas.printer = some p ∧
        (s.focus c).2.canvases[o]? = some { e with canvas := (e.canvas.flush p.clear).2 } ∧
        ((s.focus c).2.printer? o).map Printer.size = some ⟨1, 0⟩ ∧
        (p.width ≠ 0 → p.size.rows ≠ 0 → (s.focus c).2.sink? o =
          some (e.canvas.sink.write ((p.moveTo p.bottomRight).frame ++
            Cursor.sequences (Printer.clearRows (p.size.rows - 1)))).2)) ∧
      ∀ o, o ∉ s.displaced c → (s.focus c).2.canvases[o]? = s.canvases[o]? := by
  have orderly := possible.orderly
  have hfocus := focus_eq_eraseAll fun o => orderly.eq_of_numberOf here apart (o := o)
  have nodup : (s.displaced c).Nodup := (orderly.listed _).nodup.sublist List.filter_sublist
  refine ⟨focused_focus c (orderly.homed c _ (belongs_managerOf here)), nodup, hfocus, ?_, ?_⟩
  · intro o ho
    obtain ⟨e, p, he, hopen, hprinter⟩ := exists_of_mem_displaced ho
    have hend : (s.focus c).2.canvases[o]? =
        some { e with canvas := (e.canvas.flush p.clear).2 } := by
      rw [hfocus, canvases_eraseAll_of_mem (s := s.withFocusOn c) nodup ho he,
        Canvas.eraseUnlessClosed_of_printer hopen hprinter]
    refine ⟨e, p, he, hprinter, hend, ?_, fun known rows => ?_⟩
    · rw [printer?, hend, Option.bind_some, Canvas.printer_flush]
      rfl
    · have hwidth : p.clear.width ≠ 0 := by rwa [Printer.width_clear]
      have hframe : p.clear.frame ≠ [] :=
        Printer.frame_clear_ne_nil known (Nat.one_le_iff_ne_zero.mpr rows)
      rw [sink?, hend, Option.map_some]
      dsimp only
      rw [Canvas.flush_of_filled _ hwidth hframe, Printer.frame_clear_of_known known rows]
      rfl
  · intro o ho
    rw [hfocus, canvases_eraseAll_of_notMem ho]
    rfl

def spinner (behavior : Sink.Behavior) : Canvas where
  visuals := [.drawn (fun _ => [.print "spinner"]) 0]
  sink := { behavior := behavior }
  width := .fixed 40

/-- Two spinners are drawn beside a canvas that is not. The sink of the first takes its first frame
and refuses what comes after it. -/
def twoSpinners : Scene :=
  let refusing : Sink.Behavior :=
    .ofTrouble { first := some 1, trouble := .refuse ⟨.brokenPipe, "broken pipe"⟩ }
  let s := (newCanvas {} 0 { visuals := [] }).2
  let s := ((s.newCanvas 0 (spinner refusing)).2.newCanvas 0 (spinner .faultless)).2
  ((s.run 1).2.run 2).2

theorem possible_twoSpinners : twoSpinners.Possible :=
  have first := Possible.newCanvas { visuals := [] } (.start rfl rfl) (by decide)
  have second := Possible.newCanvas (spinner _) first (by decide)
  have third := Possible.newCanvas (spinner _) second (by decide)
  (third.run 1).run 2

theorem focus_erasesOthers_pastRefusal :
    twoSpinners.Possible ∧ 0 ∈ twoSpinners.entries (twoSpinners.managerOf 0) ∧
      (twoSpinners.eraseUnlessClosed 1).1 = .error ⟨.brokenPipe, "broken pipe"⟩ ∧
      twoSpinners.displaced 0 = [1, 2] ∧ (twoSpinners.printer? 2).map Printer.size = some ⟨1, 7⟩ ∧
      ((twoSpinners.focus 0).2.printer? 2).map Printer.size = some ⟨1, 0⟩ := by
  have registered : 0 ∈ twoSpinners.entries (twoSpinners.managerOf 0) := by decide +kernel
  have displaced : twoSpinners.displaced 0 = [1, 2] := by decide +kernel
  obtain ⟨-, -, -, erased, -⟩ :=
    focus_erasesOthers possible_twoSpinners (by decide +kernel) (Or.inl registered)
  obtain ⟨-, -, -, -, -, hsize, -⟩ := erased 2 (by rw [displaced]; decide)
  exact ⟨possible_twoSpinners, registered, by decide +kernel, displaced, by decide +kernel, hsize⟩

/-- A spinner of another manager has taken the place of a canvas in its register. As both have the
number zero, the canvas is not taken in again beside it. -/
def foreignSpinner : Scene :=
  let s := (newCanvas {} 0 { visuals := [] }).2.newManager.2
  let s := ((s.newCanvas 1 (spinner .faultless)).2.run 1).2
  ((s.deregister 0 0).register 0 1).register 0 0

theorem possible_foreignSpinner : foreignSpinner.Possible :=
  have first := Possible.newCanvas { visuals := [] } (.start rfl rfl) (by decide)
  have second := Possible.newCanvas (spinner .faultless) first.newManager (by decide)
  (((second.run 1).deregister 0 0).register 0 (by decide +kernel)).register 0 (by decide +kernel)

/-- The canvas takes the focus, and the spinner keeps its frame. -/
theorem focus_sparesForeigner :
    foreignSpinner.Possible ∧ 1 ∈ foreignSpinner.displaced 0 ∧
      ((foreignSpinner.focus 0).2.focused (foreignSpinner.managerOf 0) = some 0) ∧
      (foreignSpinner.printer? 1).map Printer.size = some ⟨1, 7⟩ ∧
      ((foreignSpinner.focus 0).2.printer? 1).map Printer.size = some ⟨1, 7⟩ :=
  ⟨possible_foreignSpinner, by decide +kernel, by decide +kernel, by decide +kernel,
    by decide +kernel⟩

end Scene

end Inlay
