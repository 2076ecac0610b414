import Inlay.Proofs.Wording

namespace Inlay

open Text Keyboard

namespace Prompt

variable {q : Char → Prop}

theorem madeOf_trim {text : Text} (h : text.MadeOf q) : (Blank.trim text).MadeOf q := by
  intro c hc
  have hback := List.mem_reverse.mp hc
  have hfront := List.mem_reverse.mp ((List.dropWhile_sublist _).mem hback)
  exact h c ((List.dropWhile_sublist _).mem hfront)

theorem Confirm.MadeOf.press {c : Confirm} (h : c.MadeOf q) {event : KeyEvent}
    (hvalue : event.value.MadeOf q) : (c.press event).2.MadeOf q := by
  obtain ⟨hmessage, hhelp, hhint, hheld⟩ := h
  unfold Confirm.press
  split
  · exact ⟨hmessage, hhelp, hhint, hheld⟩
  split
  · exact ⟨hmessage, hhelp, hhint, hheld⟩
  dsimp only
  split
  · split
    · exact ⟨hmessage, hhelp, hhint, hvalue⟩
    · exact ⟨hmessage, hhelp, hhint, hvalue⟩
  · exact ⟨hmessage, hhelp, hhint, hvalue⟩

theorem madeOf_objection (own : ∀ c, Plain c → q c) {l : Line} (h : l.MadeOf q)
    {value message : Text} (hmessage : l.objection? value = some message) : message.MadeOf q := by
  unfold Line.objection? at hmessage
  split at hmessage
  · obtain rfl := Option.some.inj hmessage
    have hplain : Line.requiredMessage.MadeOf Plain := Text.madeOf_of_all (by decide)
    exact fun c hc => own c (hplain c hc)
  · obtain ⟨validate, hvalidator, hobjects⟩ := Option.bind_eq_some_iff.mp hmessage
    exact h.objection validate value message hvalidator hobjects

theorem Line.MadeOf.press (own : ∀ c, Plain c → q c) {l : Line} (h : l.MadeOf q)
    {event : KeyEvent} (hvalue : event.value.MadeOf q) : (l.press event).2.MadeOf q := by
  have hobjection (message : Text) (hraised : l.objection? event.value = some message) :
      message.MadeOf q :=
    madeOf_objection own h hraised
  obtain ⟨hmessage, hplaceholder, hhelp, hhint, hheld, herror, hobjects⟩ := h
  unfold Line.press
  split
  · exact ⟨hmessage, hplaceholder, hhelp, hhint, hheld, herror, hobjects⟩
  split
  · exact ⟨hmessage, hplaceholder, hhelp, hhint, hheld, herror, hobjects⟩
  dsimp only
  split
  · split
    · exact ⟨hmessage, hplaceholder, hhelp, hhint, hvalue, nofun, hobjects⟩
    · rename_i message hraised
      refine ⟨hmessage, hplaceholder, hhelp, hhint, hvalue, fun message' heq => ?_, hobjects⟩
      exact Option.some.inj heq ▸ hobjection message hraised
  · exact ⟨hmessage, hplaceholder, hhelp, hhint, hvalue, nofun, hobjects⟩

namespace Choices

variable {cs : Choices}

theorem MadeOf.moveUp (h : cs.MadeOf q) : cs.moveUp.MadeOf q := by
  unfold Choices.moveUp
  dsimp only
  split
  · exact h
  · exact ⟨h.labels, h.filter⟩

theorem MadeOf.moveDown (h : cs.MadeOf q) : cs.moveDown.MadeOf q := by
  unfold Choices.moveDown
  dsimp only
  split
  · exact h
  · exact ⟨h.labels, h.filter⟩

theorem MadeOf.setFilter (h : cs.MadeOf q) {filter : Text} (hfilter : filter.MadeOf q) :
    (cs.setFilter filter).MadeOf q := by
  unfold Choices.setFilter
  split
  · exact h
  · exact ⟨h.labels, hfilter⟩

end Choices

theorem Select.madeOf_move {list : Choices} (h : list.MadeOf q) (key : Option Key) :
    (Select.move list key).MadeOf q := by
  unfold Select.move
  split
  · exact h.moveUp
  · exact h.moveDown
  · exact h

theorem Select.MadeOf.press {s : Select} (h : s.MadeOf q) {event : KeyEvent}
    (hvalue : event.value.MadeOf q) : (s.press event).2.MadeOf q := by
  obtain ⟨hmessage, hhelp, hlist⟩ := h
  have hfiltered : (if s.filtering then s.list.setFilter event.value else s.list).MadeOf q := by
    split
    · exact hlist.setFilter hvalue
    · exact hlist
  have hmoved := Select.madeOf_move hfiltered event.key
  unfold Select.press
  split
  · exact ⟨hmessage, hhelp, hlist⟩
  split
  · exact ⟨hmessage, hhelp, hlist⟩
  dsimp only
  generalize (if s.filtering then s.list.setFilter event.value else s.list) = list at hmoved ⊢
  split
  · exact ⟨hmessage, hhelp, hmoved⟩
  · exact ⟨hmessage, hhelp, hmoved⟩

theorem MultiSelect.MadeOf.pressKey {m : MultiSelect} (h : m.MadeOf q) (key : Option Key) :
    (m.pressKey key).2.MadeOf q := by
  obtain ⟨hmessage, hhelp, hlist⟩ := h
  unfold MultiSelect.pressKey
  split
  · exact ⟨hmessage, hhelp, hlist.moveUp⟩
  · exact ⟨hmessage, hhelp, hlist.moveDown⟩
  · split
    · exact ⟨hmessage, hhelp, hlist⟩
    · exact ⟨hmessage, hhelp, hlist⟩
  · exact ⟨hmessage, hhelp, hlist⟩
  · exact ⟨hmessage, hhelp, hlist⟩
  · dsimp only
    split
    · exact ⟨hmessage, hhelp, hlist⟩
    · exact ⟨hmessage, hhelp, hlist⟩
  · exact ⟨hmessage, hhelp, hlist⟩

theorem MultiSelect.MadeOf.press {m : MultiSelect} (h : m.MadeOf q) {event : KeyEvent}
    (hvalue : event.value.MadeOf q) : (m.press event).2.MadeOf q := by
  obtain ⟨hmessage, hhelp, hlist⟩ := h
  have hfiltered : (if m.filtering then m.list.setFilter (Blank.trim event.value)
      else m.list).MadeOf q := by
    split
    · exact hlist.setFilter (madeOf_trim hvalue)
    · exact hlist
  unfold MultiSelect.press
  split
  · exact ⟨hmessage, hhelp, hlist⟩
  split
  · exact ⟨hmessage, hhelp, hlist⟩
  dsimp only
  refine MultiSelect.MadeOf.pressKey (m := { m with showHelp := event.hint, list := _ })
    ⟨hmessage, hhelp, ?_⟩ event.key
  generalize (if m.filtering then m.list.setFilter (Blank.trim event.value) else m.list) = list
    at hfiltered ⊢
  split
  · exact hfiltered.moveDown
  · exact hfiltered

theorem madeOf_press (own : ∀ c, Plain c → q c) {p : Prompt} (h : p.MadeOf q) {event : KeyEvent}
    (hvalue : event.value.MadeOf q) : (p.press event).2.MadeOf q := by
  cases p with
  | confirm c => exact Confirm.MadeOf.press h hvalue
  | line l => exact Line.MadeOf.press own h hvalue
  | select s => exact Select.MadeOf.press h hvalue
  | multiSelect m => exact MultiSelect.MadeOf.press h hvalue

end Prompt

end Inlay
