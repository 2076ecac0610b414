import Inlay.Canvas

namespace Inlay

open Text

namespace Log

def unlessBlank (text : Text) : Option Text := if (Blank.trim text).isEmpty then none else some text

/-- The text that a line shows, unless that is blank. -/
def shown? (line : Text) : Option Text := unlessBlank (Escape.strip line)

def rowShown? (frame : Text) (row : Nat) : Option Text := (allLines frame)[row]?.bind shown?

/-- The text that a row showed last. The latest of the frames comes first. -/
def latest? (row : Nat) : List Text → Option Text
  | [] => none
  | frame :: before => (rowShown? frame row).or (latest? row before)

/-- The lines, numbered from `row` on, that show a text other than what is known of their rows, each
with a line feed. -/
def newLines (known : Nat → Option Text) (row : Nat) (lines : List Text) : Text :=
  (lines.zipIdx row).flatMap fun (line, i) =>
    if shown? line = none ∨ shown? line = known i then [] else line ++ "\n"

/-- The part of a frame that is new after the frames before. -/
def news (before : List Text) (frame : Text) : Text :=
  newLines (latest? · before) 0 (allLines frame)

/-- The whole log of frames of which the latest comes first. -/
def reference : List Text → Text
  | [] => []
  | frame :: before => reference before ++ news before frame

def remembered (logged : List Text) (row : Nat) : Option Text := logged[row]?.bind unlessBlank

theorem unlessBlank_eq_some_iff {text text' : Text} :
    unlessBlank text = some text' ↔ (Blank.trim text).isEmpty = false ∧ text = text' := by
  unfold unlessBlank
  split
  · simp_all
  · simp_all

theorem remembered_eq_some_iff {logged : List Text} {row : Nat} {text : Text}
    (h : (Blank.trim text).isEmpty = false) :
    remembered logged row = some text ↔ logged[row]? = some text := by
  rw [remembered, Option.bind_eq_some_iff]
  constructor
  · rintro ⟨text', hlogged, hshown⟩
    rw [hlogged, (unlessBlank_eq_some_iff.mp hshown).2]
  · intro hlogged
    exact ⟨text, hlogged, unlessBlank_eq_some_iff.mpr ⟨h, rfl⟩⟩

theorem remembered_logRow {logged : List Text} {row : Nat} {text : Text}
    (h : (Blank.trim text).isEmpty = false) (i : Nat) :
    remembered (Canvas.logRow logged row text) i =
      if i = row then some text else remembered logged i := by
  have hlength : row < (logged ++ List.replicate (row + 1 - logged.length) ([] : Text)).length := by
    rw [List.length_append, List.length_replicate]
    omega
  rw [remembered, Canvas.logRow]
  by_cases hi : i = row
  · rw [hi, List.getElem?_set_self hlength, if_pos rfl, Option.bind_some]
    exact unlessBlank_eq_some_iff.mpr ⟨h, rfl⟩
  · rw [List.getElem?_set_ne (Ne.symm hi), if_neg hi, remembered]
    -- the rows filled in between are blank, so nothing is remembered of them
    rcases Nat.lt_or_ge i logged.length with hlt | hge
    · rw [List.getElem?_append_left hlt]
    · rw [List.getElem?_append_right hge, List.getElem?_eq_none hge, List.getElem?_replicate]
      split
      · rfl
      · rfl

theorem newLines_cons (known : Nat → Option Text) (row : Nat) (line : Text) (rest : List Text) :
    newLines known row (line :: rest) =
      (if shown? line = none ∨ shown? line = known row then [] else line ++ ("\n" : Text)) ++
        newLines known (row + 1) rest := by
  rw [newLines, List.zipIdx_cons, List.flatMap_cons]
  rfl

theorem newLines_congr {known known' : Nat → Option Text} {row : Nat}
    (h : ∀ i, row ≤ i → known i = known' i) (lines : List Text) :
    newLines known row lines = newLines known' row lines := by
  induction lines generalizing row with
  | nil => rfl
  | cons line rest ih =>
      rw [newLines_cons, newLines_cons, h row (Nat.le_refl row),
        ih fun i hi => h i (Nat.le_of_succ_le hi)]

/-- The rows that a canvas finds new are those that show other texts than it remembers, and it
remembers what they show. -/
theorem newRows_eq (logged : List Text) (row : Nat) (lines : List Text) :
    (Canvas.newRows logged row lines).1 = newLines (remembered logged) row lines ∧
      ∀ i, remembered (Canvas.newRows logged row lines).2 i =
        if row ≤ i then (lines[i - row]?.bind shown?).or (remembered logged i)
        else remembered logged i := by
  induction lines generalizing logged row with
  | nil =>
      refine ⟨rfl, fun i => ?_⟩
      change remembered logged i = if row ≤ i then (none : Option Text).or _ else _
      rw [Option.none_or, ite_self]
  | cons line rest ih =>
      have later : ∀ {i}, row < i → (line :: rest)[i - row]? = rest[i - (row + 1)]? := by
        intro i hi
        rw [show i - row = (i - (row + 1)) + 1 by omega, List.getElem?_cons_succ]
      rw [Canvas.newRows, newLines_cons]
      dsimp only
      by_cases hold : shown? line = none ∨ shown? line = remembered logged row
      · have hpassed : ((Blank.trim (Escape.strip line)).isEmpty ||
            logged[row]? = some (Escape.strip line)) = true := by
          cases hblank : (Blank.trim (Escape.strip line)).isEmpty with
          | true => rfl
          | false =>
              have hshown : shown? line = some (Escape.strip line) :=
                unlessBlank_eq_some_iff.mpr ⟨hblank, rfl⟩
              rw [hshown] at hold
              have hsame := (remembered_eq_some_iff hblank).mp
                (hold.resolve_left (Option.some_ne_none _)).symm
              rw [hsame]
              simp
        obtain ⟨hnew, hknown⟩ := ih logged (row + 1)
        rw [if_pos hpassed, if_pos hold]
        refine ⟨hnew, fun i => ?_⟩
        rw [hknown]
        rcases Nat.lt_trichotomy i row with hlt | rfl | hgt
        · rw [if_neg (by omega), if_neg (by omega)]
        · rw [if_neg (by omega), if_pos (Nat.le_refl i), Nat.sub_self, List.getElem?_cons_zero,
            Option.bind_some]
          rcases hold with hnone | hsame
          · rw [hnone, Option.none_or]
          · rw [hsame, Option.or_self]
        · rw [if_pos (show row + 1 ≤ i from hgt), if_pos (Nat.le_of_lt hgt), later hgt]
      · rw [not_or] at hold
        obtain ⟨text, hshown⟩ := Option.ne_none_iff_exists'.mp hold.1
        obtain ⟨hblank, rfl⟩ := unlessBlank_eq_some_iff.mp hshown
        have hother : ¬ ((Blank.trim (Escape.strip line)).isEmpty ||
            logged[row]? = some (Escape.strip line)) = true := by
          rw [hblank, Bool.false_or, decide_eq_true_eq, ← remembered_eq_some_iff hblank, ← hshown]
          exact Ne.symm hold.2
        obtain ⟨hnew, hknown⟩ := ih (Canvas.logRow logged row (Escape.strip line)) (row + 1)
        rw [if_neg hother, if_neg (not_or.mpr hold)]
        dsimp only
        constructor
        · rw [hnew, List.append_assoc, List.append_assoc]
          congr 2
          apply newLines_congr
          intro i hi
          rw [remembered_logRow hblank, if_neg (by omega)]
        · intro i
          rw [hknown, remembered_logRow hblank]
          rcases Nat.lt_trichotomy i row with hlt | rfl | hgt
          · rw [if_neg (by omega), if_neg (by omega), if_neg (by omega)]
          · rw [if_neg (by omega), if_pos rfl, if_pos (Nat.le_refl i), Nat.sub_self,
              List.getElem?_cons_zero, Option.bind_some, hshown, Option.some_or]
          · rw [if_pos (show row + 1 ≤ i from hgt), if_pos (Nat.le_of_lt hgt), if_neg (by omega),
              later hgt]

end Log

end Inlay
