import Inlay.Duration
import Mathlib.Data.List.Basic

namespace Inlay

open Text

theorem Text.join_eq_intercalate (separator : Text) (parts : List Text) :
    join separator parts = List.intercalate separator parts := by
  induction parts with
  | nil => rfl
  | cons part rest ih =>
      cases rest with
      | nil => exact (List.append_nil part).symm
      | cons next later =>
          rw [List.intercalate_cons_cons, ← ih]
          rfl

namespace Duration

/-- The units that lengths of time are told in. -/
inductive ClockUnit where
  | hour
  | minute
  | second
deriving DecidableEq, Repr

namespace ClockUnit

def name : ClockUnit → Text
  | hour => "hour"
  | minute => "minute"
  | second => "second"

def seconds : ClockUnit → Nat
  | hour => 3600
  | minute => 60
  | second => 1

end ClockUnit

/-- How many of a unit, and whether the name of the unit has an s. -/
structure Part where
  count : Nat
  unit : ClockUnit
  plural : Bool
deriving DecidableEq, Repr

namespace Part

def seconds (p : Part) : Nat := p.count * p.unit.seconds

def unitWord (p : Part) : Text := p.unit.name ++ (if p.plural then "s" else "")

def text (p : Part) : Text := decimal p.count ++ " " ++ p.unitWord

def words (p : Part) : List Text := [decimal p.count, p.unitWord]

/-- The seconds that parts add up to. -/
def total : List Part → Nat
  | [] => 0
  | p :: rest => p.seconds + total rest

end Part

def number? (word : Text) : Option Nat :=
  if word.isEmpty || !word.all Char.isDigit then none else some (Nat.ofDigitChars 10 word 0)

/-- The unit that a word names, and whether it does so with an s. -/
def unit? (word : Text) : Option (ClockUnit × Bool) :=
  [ClockUnit.hour, .minute, .second].findSome? fun unit =>
    if word = unit.name then some (unit, false)
    else if word = unit.name ++ "s" then some (unit, true)
    else none

/-- Reads two words for each part. -/
def partsOf? : List Text → Option (List Part)
  | [] => some []
  | [_] => none
  | number :: name :: rest => do
      let count ← number? number
      let (unit, plural) ← unit? name
      let parts ← partsOf? rest
      return ⟨count, unit, plural⟩ :: parts

/-- The parts of a text, with single blanks between its words. -/
def parts? (text : Text) : Option (List Part) := partsOf? (List.splitOn ' ' text)

theorem number?_decimal (n : Nat) : number? (decimal n) = some n := by
  have filled : (decimal n).isEmpty = false := List.isEmpty_eq_false_iff.mpr Nat.toDigits_ne_nil
  have digits : (decimal n).all Char.isDigit = true := List.all_eq_true.mpr fun _ hc =>
    Nat.isDigit_of_mem_toDigits (by decide) (by decide) hc
  rw [number?, filled, digits, if_neg (by decide), decimal, Nat.ofDigitChars_ten_toDigits]

theorem unit?_unitWord (p : Part) : unit? p.unitWord = some (p.unit, p.plural) := by
  obtain ⟨-, unit, plural⟩ := p
  change unit? (unit.name ++ (if plural then "s" else "")) = some (unit, plural)
  cases unit <;> cases plural <;> decide

theorem partsOf?_words (parts : List Part) : partsOf? (parts.flatMap Part.words) = some parts := by
  induction parts with
  | nil => rfl
  | cons p rest ih =>
      change partsOf? (decimal p.count :: p.unitWord :: rest.flatMap Part.words) = _
      rw [partsOf?, number?_decimal, unit?_unitWord, ih]
      rfl

theorem blank_notMem_words {p : Part} {word : Text} (h : word ∈ p.words) : ' ' ∉ word := by
  obtain ⟨count, unit, plural⟩ := p
  rcases List.mem_pair.mp h with rfl | rfl
  · intro blank
    have digit := Nat.isDigit_of_mem_toDigits (by decide) (by decide) blank
    exact absurd digit (by decide)
  · change ' ' ∉ unit.name ++ (if plural then "s" else "")
    cases unit <;> cases plural <;> decide

theorem join_text (parts : List Part) :
    join " " (parts.map Part.text) = List.intercalate [' '] (parts.flatMap Part.words) := by
  rw [join_eq_intercalate]
  induction parts with
  | nil => rfl
  | cons p rest ih =>
      cases rest with
      | nil => simp [Part.text, Part.words]
      | cons q later =>
          rw [List.map_cons, List.map_cons, List.intercalate_cons_cons, ← List.map_cons, ih]
          simp [Part.text, Part.words, List.intercalate_cons_cons]

/-- Parts are read as they are written. -/
theorem parts?_join {parts : List Part} (filled : parts ≠ []) :
    parts? (join " " (parts.map Part.text)) = some parts := by
  have hwords : parts.flatMap Part.words ≠ [] := by
    obtain ⟨p, rest, rfl⟩ := List.exists_cons_of_ne_nil filled
    exact List.cons_ne_nil _ _
  have hblank : ∀ word ∈ parts.flatMap Part.words, ' ' ∉ word := by
    intro word hword
    obtain ⟨p, -, hp⟩ := List.mem_flatMap.mp hword
    exact blank_notMem_words hp
  rw [parts?, join_text, List.splitOn_intercalate ' ' hblank hwords, partsOf?_words]

/-- The whole seconds of a length of time, divided up among the units. -/
def counts (d : Duration) : List (Nat × ClockUnit) :=
  [(d.seconds / 3600, .hour), (d.seconds % 3600 / 60, .minute), (d.seconds % 60, .second)]

/-- The part that tells a count. -/
def partOf (c : Nat × ClockUnit) : Part := ⟨c.1, c.2, c.1 ≠ 1⟩

/-- The parts that a length of time is put into words with. -/
def parts (d : Duration) : List Part := (d.counts.filter fun c => c.1 ≠ 0).map partOf

variable {d : Duration}

theorem text_partOf (c : Nat × ClockUnit) : (partOf c).text = counted c.1 c.2.name := by
  by_cases one : c.1 = 1
  · simp [counted, partOf, Part.text, Part.unitWord, one]
  · simp [counted, partOf, Part.text, Part.unitWord, one]

theorem spelled_of_lasting (h : d.seconds ≠ 0) :
    d.spelled = join " " (d.parts.map Part.text) := by
  have hcounts : [(d.seconds / 3600, ("hour" : Text)), (d.seconds % 3600 / 60, "minute"),
      (d.seconds % 60, "second")] = d.counts.map (Prod.map id ClockUnit.name) := rfl
  rw [spelled, if_neg h]
  dsimp only
  rw [hcounts, List.filter_map, parts, List.map_map, List.map_map]
  exact congrArg (join " ") (List.map_congr_left fun c _ => (text_partOf c).symm)

theorem total_counts (d : Duration) : Part.total (d.counts.map partOf) = d.seconds := by
  have htotal : Part.total (d.counts.map partOf) =
      d.seconds / 3600 * 3600 + (d.seconds % 3600 / 60 * 60 + (d.seconds % 60 * 1 + 0)) := rfl
  omega

/-- Counts of zero add nothing. -/
theorem total_filter (counts : List (Nat × ClockUnit)) :
    Part.total ((counts.filter fun c => c.1 ≠ 0).map partOf) = Part.total (counts.map partOf) := by
  induction counts with
  | nil => rfl
  | cons c rest ih =>
      by_cases zero : c.1 = 0
      · have nothing : (partOf c).seconds = 0 := by
          rw [Part.seconds, partOf, zero, Nat.zero_mul]
        rw [List.filter_cons_of_neg (by simpa using zero), ih, List.map_cons, Part.total, nothing,
          Nat.zero_add]
      · rw [List.filter_cons_of_pos (by simpa using zero), List.map_cons, Part.total, ih,
          List.map_cons, Part.total]

theorem total_parts (d : Duration) : Part.total d.parts = d.seconds := by
  rw [parts, total_filter, total_counts]

theorem parts_ne_nil (h : d.seconds ≠ 0) : d.parts ≠ [] := by
  intro nothing
  rw [← d.total_parts, nothing] at h
  exact h rfl

theorem parts?_spelled (h : d.seconds ≠ 0) : parts? d.spelled = some d.parts := by
  rw [spelled_of_lasting h, parts?_join (parts_ne_nil h)]

theorem units_parts (d : Duration) :
    (d.parts.map Part.unit).Sublist [.hour, .minute, .second] := by
  rw [parts, List.map_map]
  exact List.filter_sublist.map Prod.snd

theorem forall_mem_parts {p : Part} (h : p ∈ d.parts) :
    p.count ≠ 0 ∧ (p.plural = false ↔ p.count = 1) ∧ (p.unit ≠ .hour → p.count < 60) := by
  obtain ⟨c, hc, rfl⟩ := List.mem_map.mp h
  obtain ⟨hmem, lasting⟩ := List.mem_filter.mp hc
  refine ⟨of_decide_eq_true lasting, by simp [partOf], fun later => ?_⟩
  rcases List.mem_cons.mp hmem with rfl | hmem
  · exact absurd rfl later
  · rcases List.mem_pair.mp hmem with rfl | rfl
    · change d.seconds % 3600 / 60 < 60
      omega
    · exact Nat.mod_lt _ (by decide)

/-- The seconds that a text tells of. One that is no row of parts tells of none. -/
def secondsIn (text : Text) : Nat := Part.total ((parts? text).getD [])

theorem secondsIn_spelled (d : Duration) : secondsIn d.spelled = d.seconds := by
  by_cases h : d.seconds = 0
  · have unread : parts? "less than a second" = none := by decide
    rw [spelled, if_pos h, secondsIn, unread, h]
    rfl
  · rw [secondsIn, parts?_spelled h, Option.getD_some, total_parts]

/-- Words for lengths of time lose the fraction of a second and nothing else. From a second on they
are a row of parts that can be read from them and add up to the whole seconds: hours, minutes and
seconds in this order, none of them zero, less than sixty of the minutes and of the seconds, and an
s unless the count is one. -/
theorem spelled_readsBack :
    (∀ d₁ d₂ : Duration, d₁.spelled = d₂.spelled ↔ d₁.seconds = d₂.seconds) ∧
      ∀ d : Duration, 1 ≤ d.seconds → ∃ parts, parts? d.spelled = some parts ∧
        d.spelled = join " " (parts.map Part.text) ∧ Part.total parts = d.seconds ∧
        (parts.map Part.unit).Sublist [.hour, .minute, .second] ∧ ∀ p ∈ parts, p.count ≠ 0 ∧
          (p.plural = false ↔ p.count = 1) ∧ (p.unit ≠ .hour → p.count < 60) := by
  constructor
  · intro d₁ d₂
    constructor
    · intro same
      rw [← secondsIn_spelled, same, secondsIn_spelled]
    · intro same
      rw [spelled, spelled, same]
  · intro d lasting
    have h : d.seconds ≠ 0 := Nat.one_le_iff_ne_zero.mp lasting
    exact ⟨d.parts, parts?_spelled h, spelled_of_lasting h, d.total_parts, d.units_parts,
      fun p => forall_mem_parts⟩

theorem spelled_readsBack_twoHours :
    1 ≤ (ofSeconds 7260).seconds ∧ (ofSeconds 7260).spelled = "2 hours 1 minute" ∧
      ∃ parts, parts? "2 hours 1 minute" = some parts ∧ Part.total parts = 7260 := by
  have hwords : (ofSeconds 7260).spelled = "2 hours 1 minute" := by decide
  obtain ⟨parts, hread, -, htotal, -⟩ := spelled_readsBack.2 (ofSeconds 7260) (by decide)
  rw [hwords] at hread
  exact ⟨by decide, hwords, parts, hread, htotal⟩

end Duration

end Inlay
