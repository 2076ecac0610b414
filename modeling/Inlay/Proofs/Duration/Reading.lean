import Inlay.Duration.Reader
import Inlay.Proofs.Binary64
import Mathlib.Data.List.SplitBy
import Mathlib.Data.Nat.Digits.Defs

namespace Inlay

namespace Text

/-- The number that decimal digits stand for. -/
def valueOf (digits : Text) : Nat :=
  Nat.ofDigits 10 (digits.reverse.map fun c => c.toNat - '0'.toNat)

/-- Decimal digits that stand for a number, with or without a plus sign before them. -/
def Spells (text : Text) (n : Nat) : Prop :=
  ∃ digits, digits ≠ [] ∧ (∀ c ∈ digits, c.isDigit = true) ∧
    (text = digits ∨ text = '+' :: digits) ∧ valueOf digits = n

theorem foldl_digits (digits : Text) :
    digits.foldl (fun n c => 10 * n + (c.toNat - '0'.toNat)) 0 = valueOf digits := by
  rw [valueOf, Nat.ofDigits_eq_foldr, List.map_reverse, List.foldr_reverse, List.foldl_map]
  simp only [Nat.cast_id, Nat.add_comm]

/-- What digits are read as that stand without a sign. -/
def unsigned? (digits : Text) : Option Nat :=
  if digits ≠ [] ∧ digits.all Char.isDigit = true ∧ valueOf digits < 2 ^ 64 then
    some (valueOf digits)
  else none

theorem unsigned?_eq (digits : Text) :
    (if digits.isEmpty || !digits.all Char.isDigit then none
      else
        let n := digits.foldl (fun n c => 10 * n + (c.toNat - '0'.toNat)) 0
        if n < UInt64.size then some n else none) = unsigned? digits := by
  rw [foldl_digits, unsigned?]
  dsimp only
  split
  · rename_i h
    rw [if_neg]
    rintro ⟨filled, hdigits, -⟩
    simp [filled, hdigits] at h
  · rename_i h
    rw [Bool.or_eq_true, not_or, List.isEmpty_iff, Bool.not_eq_true', Bool.not_eq_false] at h
    exact if_congr ⟨fun small => ⟨h.1, h.2, small⟩, fun all => all.2.2⟩ rfl rfl

theorem word?_plus (digits : Text) : word? ('+' :: digits) = unsigned? digits :=
  unsigned?_eq digits

theorem word?_of_ne {text : Text} (h : text.head? ≠ some '+') : word? text = unsigned? text := by
  unfold word?
  dsimp only
  split
  · exact absurd rfl h
  · exact unsigned?_eq text

theorem word?_eq_some_iff {text : Text} {n : Nat} :
    word? text = some n ↔ Spells text n ∧ n < 2 ^ 64 := by
  constructor
  · intro h
    obtain ⟨digits, hsign, hread⟩ : ∃ digits, (text = digits ∨ text = '+' :: digits) ∧
        word? text = unsigned? digits := by
      by_cases hplus : text.head? = some '+'
      · obtain ⟨digits, rfl⟩ := List.head?_eq_some_iff.mp hplus
        exact ⟨digits, Or.inr rfl, word?_plus digits⟩
      · exact ⟨text, Or.inl rfl, word?_of_ne hplus⟩
    rw [hread, unsigned?] at h
    split at h
    · rename_i hdigits
      obtain rfl := Option.some.inj h
      exact ⟨⟨digits, hdigits.1, List.all_eq_true.mp hdigits.2.1, hsign, rfl⟩, hdigits.2.2⟩
    · cases h
  · rintro ⟨⟨digits, filled, hdigits, hsign, rfl⟩, small⟩
    have hread : word? text = unsigned? digits := by
      rcases hsign with rfl | rfl
      · refine word?_of_ne fun hplus => ?_
        exact absurd (hdigits '+' (List.mem_of_mem_head? hplus)) (by decide)
      · exact word?_plus digits
    rw [hread, unsigned?, if_pos ⟨filled, List.all_eq_true.mpr hdigits, small⟩]

namespace Blank

theorem dropWhile_append {before text : Text} (after : Text)
    (hbefore : ∀ c ∈ before, isBlank c = true) (h : ∀ c ∈ text, isBlank c = false)
    (filled : text ≠ []) : (before ++ (text ++ after)).dropWhile isBlank = text ++ after := by
  rw [List.dropWhile_append_of_pos hbefore]
  cases text with
  | nil => exact absurd rfl filled
  | cons c rest => exact List.dropWhile_cons_of_neg (by simp [h c List.mem_cons_self])

theorem trim_append {before text after : Text} (hbefore : ∀ c ∈ before, isBlank c = true)
    (hafter : ∀ c ∈ after, isBlank c = true) (h : ∀ c ∈ text, isBlank c = false)
    (filled : text ≠ []) : trim (before ++ text ++ after) = text := by
  have hright : (after.reverse ++ (text.reverse ++ [])).dropWhile isBlank = text.reverse ++ [] := by
    refine dropWhile_append [] (fun c hc => ?_) (fun c hc => ?_) (by simpa using filled)
    · exact hafter c (List.mem_reverse.mp hc)
    · exact h c (List.mem_reverse.mp hc)
  rw [List.append_nil] at hright
  rw [trim, List.append_assoc, dropWhile_append after hbefore h filled, List.reverse_append, hright,
    List.reverse_reverse]

end Blank

end Text

namespace Duration

open Text

/-- The units and what one of each is in nanoseconds. -/
def units : List (Text × Nat) :=
  [("ns", 1), ("us", 1_000), ("µs", 1_000), ("μs", 1_000), ("ms", 1_000_000),
    ("s", 1_000_000_000), ("m", 60_000_000_000), ("h", 3_600_000_000_000)]

theorem unitNanos?_eq_some_iff {unit : Text} {nanos : Nat} :
    unitNanos? unit = some nanos ↔ (unit, nanos) ∈ units := by
  constructor
  · intro h
    unfold unitNanos? at h
    split_ifs at h with ns us ms s m hour
    · cases ns; cases h; decide
    · rcases us with rfl | rfl | rfl
      · cases h; decide
      · cases h; decide
      · cases h; decide
    · cases ms; cases h; decide
    · cases s; cases h; decide
    · cases m; cases h; decide
    · cases hour; cases h; decide
  · intro h
    simp only [units, List.mem_cons, List.not_mem_nil, or_false, Prod.mk.injEq] at h
    rcases h with h | h | h | h | h | h | h | h
    all_goals
      obtain ⟨rfl, rfl⟩ := h
      rfl

/-- What tells the letters of a unit from digits, points, signs and white space. -/
theorem letters_of_mem_units : ∀ unit ∈ units, unit.1 ≠ [] ∧
    ∀ c ∈ unit.1, isNumeric c = false ∧ c ≠ '+' ∧ Blank.isBlank c = false := by
  have checked : ∀ unit ∈ units, unit.1 ≠ [] ∧
      unit.1.all (fun c => !isNumeric c && c != '+' && !Blank.isBlank c) = true := by
    decide
  intro unit hunit
  obtain ⟨hne, hall⟩ := checked unit hunit
  exact ⟨hne, fun c hc => by simpa [and_assoc] using List.all_eq_true.mp hall c hc⟩

/-- A number with a unit after it. -/
structure IsSegment (segment : Text × Text) : Prop where
  number : Binary64.IsNumber segment.1
  unit : ∃ nanos, (segment.2, nanos) ∈ units

/-- Segments one after the other, with nothing between them. -/
def spelling (segments : List (Text × Text)) : Text :=
  segments.flatMap fun segment => segment.1 ++ segment.2

namespace IsSegment

variable {segment : Text × Text} (h : IsSegment segment)

include h

theorem number_ne_nil : segment.1 ≠ [] := by
  obtain ⟨c, hc, -⟩ := h.number.digit
  exact List.ne_nil_of_mem hc

theorem isNumeric_number : ∀ c ∈ segment.1, isNumeric c = true := by
  intro c hc
  rw [isNumeric, Bool.or_eq_true, beq_iff_eq]
  exact h.number.numeric c hc

theorem unit_ne_nil : segment.2 ≠ [] := by
  obtain ⟨nanos, hunit⟩ := h.unit
  exact (letters_of_mem_units _ hunit).1

theorem not_isNumeric_unit : ∀ c ∈ segment.2, isNumeric c = false := by
  obtain ⟨nanos, hunit⟩ := h.unit
  exact fun c hc => ((letters_of_mem_units _ hunit).2 c hc).1

end IsSegment

theorem segments?_eq_some_iff {pieces : List Text} {segments : List (Text × Text)} :
    segments? pieces = some segments ↔
      pieces = segments.flatMap (fun segment => [segment.1, segment.2]) ∧
        ∀ segment ∈ segments, segment.1.all isNumeric = true := by
  fun_induction segments? pieces generalizing segments with
  | case1 => cases segments <;> simp
  | case2 piece => cases segments <;> simp
  | case3 number unit rest numeric ih =>
      cases segments with
      | nil => simp
      | cons segment segments =>
          obtain ⟨number', unit'⟩ := segment
          simp only [Option.map_eq_some_iff, ih, List.cons.injEq, Prod.mk.injEq,
            List.flatMap_cons, List.cons_append, List.nil_append, List.forall_mem_cons]
          constructor
          · rintro ⟨segments', hrest, ⟨rfl, rfl⟩, rfl⟩
            exact ⟨⟨rfl, rfl, hrest.1⟩, numeric, hrest.2⟩
          · rintro ⟨⟨rfl, rfl, hrest⟩, -, hall⟩
            exact ⟨segments, ⟨hrest, hall⟩, ⟨rfl, rfl⟩, rfl⟩
  | case4 number unit rest other =>
      cases segments with
      | nil => simp
      | cons segment segments =>
          refine iff_of_false nofun ?_
          rintro ⟨hpieces, hall⟩
          rw [List.flatMap_cons, List.cons_append, List.cons.injEq] at hpieces
          rw [hpieces.1] at other
          exact other (hall segment List.mem_cons_self)

theorem splitBy_isNumeric {piece : Text} {numeric : Bool} (filled : piece ≠ [])
    (h : ∀ c ∈ piece, isNumeric c = numeric) :
    piece.splitBy (fun a b => isNumeric a == isNumeric b) = [piece] := by
  refine List.splitBy_of_isChain filled (List.Pairwise.isChain ?_)
  refine List.pairwise_of_forall_mem_list fun a ha b hb => ?_
  rw [h a ha, h b hb]
  exact beq_self_eq_true numeric

theorem spelling_cons (segment : Text × Text) (rest : List (Text × Text)) :
    spelling (segment :: rest) = segment.1 ++ (segment.2 ++ spelling rest) :=
  List.append_assoc ..

theorem flatten_pieces (segments : List (Text × Text)) :
    (segments.flatMap fun segment => [segment.1, segment.2]).flatten = spelling segments := by
  induction segments with
  | nil => rfl
  | cons segment rest ih =>
      rw [spelling_cons, ← ih]
      rfl

theorem isNumeric_head_spelling {segments : List (Text × Text)}
    (h : ∀ segment ∈ segments, IsSegment segment) :
    ∀ c ∈ (spelling segments).head?, isNumeric c = true := by
  cases segments with
  | nil => exact nofun
  | cons segment rest =>
      have hsegment := h segment List.mem_cons_self
      intro c hc
      rw [spelling_cons, List.head?_append_of_ne_nil _ hsegment.number_ne_nil] at hc
      exact hsegment.isNumeric_number c (List.mem_of_mem_head? hc)

/-- Numbers and units are told apart by their letters. -/
theorem splitBy_spelling {segments : List (Text × Text)}
    (h : ∀ segment ∈ segments, IsSegment segment) :
    (spelling segments).splitBy (fun a b => isNumeric a == isNumeric b) =
      segments.flatMap fun segment => [segment.1, segment.2] := by
  induction segments with
  | nil => rfl
  | cons segment rest ih =>
      rw [List.forall_mem_cons] at h
      obtain ⟨hsegment, hrest⟩ := h
      have afterNumber : ∀ a ∈ segment.1.getLast?, ∀ b ∈ (segment.2 ++ spelling rest).head?,
          (isNumeric a == isNumeric b) = false := by
        intro a ha b hb
        rw [List.head?_append_of_ne_nil _ hsegment.unit_ne_nil] at hb
        rw [hsegment.isNumeric_number a (List.mem_of_mem_getLast? ha),
          hsegment.not_isNumeric_unit b (List.mem_of_mem_head? hb)]
        rfl
      have afterUnit : ∀ a ∈ segment.2.getLast?, ∀ b ∈ (spelling rest).head?,
          (isNumeric a == isNumeric b) = false := by
        intro a ha b hb
        rw [hsegment.not_isNumeric_unit a (List.mem_of_mem_getLast? ha),
          isNumeric_head_spelling hrest b hb]
        rfl
      rw [spelling_cons, List.splitBy_append afterNumber, List.splitBy_append afterUnit,
        splitBy_isNumeric hsegment.number_ne_nil hsegment.isNumeric_number,
        splitBy_isNumeric hsegment.unit_ne_nil hsegment.not_isNumeric_unit, ih hrest]
      rfl

theorem isSome_segmentNanos?_iff {segment : Text × Text} :
    (segmentNanos? segment).isSome = true ↔ IsSegment segment := by
  obtain ⟨number, unit⟩ := segment
  have hread : (segmentNanos? (number, unit)).isSome = true ↔
      (Binary64.parse? number).isSome = true ∧ (unitNanos? unit).isSome = true := by
    rw [segmentNanos?]
    cases Binary64.parse? number with
    | none => simp
    | some value => cases unitNanos? unit <;> simp
  rw [hread, Binary64.isSome_parse?_iff, Option.isSome_iff_exists]
  simp only [unitNanos?_eq_some_iff]
  exact ⟨fun h => ⟨h.1, h.2⟩, fun h => ⟨h.number, h.unit⟩⟩

theorem isSome_total_iff {segments : List (Text × Text)} (start : Binary64) :
    (segments.foldlM addSegment? start).isSome = true ↔
      ∀ segment ∈ segments, IsSegment segment := by
  induction segments generalizing start with
  | nil => simp
  | cons segment rest ih =>
      rw [List.foldlM_cons, List.forall_mem_cons, ← isSome_segmentNanos?_iff, addSegment?]
      cases segmentNanos? segment with
      | none => simp
      | some nanos =>
          refine Iff.trans ?_ (and_iff_right rfl).symm
          exact ih (start.add nanos)

/-- A row of segments is neither a number by itself nor signed. -/
theorem word?_spelling {segments : List (Text × Text)} (filled : segments ≠ [])
    (h : ∀ segment ∈ segments, IsSegment segment) : word? (spelling segments) = none := by
  cases hword : word? (spelling segments) with
  | none => rfl
  | some n =>
      obtain ⟨⟨digits, -, hdigits, hsign, -⟩, -⟩ := word?_eq_some_iff.mp hword
      obtain ⟨segment, hsegment⟩ := List.exists_mem_of_ne_nil _ filled
      obtain ⟨nanos, hunit⟩ := (h segment hsegment).unit
      obtain ⟨hne, hletters⟩ := letters_of_mem_units _ hunit
      obtain ⟨c, hc⟩ := List.exists_mem_of_ne_nil _ hne
      have hmem : c ∈ spelling segments :=
        List.mem_flatMap.mpr ⟨segment, hsegment, List.mem_append_right _ hc⟩
      obtain ⟨hnumeric, hplus, -⟩ := hletters c hc
      have hdigit : c ∉ digits := fun hmem => by
        rw [isNumeric, hdigits c hmem] at hnumeric
        cases hnumeric
      rcases hsign with hsign | hsign
      · rw [hsign] at hmem
        exact absurd hmem hdigit
      · rw [hsign, List.mem_cons] at hmem
        exact absurd (hmem.resolve_left hplus) hdigit

theorem parse?_spelling {segments : List (Text × Text)} (filled : segments ≠ [])
    (h : ∀ segment ∈ segments, IsSegment segment) :
    parse? (spelling segments) = (segments.foldlM addSegment? (.finite 0)).bind fun total =>
      (total.roundBelow? UInt64.size).map Duration.mk := by
  have hpieces : segments? ((spelling segments).splitBy fun a b => isNumeric a == isNumeric b) =
      some segments := by
    refine segments?_eq_some_iff.mpr ⟨splitBy_spelling h, fun segment hsegment => ?_⟩
    exact List.all_eq_true.mpr (h segment hsegment).isNumeric_number
  rw [parse?, word?_spelling filled h]
  dsimp only
  rw [hpieces]
  simp only [Option.map_eq_bind]
  rfl

/-- What is read and is not a number by itself is a row of segments. -/
theorem exists_spelling {text : Text} {d : Duration} (hword : word? text = none)
    (h : parse? text = some d) : ∃ segments total, text = spelling segments ∧
      (∀ segment ∈ segments, IsSegment segment) ∧
      segments.foldlM addSegment? (.finite 0) = some total ∧
      total.roundBelow? UInt64.size = some d.nanos := by
  rw [parse?, hword] at h
  dsimp only at h
  obtain ⟨segments, hsegments, h⟩ := Option.bind_eq_some_iff.mp h
  obtain ⟨total, htotal, h⟩ := Option.bind_eq_some_iff.mp h
  obtain ⟨nanos, hnanos, h⟩ := Option.bind_eq_some_iff.mp h
  obtain rfl := Option.some.inj h
  refine ⟨segments, total, ?_, ?_, htotal, hnanos⟩
  · have hflatten := congrArg List.flatten (segments?_eq_some_iff.mp hsegments).1
    rwa [List.flatten_splitBy, flatten_pieces] at hflatten
  · apply (isSome_total_iff (.finite 0)).mp
    rw [htotal]
    rfl

theorem unitNanos_pos : ∀ unit ∈ units, 0 < unit.2 := by
  decide

/-- A segment whose number is a whole one. -/
structure Amount where
  digits : Text
  unit : Text
  unitNanos : Nat
  filled : digits ≠ []
  isDigit : ∀ c ∈ digits, c.isDigit = true
  isUnit : (unit, unitNanos) ∈ units

namespace Amount

def segment (a : Amount) : Text × Text := (a.digits, a.unit)

def nanos (a : Amount) : Nat := valueOf a.digits * a.unitNanos

/-- The nanoseconds of all amounts together. -/
def total (amounts : List Amount) : Nat := (amounts.map nanos).sum

theorem isSegment (a : Amount) : IsSegment a.segment where
  number :=
    { numeric := fun c hc => Or.inl (a.isDigit c hc)
      digit := by
        obtain ⟨c, hc⟩ := List.exists_mem_of_ne_nil _ a.filled
        exact ⟨c, hc, a.isDigit c hc⟩
      point := by
        rw [segment, Binary64.count_point_of_digits a.isDigit]
        exact Nat.zero_le 1 }
  unit := ⟨a.unitNanos, a.isUnit⟩

theorem isSegment_of_mem {amounts : List Amount} :
    ∀ s ∈ amounts.map segment, IsSegment s := by
  intro s hs
  obtain ⟨a, -, rfl⟩ := List.mem_map.mp hs
  exact a.isSegment

theorem segmentNanos?_segment {a : Amount} (small : a.nanos < 2 ^ 53) :
    segmentNanos? a.segment = some (.whole a.nanos) := by
  have hvalue : Binary64.digitsValue a.digits = valueOf a.digits := foldl_digits a.digits
  have hdigits : valueOf a.digits < 2 ^ 53 :=
    (Nat.le_mul_of_pos_right _ (unitNanos_pos _ a.isUnit)).trans_lt small
  rw [segmentNanos?, segment, Binary64.parse?_digits a.filled a.isDigit,
    unitNanos?_eq_some_iff.mpr a.isUnit, hvalue, Binary64.ofDecimal_whole hdigits]
  exact congrArg some (Binary64.scale_whole small)

/-- Adding whole numbers one after the other loses nothing while the sum is small. -/
theorem foldlM_addSegment? {amounts : List Amount} {start : Nat}
    (small : start + total amounts < 2 ^ 53) :
    (amounts.map segment).foldlM addSegment? (.whole start) =
      some (.whole (start + total amounts)) := by
  induction amounts generalizing start with
  | nil => rfl
  | cons a rest ih =>
      have htotal : total (a :: rest) = a.nanos + total rest := List.sum_cons
      rw [htotal, ← Nat.add_assoc] at small ⊢
      have hfirst : addSegment? (.whole start) a.segment = some (.whole (start + a.nanos)) := by
        rw [addSegment?, segmentNanos?_segment (by omega), Option.map_some,
          Binary64.add_whole (by omega)]
      rw [List.map_cons, List.foldlM_cons, hfirst]
      exact ih small

theorem parse?_spelling {amounts : List Amount} (filled : amounts ≠ [])
    (small : total amounts < 2 ^ 53) :
    parse? (spelling (amounts.map segment)) = some ⟨total amounts⟩ := by
  have hsum : (amounts.map segment).foldlM addSegment? (.finite 0) =
      some (.whole (total amounts)) := by
    have h := foldlM_addSegment? ((Nat.zero_add _).trans_lt small)
    rwa [Nat.zero_add, Binary64.whole_zero] at h
  have hlimit : total amounts < UInt64.size := small.trans (by decide)
  rw [Duration.parse?_spelling (by simpa using filled) isSegment_of_mem, hsum, Option.bind_some,
    Binary64.roundBelow?_whole hlimit, Option.map_some]

end Amount

theorem isBlank_of_isNumeric {c : Char} (h : isNumeric c = true) : Blank.isBlank c = false := by
  have hrange : '.'.toNat ≤ c.toNat ∧ c.toNat ≤ '9'.toNat := by
    rw [isNumeric, Bool.or_eq_true, beq_iff_eq] at h
    rcases h with hdigit | rfl
    · simp only [Char.isDigit, Bool.and_eq_true, decide_eq_true_eq, ge_iff_le,
        UInt32.le_iff_toNat_le] at hdigit
      exact ⟨Nat.le_trans (by decide) hdigit.1, hdigit.2⟩
    · decide
  have hpoint : '.'.toNat = 0x2e := rfl
  have hnine : '9'.toNat = 0x39 := rfl
  simp only [Blank.isBlank, Bool.or_eq_false_iff, Bool.and_eq_false_iff, decide_eq_false_iff_not,
    beq_eq_false_iff_ne]
  omega

theorem isBlank_of_mem_spelling {segments : List (Text × Text)}
    (h : ∀ segment ∈ segments, IsSegment segment) :
    ∀ c ∈ spelling segments, Blank.isBlank c = false := by
  intro c hc
  obtain ⟨segment, hsegment, hc⟩ := List.mem_flatMap.mp hc
  rcases List.mem_append.mp hc with hnumber | hunit
  · exact isBlank_of_isNumeric ((h segment hsegment).isNumeric_number c hnumber)
  · obtain ⟨nanos, hmem⟩ := (h segment hsegment).unit
    exact ((letters_of_mem_units _ hmem).2 c hunit).2.2

theorem spelling_ne_nil {segments : List (Text × Text)} (filled : segments ≠ [])
    (h : ∀ segment ∈ segments, IsSegment segment) : spelling segments ≠ [] := by
  cases segments with
  | nil => exact absurd rfl filled
  | cons segment rest =>
      rw [spelling_cons]
      exact List.append_ne_nil_of_left_ne_nil (h segment List.mem_cons_self).number_ne_nil _

section Surrounded

variable {before after : Text} {segments : List (Text × Text)}

theorem parseLimit?_spelling (hbefore : ∀ c ∈ before, Blank.isBlank c = true)
    (hafter : ∀ c ∈ after, Blank.isBlank c = true) (filled : segments ≠ [])
    (h : ∀ segment ∈ segments, IsSegment segment) :
    parseLimit? (before ++ spelling segments ++ after) =
      (parse? (spelling segments)).filter fun d => !d.isZero := by
  have hplain : (spelling segments).head? ≠ some '-' := fun hminus =>
    absurd (isNumeric_head_spelling h '-' hminus) (by decide)
  have hne := spelling_ne_nil filled h
  rw [parseLimit?, Blank.trim_append hbefore hafter (isBlank_of_mem_spelling h) hne]
  exact if_neg hplain

theorem parseLimit?_minus (hbefore : ∀ c ∈ before, Blank.isBlank c = true)
    (hafter : ∀ c ∈ after, Blank.isBlank c = true)
    (h : ∀ segment ∈ segments, IsSegment segment) :
    parseLimit? (before ++ ('-' :: spelling segments) ++ after) = none := by
  have solid : ∀ c ∈ '-' :: spelling segments, Blank.isBlank c = false :=
    List.forall_mem_cons.mpr ⟨by decide, isBlank_of_mem_spelling h⟩
  rw [parseLimit?, Blank.trim_append hbefore hafter solid (List.cons_ne_nil _ _)]
  exact if_pos rfl

end Surrounded

theorem parseLimit?_of_spells {text : Text} {n : Nat} (h : Spells (Blank.trim text) n)
    (positive : 0 < n) (small : n < 2 ^ 64) : parseLimit? text = some (ofSeconds n) := by
  have hplain : (Blank.trim text).head? ≠ some '-' := by
    obtain ⟨digits, filled, hdigits, hsign, -⟩ := h
    rcases hsign with hsign | hsign
    · rw [hsign]
      exact fun hminus => absurd (hdigits '-' (List.mem_of_mem_head? hminus)) (by decide)
    · rw [hsign, List.head?_cons]
      decide
  have hlasting : (ofSeconds n).isZero = false := by
    have : 0 < (ofSeconds n).nanos := Nat.mul_pos positive (by decide)
    exact beq_eq_false_iff_ne.mpr (Nat.ne_of_gt this)
  rw [parseLimit?, if_neg hplain, parse?, word?_eq_some_iff.mpr ⟨h, small⟩, Option.filter_some,
    hlasting]
  rfl

theorem eq_of_parseLimit? {text : Text} {d : Duration} (h : parseLimit? text = some d) :
    parse? (Blank.trim text) = some d ∧ 0 < d.nanos := by
  rw [parseLimit?] at h
  split at h
  · cases h
  · rw [Option.filter_eq_some_iff, isZero, Bool.not_eq_true', beq_eq_false_iff_ne] at h
    exact ⟨h.1, Nat.pos_of_ne_zero h.2⟩

/-- What is set as a limit is a number of seconds or a row of segments. A number of seconds that
can be held is read as it stands, and a row of whole numbers is read as their sum if that is below
`2 ^ 53`; a minus sign before it takes the limit away. -/
theorem parseLimit?_reads :
    (∀ text d, parseLimit? text = some d →
      (∃ n, Spells (Blank.trim text) n ∧ 0 < n ∧ n < 2 ^ 64 ∧ d = ofSeconds n) ∨
      ∃ segments, segments ≠ [] ∧ (∀ segment ∈ segments, IsSegment segment) ∧
        Blank.trim text = spelling segments) ∧
    (∀ text n, Spells (Blank.trim text) n → 0 < n → n < 2 ^ 64 →
      parseLimit? text = some (ofSeconds n)) ∧
    ∀ (before after : Text) (amounts : List Amount), (∀ c ∈ before, Blank.isBlank c = true) →
      (∀ c ∈ after, Blank.isBlank c = true) →
      0 < Amount.total amounts → Amount.total amounts < 2 ^ 53 →
      parseLimit? (before ++ spelling (amounts.map Amount.segment) ++ after) =
        some ⟨Amount.total amounts⟩ ∧
      parseLimit? (before ++ ('-' :: spelling (amounts.map Amount.segment)) ++ after) = none := by
  refine ⟨fun text d h => ?_, fun text n h => parseLimit?_of_spells h, ?_⟩
  · obtain ⟨hread, positive⟩ := eq_of_parseLimit? h
    cases hword : word? (Blank.trim text) with
    | some n =>
        obtain ⟨hspells, small⟩ := word?_eq_some_iff.mp hword
        rw [parse?, hword] at hread
        obtain rfl := Option.some.inj hread
        exact Or.inl ⟨n, hspells, Nat.pos_of_mul_pos_right positive, small, rfl⟩
    | none =>
        obtain ⟨segments, total, htext, hsegments, hsum, hround⟩ := exists_spelling hword hread
        refine Or.inr ⟨segments, ?_, hsegments, htext⟩
        rintro rfl
        rw [List.foldlM_nil] at hsum
        rw [← Option.some.inj hsum, ← Binary64.whole_zero, Binary64.roundBelow?_whole (by decide)]
          at hround
        exact absurd (Option.some.inj hround) (Nat.ne_of_lt positive)
  · intro before after amounts hbefore hafter positive small
    have filled : amounts ≠ [] := by
      rintro rfl
      exact absurd positive (by decide)
    have hlasting : (⟨Amount.total amounts⟩ : Duration).isZero = false :=
      beq_eq_false_iff_ne.mpr (Nat.ne_of_gt positive)
    refine ⟨?_, parseLimit?_minus hbefore hafter Amount.isSegment_of_mem⟩
    rw [parseLimit?_spelling hbefore hafter (by simpa using filled) Amount.isSegment_of_mem,
      Amount.parse?_spelling filled small, Option.filter_some, hlasting]
    rfl

/-- Two segments, added up or taken away, and seconds with their sign. -/
theorem parseLimit?_minuteAndSeconds :
    (∃ n, Spells (Blank.trim "+90") n ∧ 0 < n ∧ n < 2 ^ 64 ∧ ofSeconds 90 = ofSeconds n) ∧
      parseLimit? "+90" = some (ofSeconds 90) ∧
      parseLimit? " 1m30s " = some ⟨90_000_000_000⟩ ∧ parseLimit? " -1m30s " = none := by
  have hseconds := parseLimit?_reads.2.1 "+90" 90
    ⟨"90", by decide, List.all_eq_true.mp rfl, Or.inr rfl, by decide⟩ (by decide) (by decide)
  have hamounts := parseLimit?_reads.2.2 " " " "
    [⟨"1", "m", 60_000_000_000, by decide, List.all_eq_true.mp rfl, by decide⟩,
      ⟨"30", "s", 1_000_000_000, by decide, List.all_eq_true.mp rfl, by decide⟩]
    (List.all_eq_true.mp rfl) (List.all_eq_true.mp rfl) (by decide) (by decide)
  refine ⟨(parseLimit?_reads.1 "+90" _ hseconds).resolve_right ?_, hseconds, hamounts⟩
  rintro ⟨segments, filled, hsegments, htext⟩
  have hnone := word?_spelling filled hsegments
  rw [← htext] at hnone
  exact absurd hnone (by decide)

end Duration

end Inlay
