import Inlay.Binary64
import Mathlib.Data.List.TakeWhile
import Mathlib.Tactic.Ring

namespace Inlay.Binary64

theorem exists_one_eq : ∃ places, one = 2 ^ places := by
  unfold one
  generalize 1074 = places
  exact ⟨places, Nat.one_shiftLeft places⟩

theorem one_pos : 0 < one := by
  obtain ⟨places, hone⟩ := exists_one_eq
  rw [hone]
  exact Nat.two_pow_pos places

/-- What has at most 53 significant bits is not changed by rounding. -/
theorem roundQuotient_exact {m : Nat} (small : m < 2 ^ 53) (k : Nat) :
    roundQuotient (m * 2 ^ k) 1 = m * 2 ^ k := by
  have hshift : (m * 2 ^ k).log2 + 1 - 53 ≤ k := by
    rcases Nat.eq_zero_or_pos m with rfl | hm
    · simp
    · have hne : m * 2 ^ k ≠ 0 := Nat.ne_of_gt (Nat.mul_pos hm (Nat.two_pow_pos k))
      have hlt : m * 2 ^ k < 2 ^ (53 + k) := by
        rw [Nat.pow_add]
        exact Nat.mul_lt_mul_of_pos_right small (Nat.two_pow_pos k)
      have := (Nat.log2_lt hne).mpr hlt
      omega
  unfold roundQuotient
  rw [Nat.div_one]
  generalize (m * 2 ^ k).log2 + 1 - 53 = shift at hshift
  obtain ⟨q, hq⟩ : 2 ^ shift ∣ m * 2 ^ k := Dvd.dvd.mul_left (Nat.pow_dvd_pow 2 hshift) m
  have hpos : 0 < 2 ^ shift := Nat.two_pow_pos shift
  dsimp only
  rw [Nat.one_shiftLeft, hq, Nat.mul_mod_right, Nat.mul_div_cancel_left q hpos,
    if_neg (by omega), Nat.shiftLeft_eq, Nat.mul_comm]

/-- A whole number, if it is small enough to be told from the next. -/
def whole (n : Nat) : Binary64 := .finite (n * one)

theorem whole_zero : whole 0 = .finite 0 := congrArg finite (Nat.zero_mul one)

theorem ofUnits_whole {n : Nat} (small : n < 2 ^ 53) :
    ofUnits (roundQuotient (n * one) 1) = whole n := by
  obtain ⟨places, hone⟩ := exists_one_eq
  have hlt : n * one < one <<< 1024 := by
    have hroom : 53 ≤ 1024 := by decide
    generalize 1024 = room at hroom ⊢
    rw [Nat.shiftLeft_eq, Nat.mul_comm]
    apply Nat.mul_lt_mul_of_pos_left _ one_pos
    exact small.trans_le (Nat.pow_le_pow_right Nat.two_pos hroom)
  have hexact : roundQuotient (n * one) 1 = n * one := by
    rw [hone, roundQuotient_exact small]
  rw [hexact, ofUnits, if_pos hlt, whole]

theorem ofDecimal_whole {n : Nat} (small : n < 2 ^ 53) : ofDecimal n 0 = whole n :=
  ofUnits_whole small

theorem scale_whole {n factor : Nat} (small : n * factor < 2 ^ 53) :
    (whole n).scale factor = whole (n * factor) := by
  rw [whole, scale, Nat.mul_right_comm, ofUnits_whole small]

theorem add_whole {a b : Nat} (small : a + b < 2 ^ 53) :
    (whole a).add (whole b) = whole (a + b) := by
  rw [whole, whole, add, ← Nat.add_mul, ofUnits_whole small]

theorem roundBelow?_whole {n limit : Nat} (h : n < limit) :
    (whole n).roundBelow? limit = some n := by
  have hpos := one_pos
  have hlt : n * one < limit * one := Nat.mul_lt_mul_of_pos_right h hpos
  have hround : (2 * (n * one) + one) / (2 * one) = n := by
    have hsum : 2 * (n * one) + one = one + 2 * one * n := by ring
    rw [hsum, Nat.add_mul_div_left _ _ (by omega), Nat.div_eq_of_lt (by omega), Nat.zero_add]
  rw [whole, roundBelow?, if_pos hlt, hround]

theorem roundBelow?_le {limit n : Nat} {b : Binary64} (h : b.roundBelow? limit = some n) :
    n ≤ limit := by
  cases b with
  | infinite => cases h
  | finite units =>
      rw [roundBelow?] at h
      split at h
      · rename_i hlt
        have hpos := one_pos
        have hnext : (limit + 1) * (2 * one) = 2 * (limit * one) + 2 * one := by ring
        have hquotient : (2 * units + one) / (2 * one) < limit + 1 := by
          rw [Nat.div_lt_iff_lt_mul (by omega), hnext]
          omega
        rw [← Option.some.inj h]
        exact Nat.le_of_lt_succ hquotient
      · cases h

/-- Digits, at least one of them, and at most one point. -/
structure IsNumber (text : List Char) : Prop where
  numeric : ∀ c ∈ text, c.isDigit = true ∨ c = '.'
  digit : ∃ c ∈ text, c.isDigit = true
  point : text.count '.' ≤ 1

theorem ne_point_of_isDigit {c : Char} (h : c.isDigit = true) : c ≠ '.' := by
  rintro rfl
  cases h

theorem count_point_of_digits {text : List Char} (h : ∀ c ∈ text, c.isDigit = true) :
    text.count '.' = 0 :=
  List.count_eq_zero.mpr fun hmem => ne_point_of_isDigit (h _ hmem) rfl

theorem parse?_digits {digits : List Char} (filled : digits ≠ [])
    (h : ∀ c ∈ digits, c.isDigit = true) :
    parse? digits = some (ofDecimal (digitsValue digits) 0) := by
  have htake : digits.takeWhile Char.isDigit = digits := List.takeWhile_eq_self_iff.mpr h
  simp [parse?, htake, filled]

theorem parse?_append_cons {whole fraction : List Char} {c : Char}
    (hwhole : ∀ c ∈ whole, c.isDigit = true) (stop : c.isDigit = false) :
    parse? (whole ++ c :: fraction) =
      if whole = [] ∧ fraction = [] then none
      else if c = '.' ∧ fraction.all Char.isDigit = true then
        some (ofDecimal (digitsValue (whole ++ fraction)) fraction.length)
      else none := by
  have htake : (whole ++ c :: fraction).takeWhile Char.isDigit = whole := by
    rw [List.takeWhile_append_of_pos hwhole, List.takeWhile_cons_of_neg (by simp [stop]),
      List.append_nil]
  have hdrop : (whole ++ c :: fraction).drop whole.length = c :: fraction := List.drop_left
  have htail : (whole ++ c :: fraction).drop (whole.length + 1) = fraction := by
    rw [← List.tail_drop, hdrop, List.tail_cons]
  simp only [parse?, htake, hdrop, htail, Bool.and_eq_true, List.isEmpty_iff]

/-- Digits come first; then nothing, or something else. -/
theorem exists_digits (text : List Char) : ∃ whole rest, text = whole ++ rest ∧
    (∀ c ∈ whole, c.isDigit = true) ∧ ∀ c ∈ rest.head?, c.isDigit = false := by
  refine ⟨text.takeWhile Char.isDigit, text.dropWhile Char.isDigit,
    List.takeWhile_append_dropWhile.symm, fun c hc => List.mem_takeWhile_imp hc, ?_⟩
  intro c hc
  have h := List.head?_dropWhile_not Char.isDigit text
  rw [hc] at h
  exact h

/-- A text is read exactly if it is a number. -/
theorem isSome_parse?_iff {text : List Char} : (parse? text).isSome = true ↔ IsNumber text := by
  obtain ⟨whole, rest, rfl, hwhole, hrest⟩ := exists_digits text
  have hnumeric : ∀ c ∈ whole, c.isDigit = true ∨ c = '.' := fun c hc => Or.inl (hwhole c hc)
  cases rest with
  | nil =>
      rw [List.append_nil]
      cases whole with
      | nil => exact iff_of_false (by decide) fun h => by simpa using h.digit
      | cons d whole =>
          rw [parse?_digits (List.cons_ne_nil d whole) hwhole]
          refine iff_of_true rfl
            ⟨hnumeric, ⟨d, List.mem_cons_self, hwhole d List.mem_cons_self⟩, ?_⟩
          rw [count_point_of_digits hwhole]
          exact Nat.zero_le 1
  | cons c fraction =>
      have stop : c.isDigit = false := hrest c rfl
      rw [parse?_append_cons hwhole stop]
      split
      · rename_i none
        obtain ⟨rfl, rfl⟩ := none
        refine iff_of_false (by decide) fun h => ?_
        obtain ⟨d, hd, hdigit⟩ := h.digit
        rw [List.mem_singleton.mp hd, stop] at hdigit
        cases hdigit
      · rename_i some
        split
        · rename_i point
          obtain ⟨rfl, hall⟩ := point
          rw [List.all_eq_true] at hall
          refine iff_of_true rfl ⟨?_, ?_, ?_⟩
          · rw [List.forall_mem_append, List.forall_mem_cons]
            exact ⟨hnumeric, Or.inr rfl, fun c hc => Or.inl (hall c hc)⟩
          · cases whole with
            | cons d whole => exact ⟨d, List.mem_cons_self, hwhole d List.mem_cons_self⟩
            | nil =>
                obtain ⟨d, hd⟩ := List.exists_mem_of_ne_nil fraction fun hnil => some ⟨rfl, hnil⟩
                exact ⟨d, List.mem_cons_of_mem _ hd, hall d hd⟩
          · rw [List.count_append, List.count_cons, count_point_of_digits hwhole,
              count_point_of_digits hall]
            decide
        · rename_i other
          refine iff_of_false Bool.false_ne_true fun h => other ?_
          obtain ⟨-, hpoint, hfraction⟩ :=
            (List.forall_mem_append.trans (and_congr_right' List.forall_mem_cons)).mp h.numeric
          obtain rfl : c = '.' := hpoint.resolve_left (by simp [stop])
          have hcount := h.point
          rw [List.count_append, List.count_cons_self] at hcount
          have hnone : '.' ∉ fraction := List.count_eq_zero.mp (by omega)
          refine ⟨rfl, List.all_eq_true.mpr fun d hd => (hfraction d hd).resolve_right ?_⟩
          rintro rfl
          exact hnone hd

end Inlay.Binary64
