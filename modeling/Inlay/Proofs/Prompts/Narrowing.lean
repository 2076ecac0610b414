import Inlay.Proofs.Prompts.Matching

namespace Inlay

namespace Text

theorem includes_iff (text part : Text) : includes text part = true ↔ part <:+: text := by
  induction text with
  | nil =>
      rw [includes, Bool.or_false, List.isPrefixOf_iff_prefix, List.infix_nil, List.prefix_nil]
  | cons c rest ih =>
      rw [includes, Bool.or_eq_true, List.isPrefixOf_iff_prefix, List.infix_cons_iff]
      exact or_congr_right ih

end Text

namespace Prompt.Choices

open Text

variable {cs : Choices} {entries : List Choice} {numbers : Bool} {text : Text}

/-- An entry matches a text that its value or its label contains, case aside. Where the entries are
numbered, it also matches a text that spells its number. -/
def Matches (numbers : Bool) (text : Text) (index : Nat) (entry : Choice) : Prop :=
  (numbers = true ∧ word? text = some (index + 1)) ∨
    Lowercase.lowercase text <:+: Lowercase.lowercase entry.value ∨
    Lowercase.lowercase text <:+: Lowercase.lowercase entry.label

theorem isMatch_iff (index : Nat) (entry : Choice) :
    isMatch numbers text index entry = true ↔ Matches numbers text index entry := by
  unfold isMatch Matches
  simp only [Bool.or_eq_true, Bool.and_eq_true, decide_eq_true_eq, includes_iff]
  constructor
  · rintro (((hempty | hnumber) | hvalue) | hlabel)
    · rw [List.isEmpty_iff.mp hempty]
      exact Or.inr (Or.inl (List.nil_infix))
    · exact Or.inl hnumber
    · exact Or.inr (Or.inl hvalue)
    · exact Or.inr (Or.inr hlabel)
  · rintro (hnumber | hvalue | hlabel)
    · exact Or.inl (Or.inl (Or.inr hnumber))
    · exact Or.inl (Or.inr hvalue)
    · exact Or.inr hlabel

/-- The entries that match are listed in order. -/
theorem pairwise_matching (first : Nat) :
    (matching numbers text first entries).Pairwise (· < ·) := by
  induction entries generalizing first with
  | nil => exact .nil
  | cons entry rest ih =>
      unfold matching
      dsimp only
      split
      · refine .cons (fun index hindex => ?_) (ih (first + 1))
        obtain ⟨place, -, rfl, -⟩ := (mem_matching (first + 1)).mp hindex
        omega
      · exact ih (first + 1)

namespace Lists

variable (h : cs.Lists entries numbers text)
include h

theorem mem_filtered_iff (index : Nat) : index ∈ cs.filtered ↔
    ∃ entry, entries[index]? = some entry ∧ Matches numbers text index entry := by
  rw [h.filtered, mem_matching]
  simp only [Nat.zero_add, isMatch_iff]
  constructor
  · rintro ⟨_, entry, rfl, found⟩
    exact ⟨entry, found⟩
  · rintro ⟨entry, found⟩
    exact ⟨index, entry, rfl, found⟩

theorem pairwise_filtered : cs.filtered.Pairwise (· < ·) :=
  h.filtered ▸ pairwise_matching 0

theorem lt_length {index : Nat} (listed : index ∈ cs.filtered) : index < entries.length := by
  obtain ⟨entry, found, -⟩ := (h.mem_filtered_iff index).mp listed
  exact (List.getElem?_eq_some_iff.mp found).1

/-- With another filter that something matches, some row is highlighted. -/
theorem isSome_current_setFilter {text' : Text} (other : text' ≠ text)
    (found : (cs.setFilter text').filtered ≠ []) : (cs.setFilter text').current.isSome := by
  unfold Choices.setFilter at found ⊢
  rw [← h.filter] at other
  rw [if_neg other] at found ⊢
  dsimp only at found ⊢
  rw [if_neg (mt List.isEmpty_iff.mp found)]
  split
  · split
    · rfl
    · rfl
  · rfl

end Lists

/-- What may be done to a list. -/
inductive Act where
  | highlight (index : Nat)
  | moveUp
  | moveDown
  | setFilter (filter : Text)
deriving DecidableEq

def act (cs : Choices) : Act → Choices
  | .highlight index => cs.highlight index
  | .moveUp => cs.moveUp
  | .moveDown => cs.moveDown
  | .setFilter filter => cs.setFilter filter

def afterAll (cs : Choices) (history : List Act) : Choices := history.foldl act cs

theorem afterAll_concat (cs : Choices) (history : List Act) (last : Act) :
    cs.afterAll (history ++ [last]) = (cs.afterAll history).act last :=
  List.foldl_concat ..

def Act.filter? : Act → Option Text
  | .setFilter filter => some filter
  | _ => none

/-- The filter that was set last. -/
def filterOf (history : List Act) : Text := (history.filterMap Act.filter?).getLastD []

theorem filterOf_concat (history : List Act) (last : Act) :
    filterOf (history ++ [last]) = last.filter?.getD (filterOf history) := by
  rw [filterOf, filterOf, List.filterMap_append]
  cases last with
  | setFilter filter => exact List.getLastD_concat ..
  | _ => exact congrArg (List.getLastD · []) (List.append_nil _)

theorem Lists.act (h : cs.Lists entries numbers text) (last : Act) :
    (cs.act last).Lists entries numbers (last.filter?.getD text) := by
  cases last with
  | highlight index => exact h.highlight index
  | moveUp => exact h.moveUp
  | moveDown => exact h.moveDown
  | setFilter filter => exact h.setFilter filter

theorem lists_afterAll (entries : List Choice) (displayCount : Nat) (numbers : Bool)
    (history : List Act) : ((ofEntries entries displayCount numbers).afterAll history).Lists
      entries numbers (filterOf history) := by
  induction history using List.reverseRecOn with
  | nil => exact lists_ofEntries entries displayCount numbers
  | append_singleton history last ih =>
      rw [afterAll_concat, filterOf_concat]
      exact ih.act last

/-- A list of which a row is highlighted, by its place counted round the list. -/
def StandsAt (cs : Choices) (place : Int) : Prop :=
  ∃ current, cs.current = some current ∧ current < cs.filtered.length ∧
    (current : Int) = place % cs.filtered.length

theorem standsAt_of_current {place : Nat} (h : cs.current = some place)
    (inside : place < cs.filtered.length) : cs.StandsAt place := by
  refine ⟨place, h, inside, ?_⟩
  rw [← Int.natCast_emod, Nat.mod_eq_of_lt inside]

namespace StandsAt

variable {place : Int} (h : cs.StandsAt place)
include h

theorem moveUp : cs.moveUp.StandsAt (place - 1) := by
  obtain ⟨current, hcurrent, inside, hplace⟩ := h
  have filled : cs.filtered.length ≠ 0 := Nat.ne_zero_of_lt inside
  have positive : 1 ≤ current + cs.filtered.length := by omega
  unfold Choices.moveUp
  dsimp only
  rw [if_neg filled, hcurrent, Option.getD_some]
  refine ⟨_, rfl, Nat.mod_lt _ (Nat.pos_of_ne_zero filled), ?_⟩
  have around (n : Int) : place % n + n - 1 = place % n - 1 + n := by omega
  dsimp only
  rw [Int.natCast_emod, Int.natCast_sub positive, Int.natCast_add, hplace, Int.natCast_one, around,
    Int.add_emod_right, Int.emod_sub_emod]

theorem moveDown : cs.moveDown.StandsAt (place + 1) := by
  obtain ⟨current, hcurrent, inside, hplace⟩ := h
  have filled : cs.filtered.length ≠ 0 := Nat.ne_zero_of_lt inside
  unfold Choices.moveDown
  dsimp only
  rw [if_neg filled, hcurrent]
  refine ⟨_, rfl, Nat.mod_lt _ (Nat.pos_of_ne_zero filled), ?_⟩
  dsimp only
  rw [Int.natCast_emod, Int.natCast_add, hplace, Int.natCast_one, Int.emod_add_emod]

/-- Of moves up and down only the numbers count. -/
theorem afterAll {moves : List Act} (only : ∀ act ∈ moves, act = .moveUp ∨ act = .moveDown) :
    (cs.afterAll moves).StandsAt
      (place + moves.count .moveDown - moves.count .moveUp) := by
  induction moves using List.reverseRecOn with
  | nil =>
      rw [List.count_nil, List.count_nil, Int.natCast_zero, Int.add_zero, Int.sub_zero]
      exact h
  | append_singleton moves last ih =>
      have stood := ih fun act hact => only act (List.mem_append_left _ hact)
      rw [afterAll_concat, List.count_append, List.count_append]
      rcases only last (List.mem_concat_self ..) with rfl | rfl
      · have hup : ([.moveUp] : List Act).count .moveUp = 1 := rfl
        have hdown : ([.moveUp] : List Act).count .moveDown = 0 := rfl
        rw [hup, hdown, Nat.add_zero, Int.natCast_succ, ← Int.sub_sub]
        exact stood.moveUp
      · have hup : ([.moveDown] : List Act).count .moveUp = 0 := rfl
        have hdown : ([.moveDown] : List Act).count .moveDown = 1 := rfl
        have onward (n d u : Int) : n + (d + 1) - u = n + d - u + 1 := by omega
        rw [hup, hdown, Nat.add_zero, Int.natCast_succ, onward]
        exact stood.moveDown

end StandsAt

theorem filtered_afterAll {moves : List Act}
    (only : ∀ act ∈ moves, act = .moveUp ∨ act = .moveDown) :
    (cs.afterAll moves).filtered = cs.filtered := by
  induction moves using List.reverseRecOn with
  | nil => rfl
  | append_singleton moves last ih =>
      refine Eq.trans ?_ (ih fun act hact => only act (List.mem_append_left _ hact))
      rw [afterAll_concat]
      rcases only last (List.mem_concat_self ..) with rfl | rfl
      · obtain ⟨current, moved⟩ := moveUp_eq (cs.afterAll moves)
        exact (congrArg filtered moved : (cs.afterAll moves).moveUp.filtered = _)
      · obtain ⟨current, moved⟩ := moveDown_eq (cs.afterAll moves)
        exact (congrArg filtered moved : (cs.afterAll moves).moveDown.filtered = _)

/-- A list that shows the entries that match a text and highlights one of them or none. -/
structure Consistent (entries : List Choice) (numbers : Bool) (text : Text) (cs : Choices) :
    Prop where
  listed : cs.entries = entries
  filter : cs.filter = text
  /-- The indexes that the list holds are those of the entries that match. -/
  exact : ∀ index, index ∈ cs.filtered ↔
    ∃ entry, entries[index]? = some entry ∧ Matches numbers text index entry
  increasing : cs.filtered.Pairwise (· < ·)
  inRange : ∀ index ∈ cs.filtered, index < entries.length
  valid : ∀ place, cs.current = some place → place < cs.filtered.length
  unmarked : cs.filtered = [] → cs.current = none

theorem Lists.consistent (h : cs.Lists entries numbers text) :
    cs.Consistent entries numbers text where
  listed := h.listed
  filter := h.filter
  exact := h.mem_filtered_iff
  increasing := h.pairwise_filtered
  inRange := fun _ => h.lt_length
  valid := h.inside
  unmarked := by
    intro hnil
    cases hcurrent : cs.current with
    | none => rfl
    | some place =>
        have inside := h.inside place hcurrent
        rw [hnil] at inside
        exact absurd inside (Nat.not_lt_zero place)

/-- After every history, a list is consistent with the filter that was set last; another filter
that an entry matches leaves a row highlighted; and moves lead round the list from any row that is
highlighted. -/
theorem consistent_afterAll (entries : List Choice) (displayCount : Nat) (numbers : Bool)
    (history : List Act) :
    let cs := (ofEntries entries displayCount numbers).afterAll history
    cs.Consistent entries numbers (filterOf history) ∧
      (∀ text index entry, text ≠ filterOf history → entries[index]? = some entry →
        Matches numbers text index entry → ∃ place, (cs.setFilter text).current = some place) ∧
      ∀ place moves, cs.current = some place →
        (∀ act ∈ moves, act = Act.moveUp ∨ act = Act.moveDown) →
          ∃ place', (cs.afterAll moves).current = some place' ∧
            (place' : Int) = ((place : Int) + moves.count .moveDown - moves.count .moveUp) %
              cs.filtered.length := by
  intro cs
  have lists : cs.Lists entries numbers (filterOf history) :=
    lists_afterAll entries displayCount numbers history
  refine ⟨lists.consistent, ?_, ?_⟩
  · intro text index entry other found hmatches
    have listed := ((lists.setFilter text).mem_filtered_iff index).mpr ⟨entry, found, hmatches⟩
    exact Option.isSome_iff_exists.mp
      (lists.isSome_current_setFilter other (List.ne_nil_of_mem listed))
  · intro place moves hcurrent only
    have stood := standsAt_of_current hcurrent (lists.inside place hcurrent)
    obtain ⟨place', hplace', -, around⟩ := stood.afterAll only
    rw [filtered_afterAll only] at around
    exact ⟨place', hplace', around⟩

/-- Two of three entries match, and the first of them is highlighted; one move up among four moves
down leads to the second. -/
theorem consistent_afterAll_fruits :
    let entries : List Choice := [⟨"apple", "Apple"⟩, ⟨"cherry", "Cherry"⟩, ⟨"pear", "Pear"⟩]
    let history : List Act := [.highlight 2, .setFilter "q", .setFilter "EA", .setFilter "P"]
    let cs := (ofEntries entries 6 false).afterAll history
    let moves : List Act := [.moveDown, .moveUp, .moveDown, .moveDown, .moveDown]
    cs.filtered = [0, 2] ∧ cs.current = some 0 ∧
      (∀ act ∈ moves, act = Act.moveUp ∨ act = Act.moveDown) ∧
      cs.Consistent entries false "P".toList ∧
      ∃ place, (cs.afterAll moves).current = some place ∧ (place : Int) = (0 + 4 - 1) % 2 := by
  intro entries history cs moves
  have hfiltered : cs.filtered = [0, 2] := by decide +kernel
  have hcurrent : cs.current = some 0 := by decide +kernel
  have only : ∀ act ∈ moves, act = Act.moveUp ∨ act = Act.moveDown := by decide
  obtain ⟨consistent, -, round⟩ := consistent_afterAll entries 6 false history
  obtain ⟨place, hplace, around⟩ := round 0 moves hcurrent only
  refine ⟨hfiltered, hcurrent, only, consistent, place, hplace, ?_⟩
  have hlength : (cs.filtered.length : Int) = 2 := by rw [hfiltered]; rfl
  exact around.trans (congrArg _ hlength)

end Prompt.Choices

end Inlay
