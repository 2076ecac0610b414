import Inlay.Proofs.Duration.Reading
import Inlay.Proofs.Token
/-!
Time limits set within one another. Each scope compares its own deadline with the earliest one
around it before the body runs; together the scopes blame the outermost limit whose deadline comes
first, and the caller's deadline before any of them. A limit that is read from a text can be counted
by the clock unless it is a bare number of too many seconds.
-/

namespace Inlay

/-- A time limit and when its scope was entered. -/
structure Scope where
  limit : Option Duration
  entered : Instant

namespace Scope

def limit? (scope : Scope) : Option Duration := scope.limit.filter fun d => !d.isZero

def deadline? (scope : Scope) : Option Instant := scope.limit?.map (scope.entered + ·.nanos)

/-- Whether the clock can count up to the deadline, if there is one. -/
def isCounted (scope : Scope) : Bool :=
  scope.limit?.all fun limit => (Instant.after? scope.entered limit).isSome

theorem deadline?_eq {scope : Scope} {limit : Duration} {deadline : Instant}
    (hlimit : scope.limit? = some limit)
    (hafter : Instant.after? scope.entered limit = some deadline) :
    scope.deadline? = some deadline := by
  rw [deadline?, hlimit, Option.map_some]
  unfold Instant.after? at hafter
  split at hafter
  · exact hafter
  · cases hafter

end Scope

namespace Token

variable {token : Token} {scope : Scope} {rest : List Scope}

/-- Lets `ask` run within scopes, the first of which is the outermost. -/
def askNested {σ α : Type} (token : Token) : List Scope →
    (Token → σ → Except Failure α × σ) → σ → Except Failure α × σ
  | [], ask, s => ask token s
  | scope :: rest, ask, s =>
      token.askWithin scope.limit scope.entered (fun token => token.askNested rest ask) s

/-- The earliest of the token's own deadline and those of the scopes. -/
def earliest (token : Token) (scopes : List Scope) : Option Instant :=
  (token.deadline.toList ++ scopes.filterMap Scope.deadline?).min?

/-- The limit that ends a wait within scopes: that of the outermost scope with the earliest
deadline, and none if the token's own deadline is as early. -/
def blamed? (token : Token) (scopes : List Scope) : Option Duration :=
  if token.deadline = token.earliest scopes then none
  else (scopes.find? fun scope => scope.deadline? = token.earliest scopes).bind Scope.limit?

theorem earliest_eq_some_iff {e : Instant} : token.earliest rest = some e ↔
    (token.deadline = some e ∨ ∃ scope ∈ rest, scope.deadline? = some e) ∧
      (∀ d, token.deadline = some d → e ≤ d) ∧
      ∀ scope ∈ rest, ∀ d, scope.deadline? = some d → e ≤ d := by
  simp only [earliest, List.min?_eq_some_iff, List.mem_append, Option.mem_toList,
    List.mem_filterMap]
  refine and_congr Iff.rfl ⟨fun h => ⟨fun d hd => h d (Or.inl hd), fun scope hscope d hd =>
    h d (Or.inr ⟨scope, hscope, hd⟩)⟩, fun h d hd => ?_⟩
  rcases hd with hd | ⟨scope, hscope, hd⟩
  · exact h.1 d hd
  · exact h.2 scope hscope d hd

theorem deadline_of_earliest (h : token.earliest rest = none) : token.deadline = none := by
  rw [earliest, List.min?_eq_none_iff, List.append_eq_nil_iff] at h
  exact Option.toList_eq_nil_iff.mp h.1

theorem earliest_cons_of_none (h : scope.deadline? = none) :
    token.earliest (scope :: rest) = token.earliest rest := by
  rw [earliest, List.filterMap_cons_none h, earliest]

theorem earliest_cons {deadline : Instant} (token : Token) (rest : List Scope)
    (h : scope.deadline? = some deadline) :
    token.earliest (scope :: rest) = (token.withDeadline deadline).earliest rest := by
  rw [earliest, List.filterMap_cons_some h, earliest, withDeadline]
  cases token.deadline with
  | none => rfl
  | some existing => rfl

theorem blamed?_cons_of_none (h : scope.deadline? = none) :
    token.blamed? (scope :: rest) = token.blamed? rest := by
  rw [blamed?, blamed?, earliest_cons_of_none h]
  split
  · rfl
  · rename_i later
    have hne : scope.deadline? ≠ token.earliest rest := fun heq =>
      later ((deadline_of_earliest (heq.symm.trans h)).trans (h.symm.trans heq))
    rw [List.find?_cons_of_neg (by simpa using hne)]

theorem deadline_withDeadline (token : Token) (deadline : Instant) :
    (token.withDeadline deadline).deadline =
      if token.deadline.all (deadline < ·) then some deadline else token.deadline := by
  rw [withDeadline]
  cases token.deadline with
  | none => rfl
  | some existing =>
      dsimp only
      rw [Option.all_some]
      split
      · rename_i ours
        rw [min_eq_right (Nat.le_of_lt (of_decide_eq_true ours))]
      · rename_i theirs
        rw [decide_eq_true_eq, not_lt] at theirs
        rw [min_eq_left theirs]

/-- A scope whose deadline is earlier than the one around it is blamed unless a scope within it has
an earlier one still. -/
theorem blamed?_cons {limit : Duration} {deadline : Instant} (hlimit : scope.limit? = some limit)
    (hdeadline : scope.deadline? = some deadline) :
    token.blamed? (scope :: rest) = ((token.withDeadline deadline).blamed? rest).or
      (if token.deadline.all (deadline < ·) then some limit else none) := by
  have hwithin := deadline_withDeadline token deadline
  have hearliest := earliest_cons token rest hdeadline
  obtain ⟨e, he⟩ : ∃ e, token.earliest (scope :: rest) = some e := by
    rw [← Option.ne_none_iff_exists', hearliest]
    exact fun hnone => Option.some_ne_none _ (deadline_of_earliest hnone)
  obtain ⟨attained, hcaller, hscopes⟩ := earliest_eq_some_iff.mp he
  have hle : e ≤ deadline := hscopes scope List.mem_cons_self deadline hdeadline
  rw [he] at hearliest
  rw [blamed?, blamed?, he, ← hearliest, hwithin]
  -- the earliest deadline is the caller's, this scope's, or else that of a scope within it
  by_cases caller : token.deadline = some e
  · have theirs : ¬token.deadline.all (deadline < ·) = true := by
      simpa [caller] using hle
    rw [if_neg theirs, if_neg theirs, if_pos caller, if_pos caller, Option.none_or]
  · rw [if_neg caller]
    by_cases own : deadline = e
    · obtain rfl := own
      have ours : token.deadline.all (deadline < ·) = true := by
        cases hd : token.deadline with
        | none => rfl
        | some d =>
            refine decide_eq_true (lt_of_le_of_ne (hcaller d hd) ?_)
            rintro rfl
            exact caller hd
      rw [if_pos ours, if_pos ours, if_pos rfl, Option.none_or,
        List.find?_cons_of_pos (by simpa using hdeadline), Option.bind_some, hlimit]
    · have hskip : scope.deadline? ≠ some e := by
        rw [hdeadline, Ne, Option.some.injEq]
        exact own
      have hlater : (if token.deadline.all (deadline < ·) then some deadline
          else token.deadline) ≠ some e := by
        split
        · exact fun heq => own (Option.some.inj heq)
        · exact caller
      rw [if_neg hlater, List.find?_cons_of_neg (by simpa using hskip)]
      obtain ⟨inner, hinner, hattains⟩ := attained.resolve_left caller
      have hrest : inner ∈ rest := by
        refine (List.mem_cons.mp hinner).resolve_left ?_
        rintro rfl
        exact hskip hattains
      have hfound : (rest.find? fun scope => scope.deadline? = some e).isSome = true :=
        List.find?_isSome.mpr ⟨inner, hrest, decide_eq_true hattains⟩
      obtain ⟨found, hfind⟩ := Option.isSome_iff_exists.mp hfound
      have hfits : found.deadline? = some e := by simpa using List.find?_some hfind
      obtain ⟨blamed, hblamed, -⟩ := Option.map_eq_some_iff.mp hfits
      rw [hfind, Option.bind_some, hblamed, Option.some_or]

/-- However time limits are nested, the wait runs under the earliest of all deadlines, if the clock
can count up to each of them. If that is what ends it, the outermost limit that sets it is blamed,
or none if the caller's own deadline is as early; any other outcome is handed on. Where the clock
cannot count up to the deadline of a scope, entering it ends all in the overflow of the clock, and
the wait is not begun. -/
theorem askNested_blames {σ α : Type} (token : Token) (scopes : List Scope)
    (ask : Token → σ → Except Failure α × σ) (s : σ) :
    token.askNested scopes ask s =
      if scopes.all Scope.isCounted then
        (ask { token with deadline := token.earliest scopes } s).map
          (blaming (token.blamed? scopes)) id
      else (.error .clockOverflow, s) := by
  -- what a scope decides before the body runs depends on the token that the scopes around it left
  induction scopes generalizing token with
  | nil =>
      have hearliest : token.earliest [] = token.deadline := by
        cases h : token.deadline <;> rw [earliest, h] <;> rfl
      rw [List.all_nil, if_pos rfl, blamed?, hearliest, if_pos rfl, blaming_none, Prod.map_id]
      rfl
  | cons scope rest ih =>
      rw [askNested, List.all_cons]
      cases hlimit : scope.limit? with
      | none =>
          have hdeadline : scope.deadline? = none := congrArg _ hlimit
          have hcounted : scope.isCounted = true := congrArg _ hlimit
          rw [askWithin_of_none hlimit _ _, ih, earliest_cons_of_none hdeadline,
            blamed?_cons_of_none hdeadline, hcounted, Bool.true_and]
      | some limit =>
          have hcounted : scope.isCounted = (Instant.after? scope.entered limit).isSome :=
            congrArg _ hlimit
          cases hafter : Instant.after? scope.entered limit with
          | none =>
              rw [askWithin_of_uncounted hlimit hafter _ _, hcounted, hafter, if_neg (by simp)]
          | some deadline =>
              have hdeadline := Scope.deadline?_eq hlimit hafter
              rw [askWithin_of_counted hlimit hafter _ _, ih, earliest_cons _ _ hdeadline,
                blamed?_cons hlimit hdeadline, hcounted, hafter, Option.isSome_some, Bool.true_and]
              by_cases hrest : rest.all Scope.isCounted = true
              · rw [if_pos hrest, if_pos hrest, Prod.map_map, blaming_comp_blaming]
                rfl
              · rw [if_neg hrest, if_neg hrest]
                rfl

section

open Text Duration

variable {σ α : Type} {raw : Text} {d : Duration} {now : Instant}

theorem limit?_of_parseLimit? (parsed : parseLimit? raw = some d) (now : Instant) :
    (⟨some d, now⟩ : Scope).limit? = some d := by
  have hlasting : d.isZero = false :=
    beq_eq_false_iff_ne.mpr (Nat.ne_of_gt (eq_of_parseLimit? parsed).2)
  rw [Scope.limit?, Option.filter_some, hlasting]
  rfl

/-- Only bare numbers of seconds are read as more than a word of nanoseconds. -/
theorem eq_ofSeconds_or_le (parsed : parseLimit? raw = some d) :
    (∃ n < 2 ^ 64, Spells (Blank.trim raw) n ∧ d = ofSeconds n) ∨ d.nanos ≤ UInt64.size := by
  have hread := (eq_of_parseLimit? parsed).1
  cases hword : word? (Blank.trim raw) with
  | some n =>
      obtain ⟨hspells, small⟩ := word?_eq_some_iff.mp hword
      rw [Duration.parse?, hword] at hread
      exact Or.inl ⟨n, small, hspells, (Option.some.inj hread).symm⟩
  | none =>
      obtain ⟨segments, total, -, -, -, hround⟩ := exists_spelling hword hread
      exact Or.inr (Binary64.roundBelow?_le hround)

/-- While the clock has a word of nanoseconds left, every limit that is read can be used, unless it
is a bare number of more seconds than are left. -/
theorem askWithin_parsed (parsed : parseLimit? raw = some d)
    (running : now + UInt64.size < (1 <<< 63) * nanosPerSecond) (token : Token)
    (ask : Token → σ → Except Failure α × σ) (s : σ) :
    ((∀ n < 2 ^ 64, Spells (Blank.trim raw) n →
        now + n * nanosPerSecond < (1 <<< 63) * nanosPerSecond) →
      token.askWithin (some d) now ask s = (ask (token.withDeadline (now + d.nanos)) s).map
        (blaming (if token.deadline.all (now + d.nanos < ·) then some d else none)) id) ∧
    ∀ n < 2 ^ 64, Spells (Blank.trim raw) n →
      (1 <<< 63) * nanosPerSecond ≤ now + n * nanosPerSecond →
      token.askWithin (some d) now ask s = (.error .clockOverflow, s) := by
  have hlimit := limit?_of_parseLimit? parsed now
  constructor
  · intro hfits
    have hcounted : now + d.nanos < (1 <<< 63) * nanosPerSecond := by
      rcases eq_ofSeconds_or_le parsed with ⟨n, small, hspells, rfl⟩ | hle
      · exact hfits n small hspells
      · exact lt_of_le_of_lt (Nat.add_le_add_left hle now) running
    exact askWithin_of_counted hlimit (if_pos hcounted) ask s
  · intro n small hspells hbeyond
    have hread := (eq_of_parseLimit? parsed).1
    rw [Duration.parse?, word?_eq_some_iff.mpr ⟨hspells, small⟩] at hread
    obtain rfl := Option.some.inj hread
    exact askWithin_of_uncounted hlimit (if_neg (Nat.not_lt.mpr hbeyond)) ask s

theorem askWithin_parsed_ninetySeconds :
    parseLimit? "90" = some (ofSeconds 90) ∧ UInt64.size < (1 <<< 63) * nanosPerSecond ∧
      ({ family := 0 } : Token).askWithin (some (ofSeconds 90)) 0
        (fun _ s => ((.error .deadlineExceeded : Except Failure Unit), s)) () =
          (.error (.timeout (ofSeconds 90)), ()) := by
  have parsed : parseLimit? "90" = some (ofSeconds 90) :=
    parseLimit?_of_spells
      ⟨"90", by decide, List.all_eq_true.mp rfl, Or.inl (by decide), by decide⟩
      (by decide) (by decide)
  refine ⟨parsed, by decide,
    (askWithin_parsed parsed (by decide) _ _ _).1 fun n small hspells => ?_⟩
  have hninety : word? (Blank.trim "90") = some 90 := by decide
  rw [word?_eq_some_iff.mpr ⟨hspells, small⟩] at hninety
  rw [Option.some.inj hninety]
  decide

/-- The greatest number of seconds that is read can never be used. -/
theorem askWithin_greatest :
    parseLimit? "18446744073709551615" = some (ofSeconds 18446744073709551615) ∧
      ∀ (token : Token) (now : Instant) (ask : Token → Unit → Except Failure Unit × Unit),
        token.askWithin (some (ofSeconds 18446744073709551615)) now ask () =
          (.error .clockOverflow, ()) := by
  have parsed : parseLimit? "18446744073709551615" = some (ofSeconds 18446744073709551615) :=
    parseLimit?_of_spells
      ⟨"18446744073709551615", by decide, List.all_eq_true.mp rfl, Or.inl (by decide), by decide⟩
      (by decide) (by decide)
  have hbeyond : (1 <<< 63) * nanosPerSecond ≤ (ofSeconds 18446744073709551615).nanos := by decide
  refine ⟨parsed, fun token now ask => ?_⟩
  generalize ofSeconds 18446744073709551615 = d at parsed hbeyond
  have hafter : Instant.after? now d = none :=
    if_neg (Nat.not_lt.mpr (hbeyond.trans (Nat.le_add_left _ _)))
  exact askWithin_of_uncounted (limit?_of_parseLimit? parsed now) hafter ask ()

end

end Token

end Inlay
