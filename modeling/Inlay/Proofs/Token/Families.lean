import Inlay.Token
import Mathlib.Logic.Relation
import Mathlib.Order.Bounds.Basic
/-!
Tokens that are made one from another. All that come from one new token, however far apart, are
cancelled together, for good, and no others with them. A deadline is handed on to the tokens made
from the one that has it and to no others, so of all deadlines given on the way to a token the
earliest is its own.
-/

namespace Inlay

/-- A token made from another, with a deadline if one is given. -/
def Token.derive (token : Token) (deadline : Option Instant) : Token :=
  deadline.elim token token.withDeadline

/-- How a token came to be: anew, or from one made before. -/
inductive Origin where
  | new
  | derived (parent : Nat) (deadline : Option Instant)
deriving DecidableEq, Repr

structure MadeToken where
  token : Token
  origin : Origin
deriving DecidableEq, Repr

/-- The tokens made so far, which are told by number, and those that were called off. -/
structure Tokens where
  watch : Watch := {}
  made : List MadeToken := []
  called : List Nat := []
deriving DecidableEq, Repr

namespace Tokens

inductive Turn where
  | new
  | clone (i : Nat)
  | withDeadline (i : Nat) (deadline : Instant)
  | within (i : Nat) (span : Duration)
  | cancel (i : Nat)
  | wait (nanos : Nat)
deriving DecidableEq, Repr

def token? (t : Tokens) (i : Nat) : Option Token := t.made[i]?.map MadeToken.token

def origin? (t : Tokens) (i : Nat) : Option Origin := t.made[i]?.map MadeToken.origin

def add (t : Tokens) (token : Token) (origin : Origin) : Tokens :=
  { t with made := t.made ++ [⟨token, origin⟩] }

/-- Nothing comes of a turn with a token that was not made, or of a span that the clock cannot
count. -/
def turn (t : Tokens) : Turn → Tokens
  | .new =>
      let (token, watch) := t.watch.newToken
      { t with watch := watch }.add token .new
  | .clone i =>
      match t.token? i with
      | some token => t.add token (.derived i none)
      | none => t
  | .withDeadline i deadline =>
      match t.token? i with
      | some token => t.add (token.withDeadline deadline) (.derived i (some deadline))
      | none => t
  | .within i span =>
      match (t.token? i).bind fun token => token.within? span t.watch with
      | some token => t.add token (.derived i (some (t.watch.now + span.nanos)))
      | none => t
  | .cancel i =>
      match t.token? i with
      | some token => { t with watch := t.watch.cancel token, called := i :: t.called }
      | none => t
  | .wait nanos => { t with watch := t.watch.advance nanos }

def after (t : Tokens) (turns : List Turn) : Tokens := turns.foldl turn t

def MadeFrom (t : Tokens) (i j : Nat) : Prop := ∃ deadline, t.origin? j = some (.derived i deadline)

/-- Whether `j` comes from `i`, over any number of steps. -/
def Descends (t : Tokens) : Nat → Nat → Prop := Relation.ReflTransGen t.MadeFrom

/-- Whether steps in either direction lead from one to the other. -/
def Related (t : Tokens) : Nat → Nat → Prop := Relation.EqvGen t.MadeFrom

/-- The deadlines that were given on the way to a token. -/
def given (t : Tokens) (j : Nat) : Set Instant :=
  {deadline | ∃ i, t.Descends i j ∧ ∃ parent, t.origin? i = some (.derived parent (some deadline))}

def Earliest (deadlines : Set Instant) : Option Instant → Prop
  | none => deadlines = ∅
  | some deadline => IsLeast deadlines deadline

variable {t t' : Tokens} {i j : Nat} {token other : Token} {m : MadeToken}

inductive Goes (t : Tokens) : Tokens → Prop where
  | rests : Goes t t
  | new : Goes t ({ t with watch := t.watch.newToken.2 }.add t.watch.newToken.1 .new)
  | derive {i : Nat} {m : MadeToken} (made : t.made[i]? = some m) (deadline : Option Instant) :
      Goes t (t.add (m.token.derive deadline) (.derived i deadline))
  | cancel {i : Nat} {m : MadeToken} (made : t.made[i]? = some m) :
      Goes t { t with watch := t.watch.cancel m.token, called := i :: t.called }
  | wait (nanos : Nat) : Goes t { t with watch := t.watch.advance nanos }

theorem goes_turn (t : Tokens) (turn : Turn) : t.Goes (t.turn turn) := by
  cases turn with
  | new => exact .new
  | clone i =>
      rw [Tokens.turn]
      split
      · rename_i token htoken
        obtain ⟨m, hm, rfl⟩ := Option.map_eq_some_iff.mp htoken
        exact .derive hm none
      · exact .rests
  | withDeadline i deadline =>
      rw [Tokens.turn]
      split
      · rename_i token htoken
        obtain ⟨m, hm, rfl⟩ := Option.map_eq_some_iff.mp htoken
        exact .derive hm (some deadline)
      · exact .rests
  | within i span =>
      rw [Tokens.turn]
      split
      · rename_i token htoken
        obtain ⟨parent, hparent, hwithin⟩ := Option.bind_eq_some_iff.mp htoken
        obtain ⟨m, hm, rfl⟩ := Option.map_eq_some_iff.mp hparent
        obtain ⟨deadline, hafter, rfl⟩ := Option.map_eq_some_iff.mp hwithin
        have hdeadline : t.watch.now + span.nanos = deadline := by
          unfold Instant.after? at hafter
          split at hafter
          · exact Option.some.inj hafter
          · cases hafter
        rw [hdeadline]
        exact .derive hm (some deadline)
      · exact .rests
  | cancel i =>
      rw [Tokens.turn]
      split
      · rename_i token htoken
        obtain ⟨m, hm, rfl⟩ := Option.map_eq_some_iff.mp htoken
        exact .cancel hm
      · exact .rests
  | wait nanos => exact .wait nanos

/-- Tokens stay as they were made, and those that are cancelled stay cancelled. -/
structure Grows (t t' : Tokens) : Prop where
  made : t.made <+: t'.made
  cancelled : ∀ family ∈ t.watch.cancelled, family ∈ t'.watch.cancelled

namespace Grows

theorem refl (t : Tokens) : Grows t t := ⟨List.prefix_rfl, fun _ h => h⟩

theorem trans {t'' : Tokens} (h : Grows t t') (h' : Grows t' t'') : Grows t t'' :=
  ⟨h.made.trans h'.made, fun family hmem => h'.cancelled family (h.cancelled family hmem)⟩

theorem getElem? (h : Grows t t') (hj : t.made[j]? = some m) : t'.made[j]? = some m := by
  obtain ⟨more, hmore⟩ := h.made
  rw [← hmore, List.getElem?_append_left (List.getElem?_eq_some_iff.mp hj).1, hj]

theorem token? (h : Grows t t') (hj : t.token? j = some token) : t'.token? j = some token := by
  obtain ⟨m, hm, rfl⟩ := Option.map_eq_some_iff.mp hj
  exact congrArg _ (h.getElem? hm)

end Grows

theorem Goes.grows (h : t.Goes t') : Grows t t' := by
  cases h with
  | rests => exact .refl t
  | new | derive => exact ⟨List.prefix_append _ _, fun _ h => h⟩
  | cancel => exact ⟨List.prefix_rfl, fun _ => List.mem_cons_of_mem _⟩
  | wait => exact ⟨List.prefix_rfl, fun _ h => h⟩

theorem grows_after (t : Tokens) (turns : List Turn) : Grows t (t.after turns) := by
  induction turns generalizing t with
  | nil => exact .refl t
  | cons turn rest ih => exact (t.goes_turn turn).grows.trans (ih _)

/-- What a token is by its origin: one made anew begins a family, and one made from another takes
after it. -/
inductive Stems (made : List MadeToken) (j : Nat) : MadeToken → Prop where
  | new {token : Token} (unlimited : token.deadline = none)
      (first : ∀ i m, i < j → made[i]? = some m → m.token.family ≠ token.family) :
      Stems made j ⟨token, .new⟩
  | derived {i : Nat} {m : MadeToken} (earlier : i < j) (parent : made[i]? = some m)
      (deadline : Option Instant) : Stems made j ⟨m.token.derive deadline, .derived i deadline⟩

def family? (t : Tokens) (i : Nat) : Option Nat := (t.token? i).map Token.family

structure Sound (t : Tokens) : Prop where
  counted : ∀ m ∈ t.made, m.token.family < t.watch.families
  stems : ∀ j m, t.made[j]? = some m → Stems t.made j m
  present : ∀ i ∈ t.called, i < t.made.length
  cancelled : ∀ family, family ∈ t.watch.cancelled ↔ ∃ i ∈ t.called, t.family? i = some family

theorem Stems.append {made : List MadeToken} (h : Stems made j m) (there : j ≤ made.length)
    (more : List MadeToken) : Stems (made ++ more) j m := by
  have hsame : ∀ i, i < j → (made ++ more)[i]? = made[i]? := fun i earlier =>
    List.getElem?_append_left (Nat.lt_of_lt_of_le earlier there)
  cases h with
  | new unlimited first =>
      refine .new unlimited fun i m earlier hm => ?_
      rw [hsame i earlier] at hm
      exact first i m earlier hm
  | derived earlier parent deadline =>
      refine .derived earlier ?_ deadline
      rw [hsame _ earlier]
      exact parent

namespace Sound

theorem start : Sound {} :=
  ⟨nofun, nofun, nofun, fun _ => ⟨nofun, fun ⟨_, hcalled, _⟩ => nomatch hcalled⟩⟩

theorem family?_append (h : Sound t) (more : List MadeToken) :
    ∀ i ∈ t.called, family? { t with made := t.made ++ more } i = t.family? i := by
  intro i hcalled
  have hsame : (t.made ++ more)[i]? = t.made[i]? :=
    List.getElem?_append_left (h.present i hcalled)
  unfold family? token?
  rw [hsame]

/-- One more token, of a family that is counted. -/
theorem add (h : Sound t) (watch : Watch) (cancelled : watch.cancelled = t.watch.cancelled)
    (families : t.watch.families ≤ watch.families) {origin : Origin}
    (counted : token.family < watch.families) (stems : Stems t.made t.made.length ⟨token, origin⟩) :
    Sound ({ t with watch := watch }.add token origin) := by
  constructor
  case counted =>
    intro m hm
    rcases List.mem_append.mp hm with hold | hnew
    · exact Nat.lt_of_lt_of_le (h.counted m hold) families
    · rw [List.mem_singleton.mp hnew]
      exact counted
  case stems =>
    intro j m hm
    change (t.made ++ [_])[j]? = some m at hm
    change Stems (t.made ++ [_]) j m
    by_cases hlast : j < t.made.length
    · rw [List.getElem?_append_left hlast] at hm
      exact (h.stems j m hm).append (Nat.le_of_lt hlast) _
    · rw [List.getElem?_append_right (Nat.not_lt.mp hlast), List.getElem?_singleton] at hm
      split at hm
      · rename_i hzero
        obtain rfl := Option.some.inj hm
        obtain rfl : j = t.made.length :=
          Nat.le_antisymm (Nat.sub_eq_zero_iff_le.mp hzero) (Nat.not_lt.mp hlast)
        exact stems.append (Nat.le_refl _) _
      · cases hm
  case present =>
    intro i hcalled
    exact Nat.lt_of_lt_of_le (h.present i hcalled) (List.prefix_append _ _).length_le
  case cancelled =>
    intro family
    change family ∈ watch.cancelled ↔ _
    rw [cancelled, h.cancelled family]
    exact exists_congr fun i => and_congr_right fun hcalled => by
      rw [← h.family?_append [⟨token, origin⟩] i hcalled]
      rfl

theorem goes (h : Sound t) (hgoes : t.Goes t') : Sound t' := by
  cases hgoes with
  | rests => exact h
  | new =>
      have stems : Stems t.made t.made.length ⟨t.watch.newToken.1, .new⟩ :=
        .new rfl fun i m _ hm => Nat.ne_of_lt (h.counted m (List.mem_of_getElem? hm))
      exact h.add t.watch.newToken.2 rfl (Nat.le_succ _) (Nat.lt_succ_self _) stems
  | derive made deadline =>
      rename_i i m
      have hfamily : (m.token.derive deadline).family = m.token.family := by
        cases deadline <;> rfl
      refine h.add t.watch rfl (Nat.le_refl _) ?_
        (.derived (List.getElem?_eq_some_iff.mp made).1 made deadline)
      rw [hfamily]
      exact h.counted m (List.mem_of_getElem? made)
  | cancel made =>
      rename_i i m
      refine ⟨h.counted, h.stems, ?_, fun family => ?_⟩
      · intro j hj
        rcases List.mem_cons.mp hj with rfl | hold
        · exact (List.getElem?_eq_some_iff.mp made).1
        · exact h.present j hold
      · have hi : t.family? i = some m.token.family := by
          rw [family?, token?, made]
          rfl
        change family ∈ m.token.family :: t.watch.cancelled ↔ _
        simp only [List.mem_cons, h.cancelled family, or_and_right, exists_or, exists_eq_left]
        refine or_congr ?_ Iff.rfl
        change _ ↔ t.family? i = some family
        rw [hi, Option.some_inj]
        exact eq_comm
  | wait nanos => exact ⟨h.counted, h.stems, h.present, h.cancelled⟩

theorem after (h : Sound t) (turns : List Turn) : Sound (t.after turns) := by
  induction turns generalizing t with
  | nil => exact h
  | cons turn rest ih => exact ih (h.goes (t.goes_turn turn))

end Sound

theorem origin?_of_getElem? (hj : t.made[j]? = some m) : t.origin? j = some m.origin :=
  congrArg _ hj

theorem exists_of_token? (hj : t.token? j = some token) :
    ∃ m, t.made[j]? = some m ∧ m.token = token :=
  Option.map_eq_some_iff.mp hj

namespace Sound

variable (h : Sound t)

include h

/-- Every token comes from one that begins its family. -/
theorem exists_first (hj : t.made[j]? = some m) :
    ∃ i first, t.made[i]? = some first ∧ first.origin = .new ∧ t.Descends i j ∧
      first.token.family = m.token.family := by
  -- a token comes from one with a smaller number
  induction j using Nat.strong_induction_on generalizing m with
  | _ j ih =>
      cases h.stems j m hj with
      | new => exact ⟨j, _, hj, rfl, .refl, rfl⟩
      | derived earlier parent deadline =>
          rename_i i parentMade
          obtain ⟨k, first, hk, hnew, hdescends, hfamily⟩ := ih i earlier parent
          refine ⟨k, first, hk, hnew, hdescends.tail ⟨deadline, origin?_of_getElem? hj⟩, ?_⟩
          rw [hfamily]
          cases deadline <;> rfl

/-- Only one token begins a family. -/
theorem eq_of_new {first first' : MadeToken} (hi : t.made[i]? = some first)
    (hj : t.made[j]? = some first') (hnew : first.origin = .new) (hnew' : first'.origin = .new)
    (same : first.token.family = first'.token.family) : i = j := by
  rcases Nat.lt_trichotomy i j with hlt | heq | hlt
  · cases h.stems j first' hj with
    | new _ earliest => exact absurd same (earliest i first hlt hi)
    | derived => cases hnew'
  · exact heq
  · cases h.stems i first hi with
    | new _ earliest => exact absurd same.symm (earliest j first' hlt hj)
    | derived => cases hnew

theorem family?_of_madeFrom (made : t.MadeFrom i j) : t.family? i = t.family? j := by
  obtain ⟨deadline, horigin⟩ := made
  obtain ⟨m, hm, hderived⟩ := Option.map_eq_some_iff.mp horigin
  cases h.stems j m hm with
  | new => cases hderived
  | derived earlier parent deadline =>
      rename_i i' parentMade
      obtain ⟨rfl, -⟩ := Origin.derived.inj hderived
      rw [family?, family?, token?, token?, parent, hm]
      cases deadline <;> rfl

theorem family?_of_related (related : t.Related i j) : t.family? i = t.family? j := by
  induction related with
  | rel i j made => exact h.family?_of_madeFrom made
  | refl i => rfl
  | symm i j _ ih => exact ih.symm
  | trans i j k _ _ ih ih' => exact ih.trans ih'

/-- Two tokens are related if and only if they are of one family. -/
theorem related_iff (hi : t.token? i = some token) (hj : t.token? j = some other) :
    t.Related i j ↔ token.family = other.family := by
  constructor
  · intro related
    have hsame := h.family?_of_related related
    rw [family?, family?, hi, hj] at hsame
    exact Option.some.inj hsame
  · intro same
    obtain ⟨m, hm, rfl⟩ := exists_of_token? hi
    obtain ⟨m', hm', rfl⟩ := exists_of_token? hj
    obtain ⟨k, first, hk, hnew, hdescends, hfamily⟩ := h.exists_first hm
    obtain ⟨k', first', hk', hnew', hdescends', hfamily'⟩ := h.exists_first hm'
    obtain rfl : k = k' :=
      h.eq_of_new hk hk' hnew hnew' ((hfamily.trans same).trans hfamily'.symm)
    have hback : t.Related k i := Relation.EqvGen.reflTransGen_le_eqvGen _ _ _ hdescends
    have hforth : t.Related k j := Relation.EqvGen.reflTransGen_le_eqvGen _ _ _ hdescends'
    exact (hback.symm _ _).trans _ _ _ hforth

/-- A token is cancelled if and only if a related one was called off. -/
theorem isCancelled_iff (hi : t.token? i = some token) :
    token.isCancelled t.watch = true ↔ ∃ j ∈ t.called, t.Related j i := by
  have hfamily : t.family? i = some token.family := congrArg (Option.map Token.family) hi
  rw [Token.isCancelled, List.contains_iff_mem, h.cancelled]
  refine exists_congr fun j => and_congr_right fun _ => ?_
  constructor
  · intro same
    obtain ⟨other, hj, heq⟩ := Option.map_eq_some_iff.mp same
    exact (h.related_iff hj hi).mpr heq
  · intro related
    rw [h.family?_of_related related, hfamily]

end Sound

/-- A new token comes from no other. -/
theorem given_of_new (hj : t.origin? j = some .new) : t.given j = ∅ := by
  rw [Set.eq_empty_iff_forall_notMem]
  rintro d ⟨i, hdescends, parent, hi⟩
  rcases (Relation.ReflTransGen.cases_tail_iff _ _ _).mp hdescends with rfl | ⟨k, -, deadline, hk⟩
  · cases hj.symm.trans hi
  · cases hj.symm.trans hk

theorem given_of_derived {deadline : Option Instant}
    (hj : t.origin? j = some (.derived i deadline)) :
    t.given j = {d | deadline = some d} ∪ t.given i := by
  ext d
  constructor
  · rintro ⟨k, hdescends, parent, hk⟩
    rcases (Relation.ReflTransGen.cases_tail_iff _ _ _).mp hdescends with
      rfl | ⟨i', hdescends', deadline', hj'⟩
    · obtain ⟨-, rfl⟩ := Origin.derived.inj (Option.some.inj (hj.symm.trans hk))
      exact .inl rfl
    · obtain ⟨rfl, -⟩ := Origin.derived.inj (Option.some.inj (hj.symm.trans hj'))
      exact .inr ⟨k, hdescends', parent, hk⟩
  · rintro (rfl | ⟨k, hdescends, parent, hk⟩)
    · exact ⟨j, .refl, i, hj⟩
    · exact ⟨k, hdescends.tail ⟨deadline, hj⟩, parent, hk⟩

theorem given_subset (h : t.Descends i j) : t.given i ⊆ t.given j := by
  rintro d ⟨k, hdescends, hgiven⟩
  exact ⟨k, hdescends.trans h, hgiven⟩

/-- A deadline that is given is the earliest together with those before it. -/
theorem Earliest.withDeadline {deadlines : Set Instant} (h : Earliest deadlines token.deadline)
    (deadline : Instant) :
    Earliest ({d | some deadline = some d} ∪ deadlines) (token.withDeadline deadline).deadline := by
  have hgiven : {d | some deadline = some d} = {deadline} := by
    ext d
    exact Option.some_inj.trans eq_comm
  rw [hgiven, Set.singleton_union]
  rw [Token.withDeadline]
  cases hd : token.deadline with
  | none =>
      rw [hd] at h
      obtain rfl : deadlines = ∅ := h
      rw [insert_empty_eq]
      exact isLeast_singleton
  | some existing =>
      rw [hd] at h
      change IsLeast _ (min existing deadline)
      rw [min_comm]
      exact IsLeast.insert deadline h

theorem Sound.earliest_given (h : Sound t) (hj : t.made[j]? = some m) :
    Earliest (t.given j) m.token.deadline := by
  -- a token comes from one with a smaller number
  induction j using Nat.strong_induction_on generalizing m with
  | _ j ih =>
      cases h.stems j m hj with
      | new unlimited =>
          rw [given_of_new (origin?_of_getElem? hj), unlimited]
          rfl
      | derived earlier parent deadline =>
          have hparent := ih _ earlier parent
          rw [given_of_derived (origin?_of_getElem? hj)]
          cases deadline with
          | none =>
              have hnone : {d : Instant | none = some d} = ∅ := Set.eq_empty_of_forall_notMem nofun
              rw [hnone, Set.empty_union]
              exact hparent
          | some deadline => exact hparent.withDeadline deadline

theorem Earliest.le {deadlines deadlines' : Set Instant} {ending ending' : Option Instant}
    (h : Earliest deadlines ending) (h' : Earliest deadlines' ending')
    (sub : deadlines ⊆ deadlines') {d : Instant} (hd : ending = some d) :
    ∃ d', ending' = some d' ∧ d' ≤ d := by
  subst hd
  have hmem := sub h.1
  cases ending' with
  | none =>
      obtain rfl : deadlines' = ∅ := h'
      cases hmem
  | some d' => exact ⟨d', rfl, h'.2 hmem⟩

theorem isCancelled_turn_of_not_related (h : Sound t) (hi : t.token? i = some token)
    (apart : ¬ t.Related j i) :
    token.isCancelled (t.turn (.cancel j)).watch = token.isCancelled t.watch := by
  rw [turn]
  split
  · rename_i other hj
    have hne : token.family ≠ other.family := fun same =>
      apart ((h.related_iff hj hi).mpr same.symm)
    change (other.family :: t.watch.cancelled).contains token.family = _
    rw [List.contains_cons, beq_eq_false_iff_ne.mpr hne, Bool.false_or]
    rfl
  · rfl

theorem isExpired_of_descends (h : Sound t) (hi : t.token? i = some token)
    (hj : t.token? j = some other) (hdescends : t.Descends i j) {w : Watch}
    (expired : token.isExpired w = true) : other.isExpired w = true := by
  obtain ⟨m, hm, rfl⟩ := exists_of_token? hi
  obtain ⟨m', hm', rfl⟩ := exists_of_token? hj
  obtain ⟨d, hd, late⟩ := (Option.any_eq_true _ _).mp expired
  obtain ⟨d', hd', hle⟩ :=
    (h.earliest_given hm).le (h.earliest_given hm') (given_subset hdescends) hd
  rw [Token.isExpired, hd', Option.any_some]
  exact decide_eq_true (hle.trans (of_decide_eq_true late))

/-- Whatever is done with tokens, one of them is cancelled if and only if one that is related to it
was called off. It stays so, and none that is not related is touched. Its deadline is the earliest
of those given on the way to it, if there are any, and no token that comes from it ends later. -/
theorem tokens_formFamilies (turns : List Turn) (hi : (after {} turns).token? i = some token) :
    let t := after {} turns
    (token.isCancelled t.watch = true ↔ ∃ j ∈ t.called, t.Related j i) ∧
      (∀ later, (t.after later).token? i = some token ∧
        (token.isCancelled t.watch = true → token.isCancelled (t.after later).watch = true)) ∧
      (∀ j, ¬ t.Related j i →
        token.isCancelled (t.turn (.cancel j)).watch = token.isCancelled t.watch) ∧
      Earliest (t.given i) token.deadline ∧
      ∀ j other, t.token? j = some other → t.Descends i j →
        ∀ w, token.isExpired w = true → other.isExpired w = true := by
  intro t
  have sound : Sound t := Sound.start.after turns
  refine ⟨sound.isCancelled_iff hi, fun later => ?_, fun j => ?_, ?_, fun j other hj => ?_⟩
  · have grows := t.grows_after later
    refine ⟨grows.token? hi, fun cancelled => ?_⟩
    rw [Token.isCancelled, List.contains_iff_mem] at cancelled ⊢
    exact grows.cancelled _ cancelled
  · exact isCancelled_turn_of_not_related sound hi
  · obtain ⟨m, hm, rfl⟩ := exists_of_token? hi
    exact sound.earliest_given hm
  · exact fun hdescends w => isExpired_of_descends sound hi hj hdescends

/-- Four tokens made from one, the last of them called off, and one made anew. -/
def twoFamilies : List Turn :=
  [.new, .withDeadline 0 50, .wait 10, .within 1 ⟨30⟩, .clone 2, .withDeadline 3 70, .new,
    .cancel 4]

theorem tokens_formFamilies_twoFamilies :
    let t := after {} twoFamilies
    t.token? 0 = some ⟨0, none⟩ ∧ t.token? 4 = some ⟨0, some 40⟩ ∧ t.token? 5 = some ⟨1, none⟩ ∧
      t.called = [4] ∧ t.Related 4 0 ∧ ¬ t.Related 4 5 ∧ IsLeast (t.given 4) 40 := by
  intro t
  have first : t.token? 0 = some ⟨0, none⟩ := by decide
  have last : t.token? 4 = some ⟨0, some 40⟩ := by decide
  have apart : t.token? 5 = some ⟨1, none⟩ := by decide
  have called : t.called = [4] := by decide
  obtain ⟨cancelled, -⟩ := tokens_formFamilies twoFamilies first
  obtain ⟨uncancelled, -⟩ := tokens_formFamilies twoFamilies apart
  obtain ⟨-, -, -, earliest, -⟩ := tokens_formFamilies twoFamilies last
  refine ⟨first, last, apart, called, ?_, fun related => ?_, earliest⟩
  · obtain ⟨j, hj, related⟩ := cancelled.mp (by decide)
    rw [called] at hj
    rwa [List.mem_singleton.mp hj] at related
  · exact absurd (uncancelled.mpr ⟨4, by decide, related⟩) (by decide)

end Tokens

end Inlay
