import Inlay.Proofs.Decoding
import Inlay.Proofs.Utf8
import Mathlib.Data.List.Infix
/-!
Input that is no well-formed UTF-8. What does not belong to a character costs nothing but itself, as
long as more bytes arrive. A pause is different: of a character that is still waited for, all that
arrived is given up, and with it the keys after its lead byte.
-/

namespace Inlay.Key

open Text

namespace Decoder

/-- The key of an ASCII byte. The other controls have none. -/
def asciiKey? (b : UInt8) : Option Key :=
  if b = 0x0d ∨ b = 0x0a then some .enter
  else if b = 0x7f ∨ b = 0x08 then some .backspace
  else if b = 0x09 then some .tab
  else if b = 0x03 ∨ b = 0x18 then some .interrupt
  else if 0x20 ≤ b then some (.char (Char.ofNat b.toNat))
  else none

/-- The key that begins with the first byte: that of an ASCII byte, or a character of more bytes. -/
def front? : List UInt8 → Option Key
  | [] => none
  | b :: rest => if b < 0x80 then asciiKey? b else (Utf8.leading? (b :: rest)).map .char

/-- The keys that begin at any place of a stream without ESC, in order. -/
def keysIn (bytes : List UInt8) : List Key := bytes.tails.filterMap front?

variable {b : UInt8} {bytes rest before after : List UInt8} {k : Key} {n : Nat}

theorem keysIn_cons (b : UInt8) (rest : List UInt8) :
    keysIn (b :: rest) = (front? (b :: rest)).toList ++ keysIn rest := by
  rw [keysIn, List.tails_cons, List.filterMap_cons]
  cases front? (b :: rest) <;> rfl

/-- Within a character no key begins. -/
theorem keysIn_continuations (within : ∀ b ∈ before, Utf8.isContinuation b = true)
    (more : List UInt8) : keysIn (before ++ more) = keysIn more := by
  induction before with
  | nil => rfl
  | cons b before ih =>
      obtain ⟨hb, hbefore⟩ := List.forall_mem_cons.mp within
      obtain ⟨low, high⟩ := Utf8.toNat_of_isContinuation hb
      have unannounced : Utf8.announced? b = none := by
        cases hannounced : Utf8.announced? b with
        | none => rfl
        | some n =>
            have hlead := Utf8.lead_of_announced? hannounced
            omega
      have large : ¬ b < 0x80 := UInt8.not_lt.mpr (UInt8.le_iff_toNat_le.mpr low)
      have none : front? (b :: (before ++ more)) = none := by
        rw [front?, if_neg large, Utf8.leading?, List.head?_cons, Option.bind_some, unannounced]
        rfl
      rw [List.cons_append, keysIn_cons, none, ih hbefore]
      rfl

/-- No character begins before a cut and ends behind it. -/
def Apart (before after : List UInt8) : Prop :=
  ∀ (c : Char) (a b : List UInt8), a ++ b = String.utf8EncodeChar c → a ≠ [] → b ≠ [] →
    ¬ (a <:+ before ∧ b <+: after)

theorem Apart.of_suffix (h : Apart before after) {before' : List UInt8}
    (later : before' <:+ before) :
    Apart before' after :=
  fun c a b spelled ha hb cut => h c a b spelled ha hb ⟨cut.1.trans later, cut.2⟩

theorem front?_append (apart : Apart (b :: rest) after) :
    front? (b :: rest ++ after) = front? (b :: rest) := by
  rw [List.cons_append, front?, front?]
  split
  · rfl
  · have same : Utf8.leading? (b :: (rest ++ after)) = Utf8.leading? (b :: rest) := by
      refine Option.ext fun c => ?_
      rw [Utf8.leading?_eq_some_iff, Utf8.leading?_eq_some_iff]
      constructor
      · rintro ⟨more, heq⟩
        rw [← List.cons_append] at heq
        rcases List.append_eq_append_iff.mp heq with ⟨more', hfront, -⟩ | ⟨cut, hchar, hafter⟩
        · exact ⟨more', hfront.symm⟩
        · -- the character would go on behind the cut
          cases cut with
          | nil => exact ⟨[], by rw [hchar, List.append_nil, List.append_nil]⟩
          | cons a cut =>
              exact absurd ⟨List.suffix_refl _, more, hafter.symm⟩
                (apart c _ _ hchar.symm (List.cons_ne_nil _ _) (List.cons_ne_nil _ _))
      · intro h
        exact h.trans (List.prefix_append (b :: rest) after)
    rw [same]

theorem keysIn_append (apart : Apart before after) :
    keysIn (before ++ after) = keysIn before ++ keysIn after := by
  induction before with
  | nil => rfl
  | cons b before ih =>
      rw [List.cons_append, keysIn_cons, ← List.cons_append, front?_append apart,
        ih (apart.of_suffix (List.suffix_cons b before)), keysIn_cons, List.append_assoc]

theorem read_of_ascii (settled : b ≠ 0x1b) (small : b < 0x80) (rest : List UInt8) :
    read (b :: rest) = .ofKey? (asciiKey? b) 1 := by
  rw [read_of_ne_escape rest settled, asciiKey?]
  split_ifs with enter back tab interrupt control low low
  · rfl
  · rfl
  · rfl
  · rfl
  · exact absurd low (UInt8.not_le.mpr control)
  · rfl
  · have hannounced : Utf8.announced? b = some 1 := if_pos small
    have hspelled : Utf8.char? [b] = some (Char.ofNat b.toNat) := if_pos small
    rw [readChar_cons, hannounced]
    dsimp only
    rw [if_neg (by omega), List.take_succ_cons, List.take_zero, hspelled]
    rfl
  · exact absurd (UInt8.not_le.mp low) control

theorem read_of_large (large : ¬ b < 0x80) (rest : List UInt8) :
    read (b :: rest) = readChar (b :: rest) := by
  have apart : ∀ {n : UInt8}, n < 0x80 → b ≠ n := by
    rintro n small rfl
    exact large small
  rw [read_of_ne_escape rest (apart (by decide)),
    if_neg (not_or.mpr ⟨apart (by decide), apart (by decide)⟩),
    if_neg (not_or.mpr ⟨apart (by decide), apart (by decide)⟩), if_neg (apart (by decide)),
    if_neg (not_or.mpr ⟨apart (by decide), apart (by decide)⟩),
    if_neg fun control => large (UInt8.lt_trans control (by decide))]

theorem continues_of_char? {c : Char} (h : Utf8.char? (b :: rest) = some c) :
    ∀ a ∈ rest, Utf8.isContinuation a = true := by
  cases rest with
  | nil => exact List.forall_mem_nil _
  | cons a rest =>
      obtain ⟨⟨-, continues, -⟩, -⟩ := Option.ite_none_right_eq_some.mp h
      exact List.all_eq_true.mp continues

/-- What the decoder reads as a key begins where it reads, and is passed over whole. -/
theorem keysIn_of_key (settled : b ≠ 0x1b) (h : read (b :: rest) = .key k n) :
    keysIn (b :: rest) = k :: keysIn ((b :: rest).drop n) := by
  rw [keysIn_cons, front?]
  by_cases small : b < 0x80
  · rw [read_of_ascii settled small] at h
    rw [if_pos small]
    cases hkey : asciiKey? b with
    | none => rw [hkey] at h; cases h
    | some key =>
        rw [hkey] at h
        cases h
        rfl
  · rw [read_of_large small, readChar_cons] at h
    rw [if_neg small, Utf8.leading?, List.head?_cons, Option.bind_some]
    cases hlength : Utf8.announced? b with
    | none => rw [hlength] at h; cases h
    | some length =>
        obtain ⟨passed, rfl⟩ := Nat.exists_eq_add_of_le' (one_le_of_announced? hlength)
        simp only [hlength, List.take_succ_cons] at h
        rw [Option.bind_some, List.take_succ_cons]
        split at h
        · cases h
        · cases hchar : Utf8.char? (b :: rest.take passed) with
          | none => rw [hchar] at h; cases h
          | some c =>
              rw [hchar] at h
              cases h
              have within := continues_of_char? hchar
              have split := keysIn_continuations within (rest.drop passed)
              rw [List.take_append_drop] at split
              rw [split]
              rfl

/-- Where it reads none it passes over one byte, at which none begins. -/
theorem keysIn_of_skip (settled : b ≠ 0x1b) (h : read (b :: rest) = .skip n) :
    keysIn (b :: rest) = keysIn ((b :: rest).drop n) := by
  rw [keysIn_cons, front?]
  by_cases small : b < 0x80
  · rw [read_of_ascii settled small] at h
    rw [if_pos small]
    cases hkey : asciiKey? b with
    | none =>
        rw [hkey] at h
        cases h
        rfl
    | some key => rw [hkey] at h; cases h
  · rw [read_of_large small, readChar_cons] at h
    rw [if_neg small, Utf8.leading?, List.head?_cons, Option.bind_some]
    cases hlength : Utf8.announced? b with
    | none =>
        rw [hlength] at h
        cases h
        rfl
    | some length =>
        simp only [hlength] at h
        rw [Option.bind_some]
        split at h
        · cases h
        · cases hchar : Utf8.char? ((b :: rest).take length) with
          | none =>
              rw [hchar] at h
              cases h
              rfl
          | some c => rw [hchar] at h; cases h

/-- Bytes that wait for more: nothing, or a lead byte and fewer bytes than it announces. -/
def Dangling (bytes : List UInt8) : Prop :=
  bytes = [] ∨ ∃ lead rest n, bytes = lead :: rest ∧ Utf8.announced? lead = some n ∧
    bytes.length < n

theorem dangling_of_incomplete (settled : 0x1b ∉ bytes) (h : read bytes = .incomplete) :
    Dangling bytes := by
  cases bytes with
  | nil => exact .inl rfl
  | cons b rest =>
      have hb : b ≠ 0x1b := fun heq => settled (heq ▸ List.mem_cons_self)
      by_cases small : b < 0x80
      · rw [read_of_ascii hb small] at h
        cases hkey : asciiKey? b <;> rw [hkey] at h <;> cases h
      · rw [read_of_large small, readChar_cons] at h
        cases hlength : Utf8.announced? b with
        | none => rw [hlength] at h; cases h
        | some length =>
            simp only [hlength] at h
            split at h
            · rename_i short
              exact .inr ⟨b, rest, length, rfl, hlength, short⟩
            · split at h <;> cases h

theorem suffix_decodeFrom (bytes : List UInt8) : (decodeFrom 0 bytes).2 <:+ bytes := by
  induction hlength : bytes.length using Nat.strongRecOn generalizing bytes with
  | _ length ih =>
      cases hread : read bytes with
      | incomplete => rw [decodeFrom_of_incomplete hread]
      | key k n =>
          have hused := le_of_read_key hread
          rw [decodeFrom_of_key hread]
          exact (ih _ (by rw [List.length_drop]; omega) _ rfl).trans (List.drop_suffix n bytes)
      | skip n =>
          have hused := le_of_read_skip hread
          rw [decodeFrom_of_skip hread]
          exact (ih _ (by rw [List.length_drop]; omega) _ rfl).trans (List.drop_suffix n bytes)

/-- Decoding takes the first keys of a stream and leaves the others in what it leaves over. -/
theorem keysIn_decodeFrom (settled : 0x1b ∉ bytes) (more : List UInt8) :
    keysIn (bytes ++ more) = (decodeFrom 0 bytes).1 ++ keysIn ((decodeFrom 0 bytes).2 ++ more) := by
  induction hlength : bytes.length using Nat.strongRecOn generalizing bytes with
  | _ length ih =>
      cases bytes with
      | nil => rfl
      | cons b rest =>
          have hb : b ≠ 0x1b := fun heq => settled (heq ▸ List.mem_cons_self)
          have later (n : Nat) : 0x1b ∉ (b :: rest).drop n :=
            fun h => settled (List.mem_of_mem_drop h)
          cases hread : read (b :: rest) with
          | incomplete => rw [decodeFrom_of_incomplete hread]; rfl
          | key k n =>
              have hused := le_of_read_key hread
              have hmore : read (b :: (rest ++ more)) = .key k n := by
                rw [← List.cons_append, read_append more (by simp [hread]), hread]
              rw [decodeFrom_of_key hread, List.cons_append, keysIn_of_key hb hmore,
                ← List.cons_append, List.drop_append_of_le_length hused.2,
                ih _ (by rw [List.length_drop]; omega) (later n) rfl]
              rfl
          | skip n =>
              have hused := le_of_read_skip hread
              have hmore : read (b :: (rest ++ more)) = .skip n := by
                rw [← List.cons_append, read_append more (by simp [hread]), hread]
              rw [decodeFrom_of_skip hread, List.cons_append, keysIn_of_skip hb hmore,
                ← List.cons_append, List.drop_append_of_le_length hused.2,
                ih _ (by rw [List.length_drop]; omega) (later n) rfl]

/-- What reaches a decoder: bytes, and pauses after which it waits no longer. -/
inductive Intake where
  | bytes (chunk : List UInt8)
  | pause

/-- All bytes that reach it. -/
def Intake.stream (intakes : List Intake) : List UInt8 :=
  intakes.flatMap fun
    | .bytes chunk => chunk
    | .pause => []

def take (d : Decoder) : Intake → List Key × Decoder
  | .bytes chunk => d.process chunk
  | .pause => d.flush

/-- The keys of several intakes one after another, and the decoder after them. -/
def takeAll (d : Decoder) : List Intake → List Key × Decoder
  | [] => ([], d)
  | intake :: rest =>
      let (keys, d) := d.take intake
      let (later, d) := takeAll d rest
      (keys ++ later, d)

/-- The bytes that each pause finds waiting. -/
def foundWaiting (d : Decoder) : List Intake → List (List UInt8)
  | [] => []
  | .bytes chunk :: rest => foundWaiting (d.process chunk).2 rest
  | .pause :: rest => d.pending :: foundWaiting d.flush.2 rest

/-- How the keys that were taken, the bytes that were given up and those that still wait make up a
stream. -/
structure Balance (stream : List UInt8) (keys : List Key) (lost : List (List UInt8))
    (waiting : List UInt8) : Prop where
  inOrder : keys.Sublist (keysIn stream)
  whole : (keysIn stream).Perm (keys ++ (lost.flatMap keysIn ++ keysIn waiting))
  dangling : ∀ bytes ∈ lost, Dangling bytes

variable {d : Decoder} {stream waiting : List UInt8} {keys : List Key} {lost : List (List UInt8)}
  {intakes : List Intake}

theorem Balance.taken (h : Balance stream keys lost waiting) {earlier : List Key}
    {stream' : List UInt8} (first : keysIn stream' = earlier ++ keysIn stream) :
    Balance stream' (earlier ++ keys) lost waiting := by
  refine ⟨?_, ?_, h.dangling⟩
  · rw [first]
    exact h.inOrder.append_left earlier
  · rw [first, List.append_assoc]
    exact h.whole.append_left earlier

theorem Balance.givenUp (h : Balance stream keys lost waiting) {bytes stream' : List UInt8}
    (first : keysIn stream' = keysIn bytes ++ keysIn stream) (dangling : Dangling bytes) :
    Balance stream' keys (bytes :: lost) waiting := by
  refine ⟨?_, ?_, List.forall_mem_cons.mpr ⟨dangling, h.dangling⟩⟩
  · rw [first]
    exact h.inOrder.trans (List.sublist_append_right _ _)
  · rw [first, List.flatMap_cons, List.append_assoc]
    exact (h.whole.append_left _).trans (List.perm_append_comm_assoc _ _ _)

theorem flush_of_incomplete (settled : 0x1b ∉ d.pending) (h : read d.pending = .incomplete) :
    d.flush = ([], {}) := by
  rw [flush]
  cases hpending : d.pending with
  | nil => rfl
  | cons b rest =>
      rw [hpending] at settled h
      have hb : b ≠ 0x1b := fun heq => settled (heq ▸ List.mem_cons_self)
      rw [flushFrom, if_neg hb, h]

/-- Intakes one after another keep the balance: chunks bring keys, and a pause gives up what
waits. -/
theorem balance_takeAll (waits : read d.pending = .incomplete)
    (settled : 0x1b ∉ d.pending ++ Intake.stream intakes)
    (apart : ∀ before after, intakes = before ++ .pause :: after →
      Apart (d.pending ++ Intake.stream before) (Intake.stream after)) :
    Balance (d.pending ++ Intake.stream intakes) (d.takeAll intakes).1 (d.foundWaiting intakes)
      (d.takeAll intakes).2.pending := by
  induction intakes generalizing d with
  | nil =>
      rw [Intake.stream, List.flatMap_nil, List.append_nil]
      exact ⟨List.nil_sublist _, List.Perm.refl _, List.forall_mem_nil _⟩
  | cons intake rest ih =>
      cases intake with
      | bytes chunk =>
          have hstream : d.pending ++ Intake.stream (.bytes chunk :: rest) =
              d.pending ++ chunk ++ Intake.stream rest := (List.append_assoc _ _ _).symm
          have hsuffix := suffix_decodeFrom (d.pending ++ chunk)
          rw [hstream] at settled ⊢
          refine Balance.taken (ih (d := (d.process chunk).2) (read_decodeFrom _) ?_ ?_) ?_
          · intro hescape
            rcases List.mem_append.mp hescape with h | h
            · exact settled (List.mem_append_left _ (hsuffix.subset h))
            · exact settled (List.mem_append_right _ h)
          · rintro before after rfl
            refine (apart (.bytes chunk :: before) after rfl).of_suffix ?_
            obtain ⟨passed, hpassed⟩ := hsuffix
            refine ⟨passed, ?_⟩
            change passed ++ ((decodeFrom 0 (d.pending ++ chunk)).2 ++ Intake.stream before) =
              d.pending ++ (chunk ++ Intake.stream before)
            rw [← List.append_assoc, hpassed, List.append_assoc]
          · exact keysIn_decodeFrom (fun h => settled (List.mem_append_left _ h)) _
      | pause =>
          have hstream : Intake.stream (.pause :: rest) = Intake.stream rest := rfl
          rw [hstream] at settled ⊢
          have here : 0x1b ∉ d.pending := fun h => settled (List.mem_append_left _ h)
          have later : 0x1b ∉ Intake.stream rest := fun h => settled (List.mem_append_right _ h)
          have hflush := flush_of_incomplete here waits
          have hcut := apart [] rest rfl
          have balance := ih (d := {}) rfl later fun before after hrest =>
            (apart (.pause :: before) after (congrArg (Intake.pause :: ·) hrest)).of_suffix
              (List.suffix_append _ _)
          rw [takeAll, take, foundWaiting, hflush]
          refine balance.givenUp ?_ (dangling_of_incomplete here waits)
          rw [Intake.stream, List.flatMap_nil, List.append_nil] at hcut
          exact keysIn_append hcut

theorem pending_takeAll_of_pause (d : Decoder) (ended : intakes.getLast? = some .pause) :
    (d.takeAll intakes).2.pending = [] := by
  induction intakes generalizing d with
  | nil => cases ended
  | cons intake rest ih =>
      cases rest with
      | nil =>
          obtain rfl : intake = .pause := Option.some.inj ended
          rfl
      | cons intake' rest => exact ih _ (by rwa [List.getLast?_cons_cons] at ended)

/-- Of a stream without ESC that ends with a pause, and whose pauses are not within characters,
every key is taken in its place, but those in what a pause finds waiting: a lead byte and fewer
bytes than it announces, whatever they are. So all are taken exactly if no key is among those. -/
theorem taken_or_foundWaiting (settled : 0x1b ∉ Intake.stream intakes)
    (apart : ∀ before after, intakes = before ++ .pause :: after →
      Apart (Intake.stream before) (Intake.stream after))
    (ended : intakes.getLast? = some .pause) :
    (takeAll {} intakes).1.Sublist (keysIn (Intake.stream intakes)) ∧
      (keysIn (Intake.stream intakes)).Perm
        ((takeAll {} intakes).1 ++ (foundWaiting {} intakes).flatMap keysIn) ∧
      (∀ bytes ∈ foundWaiting {} intakes, Dangling bytes) ∧
      ((takeAll {} intakes).1 = keysIn (Intake.stream intakes) ↔
        ∀ bytes ∈ foundWaiting {} intakes, keysIn bytes = []) := by
  have balance : Balance (Intake.stream intakes) (takeAll {} intakes).1 (foundWaiting {} intakes)
      (takeAll {} intakes).2.pending := balance_takeAll (d := {}) rfl settled apart
  obtain ⟨inOrder, whole, dangling⟩ := balance
  rw [pending_takeAll_of_pause {} ended, show keysIn [] = [] from rfl, List.append_nil] at whole
  refine ⟨inOrder, whole, dangling, ?_⟩
  rw [← List.flatMap_eq_nil_iff]
  constructor
  · intro all
    have hlength := whole.length_eq
    rw [← all, List.length_append] at hlength
    exact List.eq_nil_of_length_eq_zero (by omega)
  · intro none
    rw [none, List.append_nil] at whole
    exact inOrder.eq_of_length whole.length_eq.symm

/-- Where an ASCII byte comes next, or nothing, no character is cut. -/
theorem apart_of_startsAfresh (before : List UInt8) (h : Utf8.StartsAfresh after) :
    Apart before after := by
  rintro c a b spelled ha hb ⟨-, more, rfl⟩
  cases b with
  | nil => exact hb rfl
  | cons x b =>
      have several : ¬ c.val.toNat ≤ 127 := by
        intro hone
        have hbyte : String.utf8EncodeChar c = [UInt8.ofNat c.val.toNat] := if_pos hone
        have hlength := congrArg List.length (spelled.trans hbyte)
        have := List.length_pos_iff.mpr ha
        rw [List.length_append, List.length_cons, List.length_singleton] at hlength
        omega
      have high := Utf8.high_utf8EncodeChar several x (by
        rw [← spelled]
        exact List.mem_append_right a List.mem_cons_self)
      exact UInt8.not_lt.mpr high (h x rfl)

/-- A byte that belongs to nothing, a character in two chunks, one that breaks off before a pause,
and Ctrl-C after it. -/
def brokenOff : List Intake :=
  [.bytes [0xff, 0x41, 0xc3], .bytes [0xa9, 0xe2, 0x82], .pause, .bytes [0x03], .pause]

theorem taken_or_foundWaiting_brokenOff :
    0x1b ∉ Intake.stream brokenOff ∧
      (∀ before after, brokenOff = before ++ .pause :: after →
        Apart (Intake.stream before) (Intake.stream after)) ∧
      brokenOff.getLast? = some .pause ∧
      foundWaiting {} brokenOff = [[0xe2, 0x82], []] ∧
      (takeAll {} brokenOff).1 = [.char 'A', .char 'é', .interrupt] ∧
      keysIn (Intake.stream brokenOff) = [.char 'A', .char 'é', .interrupt] := by
  have settled : 0x1b ∉ Intake.stream brokenOff := by decide
  have apart : ∀ before after, brokenOff = before ++ .pause :: after →
      Apart (Intake.stream before) (Intake.stream after) := by
    intro before after h
    refine apart_of_startsAfresh _ ?_
    have hmem : .pause :: after ∈ brokenOff.tails := (List.mem_tails _ _).mpr ⟨before, h.symm⟩
    obtain rfl | rfl : after = [.bytes [0x03], .pause] ∨ after = [] := by
      simpa [brokenOff] using hmem
    · rintro b ⟨⟩
      decide
    · exact nofun
  have waiting : foundWaiting {} brokenOff = [[0xe2, 0x82], []] := by decide
  have taken : (takeAll {} brokenOff).1 = [.char 'A', .char 'é', .interrupt] := by decide
  have all := (taken_or_foundWaiting settled apart rfl).2.2.2.mpr (by rw [waiting]; decide)
  exact ⟨settled, apart, rfl, waiting, taken, all.symm.trans taken⟩

/-- A lead byte of three, Ctrl-C and a pause: the stream holds Ctrl-C, and no key is taken. -/
theorem taken_losesInterrupt :
    let intakes := [Intake.bytes [0xe2, 0x03], .pause]
    0x1b ∉ Intake.stream intakes ∧
      (∀ before after, intakes = before ++ .pause :: after →
        Apart (Intake.stream before) (Intake.stream after)) ∧
      intakes.getLast? = some .pause ∧
      keysIn (Intake.stream intakes) = [.interrupt] ∧ (takeAll {} intakes).1 = [] := by
  refine ⟨by decide, ?_, rfl, by decide, by decide⟩
  intro before after h
  refine apart_of_startsAfresh _ ?_
  have hmem : .pause :: after ∈ [Intake.bytes [0xe2, 0x03], .pause].tails :=
    (List.mem_tails _ _).mpr ⟨before, h.symm⟩
  obtain rfl : after = [] := by simpa using hmem
  exact nofun

end Decoder

end Inlay.Key
