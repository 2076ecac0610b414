import Inlay.Text.Utf8
/-!
Reading what was encoded. Whole texts are read back. Of a text that breaks off in the middle of a
character, the characters before are read back, and bytes that follow it are read as if they stood
alone. Bytes that are read as one character are those that it is encoded to.
-/

namespace Inlay.Text.Utf8

theorem lossyFrom_length (passed more : List UInt8) :
    lossyFrom passed.length (passed ++ more) = lossy more := by
  induction passed with
  | nil => rfl
  | cons b passed ih => exact ih

/-- A character that is read whole. -/
theorem lossy_of_start {c : Char} {b : UInt8} {tail more : List UInt8}
    (start : wellFormedStart (b :: (tail ++ more)) = tail.length + 1)
    (spelled : char? (b :: tail) = some c) : lossy (b :: tail ++ more) = c :: lossy more := by
  rw [lossy, List.cons_append, lossyFrom, start, List.take_succ_cons, List.take_left, spelled,
    Nat.add_sub_cancel, lossyFrom_length]
  rfl

theorem toNat_byte {n : Nat} (h : n < 256) : (UInt8.ofNat n).toNat = n := by
  rw [UInt8.toNat_ofNat']
  exact Nat.mod_eq_of_lt h

theorem toNat_continuation {n : Nat} (h : n < 64) : (UInt8.ofNat (n + 128)).toNat = n + 128 :=
  toNat_byte (by omega)

theorem isContinuation_byte {n : Nat} (h : n < 64) : isContinuation (UInt8.ofNat (n + 128)) := by
  simp only [isContinuation, UInt8.le_iff_toNat_le, UInt8.lt_iff_toNat_lt, toNat_continuation h,
    Bool.and_eq_true, decide_eq_true_eq, UInt8.reduceToNat]
  omega

/-- A continuation byte may follow a lead byte unless it would spell too small a number, a surrogate
or too large a number. -/
theorem mayFollow_byte {lead n : Nat} (hlead : lead < 256) (hn : n < 64)
    (long : lead = 0xe0 → 32 ≤ n) (surrogate : lead = 0xed → n < 32)
    (long' : lead = 0xf0 → 16 ≤ n) (last : lead = 0xf4 → n < 16) :
    mayFollow (UInt8.ofNat lead) (UInt8.ofNat (n + 128)) = true := by
  have hcontinues := isContinuation_byte hn
  simp only [mayFollow, ← UInt8.toNat_inj, UInt8.le_iff_toNat_le, UInt8.lt_iff_toNat_lt,
    toNat_byte hlead, toNat_continuation hn, UInt8.reduceToNat, hcontinues]
  split
  · simp
    omega
  split
  · simp
    omega
  split
  · simp
    omega
  split
  · simp
    omega
  · rfl

theorem wellFormedStart_byte {lead : Nat} (hlead : 0xc2 ≤ lead ∧ lead < 0xf5) {next : UInt8}
    (follows : mayFollow (UInt8.ofNat lead) next = true) {n : Nat}
    (announced : announced? (UInt8.ofNat lead) = some (n + 2)) (tail : List UInt8)
    (length : tail.length = n) (continues : ∀ b ∈ tail, isContinuation b) (more : List UInt8) :
    wellFormedStart (UInt8.ofNat lead :: (next :: tail ++ more)) = n + 2 := by
  have hbyte : (UInt8.ofNat lead).toNat = lead := toNat_byte (by omega)
  have whole : tail.takeWhile isContinuation = tail := by
    have hwhole : (tail ++ []).takeWhile isContinuation = tail ++ [].takeWhile isContinuation :=
      List.takeWhile_append_of_pos continues
    rwa [List.takeWhile_nil, List.append_nil] at hwhole
  have hleads : ¬ (UInt8.ofNat lead < 0xc2 || 0xf5 ≤ UInt8.ofNat lead) = true := by
    simp only [UInt8.le_iff_toNat_le, UInt8.lt_iff_toNat_lt, hbyte, Bool.or_eq_true,
      decide_eq_true_eq, UInt8.reduceToNat]
    omega
  rw [List.cons_append, wellFormedStart, if_neg hleads, if_pos follows, announced,
    Option.getD_some, Nat.add_sub_cancel, ← length, List.take_left, whole, Nat.add_comm]

theorem announced?_byte {lead : Nat} (hlead : 0xc0 ≤ lead ∧ lead < 0xf8) :
    announced? (UInt8.ofNat lead) =
      some (if lead < 0xe0 then 2 else if lead < 0xf0 then 3 else 4) := by
  have hbyte : (UInt8.ofNat lead).toNat = lead := toNat_byte (by omega)
  simp only [announced?, UInt8.lt_iff_toNat_lt, hbyte, UInt8.reduceToNat]
  grind

/-- The first byte announces as many as there are, and together they spell the character. -/
structure Spells (bytes : List UInt8) (c : Char) : Prop where
  announced : bytes.head?.bind announced? = some bytes.length
  spelled : char? bytes = some c

theorem Spells.announced_append {bytes : List UInt8} {c : Char} (h : Spells bytes c)
    (more : List UInt8) : (bytes ++ more).head?.bind announced? = some bytes.length := by
  cases bytes with
  | nil => cases h.announced
  | cons b rest => exact h.announced

theorem spells_one {v : Nat} (h : v ≤ 0x7f) : Spells [UInt8.ofNat v] (Char.ofNat v) := by
  have hbyte : (UInt8.ofNat v).toNat = v := toNat_byte (by omega)
  have hsmall : UInt8.ofNat v < 0x80 := by
    rw [UInt8.lt_iff_toNat_lt, hbyte]
    exact Nat.lt_of_le_of_lt h (by decide)
  constructor
  · exact if_pos hsmall
  · rw [char?, if_pos hsmall, hbyte]

theorem spells_two {v : Nat} (low : 0x80 ≤ v) (high : v ≤ 0x7ff) :
    Spells [UInt8.ofNat (v / 64 % 32 + 192), UInt8.ofNat (v % 64 + 128)] (Char.ofNat v) := by
  have hlead : v / 64 % 32 + 192 < 256 := by omega
  have hlast : v % 64 < 64 := by omega
  have hannounced : announced? (UInt8.ofNat (v / 64 % 32 + 192)) = some 2 := by
    rw [announced?_byte (by omega), if_pos (by omega)]
  refine ⟨hannounced, ?_⟩
  have hscalar : 64 * (v / 64 % 32 + 192 - 192) + (v % 64 + 128 - 128) = v := by omega
  have valid : v.isValidChar := Or.inl (by omega)
  simp only [char?, scalar, toNat_byte hlead, toNat_continuation hlast,
    hannounced, isContinuation_byte hlast, List.all_cons, List.all_nil, List.foldl_cons,
    List.foldl_nil, List.length_singleton]
  rw [hscalar, if_pos ⟨trivial, rfl, low, valid⟩]

theorem spells_three {v : Nat} (low : 0x800 ≤ v) (high : v ≤ 0xffff) (valid : v.isValidChar) :
    Spells [UInt8.ofNat (v / 4096 % 16 + 224), UInt8.ofNat (v / 64 % 64 + 128),
      UInt8.ofNat (v % 64 + 128)] (Char.ofNat v) := by
  have hlead : v / 4096 % 16 + 224 < 256 := by omega
  have hnext : v / 64 % 64 < 64 := by omega
  have hlast : v % 64 < 64 := by omega
  have hannounced : announced? (UInt8.ofNat (v / 4096 % 16 + 224)) = some 3 := by
    rw [announced?_byte (by omega), if_neg (by omega), if_pos (by omega)]
  refine ⟨hannounced, ?_⟩
  have hscalar : 64 * (64 * (v / 4096 % 16 + 224 - 224) + (v / 64 % 64 + 128 - 128)) +
      (v % 64 + 128 - 128) = v := by omega
  simp only [char?, scalar, toNat_byte hlead, toNat_continuation hnext,
    toNat_continuation hlast, hannounced, isContinuation_byte hnext,
    isContinuation_byte hlast, List.all_cons, List.all_nil, List.foldl_cons, List.foldl_nil,
    List.length_cons, List.length_nil]
  rw [hscalar, if_pos ⟨trivial, rfl, low, valid⟩]

theorem spells_four {v : Nat} (low : 0x10000 ≤ v) (valid : v.isValidChar) :
    Spells [UInt8.ofNat (v / 262144 % 8 + 240), UInt8.ofNat (v / 4096 % 64 + 128),
      UInt8.ofNat (v / 64 % 64 + 128), UInt8.ofNat (v % 64 + 128)] (Char.ofNat v) := by
  have high : v < 0xd800 ∨ 0xdfff < v ∧ v < 0x110000 := valid
  have hlead : v / 262144 % 8 + 240 < 256 := by omega
  have hnext : v / 4096 % 64 < 64 := by omega
  have hthird : v / 64 % 64 < 64 := by omega
  have hlast : v % 64 < 64 := by omega
  have hannounced : announced? (UInt8.ofNat (v / 262144 % 8 + 240)) = some 4 := by
    rw [announced?_byte (by omega), if_neg (by omega), if_neg (by omega)]
  refine ⟨hannounced, ?_⟩
  have hscalar : 64 * (64 * (64 * (v / 262144 % 8 + 240 - 240) +
      (v / 4096 % 64 + 128 - 128)) + (v / 64 % 64 + 128 - 128)) + (v % 64 + 128 - 128) = v := by
    omega
  simp only [char?, scalar, toNat_byte hlead, toNat_continuation hnext,
    toNat_continuation hthird, toNat_continuation hlast,
    hannounced, isContinuation_byte hnext, isContinuation_byte hthird, isContinuation_byte hlast,
    List.all_cons, List.all_nil, List.foldl_cons, List.foldl_nil, List.length_cons,
    List.length_nil]
  rw [hscalar, if_pos ⟨trivial, rfl, low, valid⟩]

theorem spells_utf8EncodeChar (c : Char) : Spells (String.utf8EncodeChar c) c := by
  have valid : c.val.toNat.isValidChar := c.valid
  have back : Char.ofNat c.val.toNat = c := c.ofNat_toNat
  unfold String.utf8EncodeChar
  dsimp only
  split
  · rename_i hone
    have spells := spells_one hone
    rwa [back] at spells
  split
  · rename_i hone htwo
    have spells := spells_two (by omega) htwo
    rwa [back] at spells
  split
  · rename_i htwo hthree
    have spells := spells_three (by omega) hthree valid
    rwa [back] at spells
  · rename_i hthree
    have spells := spells_four (by omega) valid
    rwa [back] at spells

theorem lossy_one {v : Nat} (h : v ≤ 0x7f) (more : List UInt8) :
    lossy ([UInt8.ofNat v] ++ more) = Char.ofNat v :: lossy more := by
  have hbyte : (UInt8.ofNat v).toNat = v := toNat_byte (by omega)
  refine lossy_of_start ?_ (spells_one h).spelled
  have hleads : (UInt8.ofNat v < 0xc2 || 0xf5 ≤ UInt8.ofNat v) = true := by
    rw [Bool.or_eq_true, decide_eq_true_eq, UInt8.lt_iff_toNat_lt, hbyte]
    exact Or.inl (Nat.lt_of_le_of_lt h (by decide))
  rw [List.nil_append, wellFormedStart.eq_def]
  dsimp only
  rw [if_pos hleads]
  rfl

theorem lossy_two {v : Nat} (low : 0x80 ≤ v) (high : v ≤ 0x7ff) (more : List UInt8) :
    lossy ([UInt8.ofNat (v / 64 % 32 + 192), UInt8.ofNat (v % 64 + 128)] ++ more) =
      Char.ofNat v :: lossy more := by
  have spells := spells_two low high
  refine lossy_of_start ?_ spells.spelled
  exact wellFormedStart_byte (by omega)
    (mayFollow_byte (by omega) (by omega) (by omega) (by omega) (by omega) (by omega))
    spells.announced [] rfl (List.forall_mem_nil _) more

theorem lossy_three {v : Nat} (low : 0x800 ≤ v) (high : v ≤ 0xffff) (valid : v.isValidChar)
    (more : List UInt8) :
    lossy ([UInt8.ofNat (v / 4096 % 16 + 224), UInt8.ofNat (v / 64 % 64 + 128),
      UInt8.ofNat (v % 64 + 128)] ++ more) = Char.ofNat v :: lossy more := by
  have hsurrogate : v < 0xd800 ∨ 0xdfff < v ∧ v < 0x110000 := valid
  have hlast : v % 64 < 64 := by omega
  have spells := spells_three low high valid
  refine lossy_of_start ?_ spells.spelled
  exact wellFormedStart_byte (by omega)
    (mayFollow_byte (by omega) (by omega) (by omega) (by omega) (by omega) (by omega))
    spells.announced [_] rfl (List.forall_mem_singleton.mpr (isContinuation_byte hlast)) more

theorem lossy_four {v : Nat} (low : 0x10000 ≤ v) (valid : v.isValidChar) (more : List UInt8) :
    lossy ([UInt8.ofNat (v / 262144 % 8 + 240), UInt8.ofNat (v / 4096 % 64 + 128),
      UInt8.ofNat (v / 64 % 64 + 128), UInt8.ofNat (v % 64 + 128)] ++ more) =
        Char.ofNat v :: lossy more := by
  have high : v < 0xd800 ∨ 0xdfff < v ∧ v < 0x110000 := valid
  have hthird : v / 64 % 64 < 64 := by omega
  have hlast : v % 64 < 64 := by omega
  have spells := spells_four low valid
  refine lossy_of_start ?_ spells.spelled
  exact wellFormedStart_byte (by omega)
    (mayFollow_byte (by omega) (by omega) (by omega) (by omega) (by omega) (by omega))
    spells.announced [_, _] rfl (List.forall_mem_cons.mpr ⟨isContinuation_byte hthird,
      List.forall_mem_singleton.mpr (isContinuation_byte hlast)⟩) more

theorem lossy_utf8EncodeChar (c : Char) (more : List UInt8) :
    lossy (String.utf8EncodeChar c ++ more) = c :: lossy more := by
  have valid : c.val.toNat.isValidChar := c.valid
  have back : Char.ofNat c.val.toNat = c := c.ofNat_toNat
  unfold String.utf8EncodeChar
  dsimp only
  split
  · rename_i hone
    rw [lossy_one hone, back]
  split
  · rename_i hone htwo
    rw [lossy_two (by omega) htwo, back]
  split
  · rename_i htwo hthree
    rw [lossy_three (by omega) hthree valid, back]
  · rename_i hthree
    rw [lossy_four (by omega) valid, back]

theorem lossy_encode_append (text : Text) (more : List UInt8) :
    lossy (encode text ++ more) = text ++ lossy more := by
  induction text with
  | nil => rfl
  | cons c rest ih =>
      rw [encode_cons, List.append_assoc, lossy_utf8EncodeChar, ih]
      rfl

/-- A text that is whole is read back. -/
theorem lossy_encode (text : Text) : lossy (encode text) = text := by
  have hread := lossy_encode_append text []
  rwa [List.append_nil, show lossy [] = [] from rfl, List.append_nil] at hread

/-- The first byte, if there is one, is a character of its own. -/
def StartsAfresh (bytes : List UInt8) : Prop := ∀ b ∈ bytes.head?, b < 0x80

theorem startsAfresh_of_isPrefix {c : Char} (h : c.toNat ≤ 127) {rest : Text} {bytes : List UInt8}
    (hbytes : bytes <+: encode (c :: rest)) : StartsAfresh bytes := by
  have hbyte : String.utf8EncodeChar c = [UInt8.ofNat c.toNat] := if_pos h
  rw [encode_cons, hbyte, List.singleton_append] at hbytes
  rcases List.prefix_cons_iff.mp hbytes with rfl | ⟨tail, rfl, -⟩
  · intro b hb
    cases hb
  · intro b hb
    rw [← Option.some.inj hb, UInt8.lt_iff_toNat_lt, toNat_byte (by omega)]
    exact Nat.lt_succ_of_le h

theorem isContinuation_of_small {b : UInt8} (h : b < 0x80) : isContinuation b = false := by
  rw [isContinuation, decide_eq_false (UInt8.not_le.mpr h), Bool.false_and]

theorem mayFollow_of_small {b : UInt8} (h : b < 0x80) (lead : UInt8) :
    mayFollow lead b = false := by
  rw [UInt8.lt_iff_toNat_lt] at h
  have hsmall : b.toNat < 128 := h
  simp only [mayFollow, isContinuation, UInt8.le_iff_toNat_le, UInt8.reduceToNat]
  split
  · simp
    omega
  split
  · simp
    omega
  split
  · simp
    omega
  split
  · simp
    omega
  · simp
    omega

theorem takeWhile_isContinuation_append {bytes' : List UInt8} (h : StartsAfresh bytes')
    (bytes : List UInt8) :
    (bytes ++ bytes').takeWhile isContinuation = bytes.takeWhile isContinuation := by
  induction bytes with
  | nil =>
      cases bytes' with
      | nil => rfl
      | cons b more =>
          have hsmall : b < 0x80 := h b rfl
          rw [List.nil_append, List.takeWhile_cons, isContinuation_of_small hsmall]
          rfl
  | cons b rest ih => rw [List.cons_append, List.takeWhile_cons, List.takeWhile_cons, ih]

theorem wellFormedStart_append {bytes' : List UInt8} (h : StartsAfresh bytes') (b : UInt8)
    (rest : List UInt8) :
    wellFormedStart (b :: rest ++ bytes') = wellFormedStart (b :: rest) := by
  cases rest with
  | nil =>
      cases bytes' with
      | nil => rfl
      | cons b' more =>
          have hsmall : b' < 0x80 := h b' rfl
          rw [List.cons_append, List.nil_append, wellFormedStart, wellFormedStart,
            mayFollow_of_small hsmall, if_neg Bool.false_ne_true]
  | cons next later =>
      rw [List.cons_append, List.cons_append, wellFormedStart, wellFormedStart,
        ← List.take_takeWhile, ← List.take_takeWhile, takeWhile_isContinuation_append h]

theorem wellFormedStart_le (b : UInt8) (rest : List UInt8) :
    wellFormedStart (b :: rest) ≤ rest.length + 1 := by
  cases rest with
  | nil =>
      rw [wellFormedStart, ite_self]
      exact Nat.le_refl 1
  | cons next later =>
      have htaken := (List.takeWhile_sublist isContinuation
        (l := later.take ((announced? b).getD 0 - 2))).length_le
      rw [List.length_take] at htaken
      rw [wellFormedStart, List.length_cons]
      split
      · omega
      split
      · omega
      · omega

theorem lossy_append (bytes : List UInt8) {bytes' : List UInt8} (h : StartsAfresh bytes') :
    lossy (bytes ++ bytes') = lossy bytes ++ lossy bytes' := by
  have passed : ∀ skip, skip ≤ bytes.length →
      lossyFrom skip (bytes ++ bytes') = lossyFrom skip bytes ++ lossy bytes' := by
    induction bytes with
    | nil =>
        intro skip hskip
        rw [Nat.le_zero.mp hskip]
        rfl
    | cons b rest ih =>
        intro skip hskip
        cases skip with
        | succ skip => exact ih skip (Nat.le_of_succ_le_succ hskip)
        | zero =>
            have hused : wellFormedStart (b :: rest) ≤ (b :: rest).length :=
              wellFormedStart_le b rest
            have hstart := wellFormedStart_append h b rest
            have htaken : (b :: rest ++ bytes').take (wellFormedStart (b :: rest)) =
                (b :: rest).take (wellFormedStart (b :: rest)) :=
              List.take_append_of_le_length hused
            rw [List.length_cons] at hused
            rw [List.cons_append] at hstart htaken ⊢
            rw [lossyFrom, lossyFrom, hstart, htaken, ih _ (by omega)]
            rfl
  exact passed 0 (Nat.zero_le _)

theorem high_of_char? {bytes : List UInt8} {c : Char} (h : char? bytes = some c)
    (high : ∀ b ∈ bytes, 0x80 ≤ b) : 0x80 ≤ c.toNat := by
  unfold char? at h
  split at h
  · cases h
  · rename_i b
    rw [if_neg (UInt8.not_lt.mpr (high b List.mem_cons_self))] at h
    cases h
  · rename_i b more _
    have spelled : ∀ lead least, 0x80 ≤ least →
        (if announced? b = some (more.length + 1) ∧ more.all isContinuation = true ∧
            least ≤ scalar lead more ∧ (scalar lead more).isValidChar then
          some (Char.ofNat (scalar lead more)) else none) = some c → 0x80 ≤ c.toNat := by
      intro lead least hleast h
      split at h
      · rename_i hspelled
        obtain ⟨-, -, hle, valid⟩ := hspelled
        obtain rfl := Option.some.inj h
        rw [Char.ofNat, dif_pos valid]
        exact Nat.le_trans hleast hle
      · cases h
    dsimp only at h
    split at h
    · exact spelled _ 0x80 (by decide) h
    · exact spelled _ 0x800 (by decide) h
    · exact spelled _ 0x10000 (by decide) h

theorem high_lossyFrom {bytes : List UInt8} (high : ∀ b ∈ bytes, 0x80 ≤ b) (skip : Nat) :
    ∀ c ∈ lossyFrom skip bytes, 0x80 ≤ c.toNat := by
  induction bytes generalizing skip with
  | nil => exact fun c hc => absurd hc (by cases skip <;> simp [lossyFrom])
  | cons b rest ih =>
      have hrest := fun b hb => high b (List.mem_cons_of_mem _ hb)
      cases skip with
      | succ skip => exact ih hrest skip
      | zero =>
          rw [lossyFrom]
          refine List.forall_mem_cons.mpr ⟨?_, ih hrest _⟩
          cases hread : char? ((b :: rest).take (wellFormedStart (b :: rest))) with
          | none => decide
          | some c => exact high_of_char? hread fun b' hb' => high b' (List.mem_of_mem_take hb')

theorem high_utf8EncodeChar {c : Char} (h : ¬ c.val.toNat ≤ 127) :
    ∀ b ∈ String.utf8EncodeChar c, 0x80 ≤ b := by
  have high : ∀ n, n < 128 → 0x80 ≤ UInt8.ofNat (n + 128) := by
    intro n hn
    rw [UInt8.le_iff_toNat_le, toNat_byte (show n + 128 < 256 by omega)]
    exact Nat.le_add_left 128 n
  unfold String.utf8EncodeChar
  dsimp only
  rw [if_neg h]
  split
  · simp only [List.forall_mem_cons]
    exact ⟨high (_ + 64) (by omega), high _ (by omega), List.forall_mem_nil _⟩
  split
  · simp only [List.forall_mem_cons]
    exact ⟨high (_ + 96) (by omega), high _ (by omega), high _ (by omega), List.forall_mem_nil _⟩
  · simp only [List.forall_mem_cons]
    exact ⟨high (_ + 112) (by omega), high _ (by omega), high _ (by omega), high _ (by omega),
      List.forall_mem_nil _⟩

/-- A character that breaks off leaves no byte that could be another. -/
theorem high_of_isPrefix {c : Char} {bytes : List UInt8} (h : bytes <+: String.utf8EncodeChar c)
    (hne : bytes ≠ String.utf8EncodeChar c) : ∀ b ∈ bytes, 0x80 ≤ b := by
  -- a character of one byte breaks off before it has begun
  by_cases hone : c.val.toNat ≤ 127
  · have hbyte : String.utf8EncodeChar c = [UInt8.ofNat c.val.toNat] := if_pos hone
    rw [hbyte] at h hne
    rcases List.prefix_cons_iff.mp h with rfl | ⟨tail, rfl, htail⟩
    · exact List.forall_mem_nil _
    · rw [List.prefix_nil.mp htail] at hne
      exact absurd rfl hne
  · exact fun b hb => high_utf8EncodeChar hone b (h.subset hb)

/-- A text that breaks off is read up to the last whole character, and what is left of the next is
read as nothing that a command is made of. -/
theorem lossy_of_isPrefix {text : Text} {bytes : List UInt8} (h : bytes <+: encode text) :
    ∃ kept broken, lossy bytes = kept ++ broken ∧ kept <+: text ∧
      ∀ c ∈ broken, 0x80 ≤ c.toNat := by
  induction text generalizing bytes with
  | nil =>
      rw [List.prefix_nil.mp h]
      exact ⟨[], [], rfl, List.nil_prefix, List.forall_mem_nil _⟩
  | cons c rest ih =>
      obtain ⟨missing, heq⟩ := h
      rw [encode_cons] at heq
      rcases List.append_eq_append_iff.mp heq with ⟨cut, hc, -⟩ | ⟨more, rfl, hrest⟩
      · by_cases hwhole : bytes = String.utf8EncodeChar c
        · refine ⟨[c], [], ?_, ?_, List.forall_mem_nil _⟩
          · have hread := lossy_utf8EncodeChar c []
            rwa [List.append_nil, ← hwhole] at hread
          · exact List.prefix_append [c] rest
        · exact ⟨[], lossy bytes, rfl, List.nil_prefix,
            high_lossyFrom (high_of_isPrefix ⟨cut, hc.symm⟩ hwhole) 0⟩
      · obtain ⟨kept, broken, hread, hkept, hbroken⟩ := ih ⟨missing, hrest.symm⟩
        refine ⟨c :: kept, broken, ?_, ?_, hbroken⟩
        · rw [lossy_utf8EncodeChar, hread]
          rfl
        · exact (List.prefix_cons_inj c).mpr hkept

/-- The lead bytes of each length. -/
theorem lead_of_announced? {b : UInt8} {n : Nat} (h : announced? b = some n) :
    (n = 1 ∧ b.toNat < 0x80) ∨ (n = 2 ∧ 0xc0 ≤ b.toNat ∧ b.toNat < 0xe0) ∨
      (n = 3 ∧ 0xe0 ≤ b.toNat ∧ b.toNat < 0xf0) ∨ (n = 4 ∧ 0xf0 ≤ b.toNat ∧ b.toNat < 0xf8) := by
  simp only [announced?, UInt8.lt_iff_toNat_lt, UInt8.reduceToNat] at h
  grind

theorem toNat_of_isContinuation {b : UInt8} (h : isContinuation b = true) :
    0x80 ≤ b.toNat ∧ b.toNat < 0xc0 := by
  simpa only [isContinuation, UInt8.le_iff_toNat_le, UInt8.lt_iff_toNat_lt, Bool.and_eq_true,
    decide_eq_true_eq, UInt8.reduceToNat] using h

theorem byte_eq {b : UInt8} {n : Nat} (h : n = b.toNat) : UInt8.ofNat n = b := by
  rw [h, UInt8.ofNat_toNat]

/-- The bytes that the encoding of a number has, by its size. -/
theorem utf8EncodeChar_ofNat {n : Nat} (valid : n.isValidChar) :
    String.utf8EncodeChar (Char.ofNat n) =
      if n ≤ 0x7f then [UInt8.ofNat n]
      else if n ≤ 0x7ff then [UInt8.ofNat (n / 64 % 32 + 192), UInt8.ofNat (n % 64 + 128)]
      else if n ≤ 0xffff then
        [UInt8.ofNat (n / 4096 % 16 + 224), UInt8.ofNat (n / 64 % 64 + 128),
          UInt8.ofNat (n % 64 + 128)]
      else
        [UInt8.ofNat (n / 262144 % 8 + 240), UInt8.ofNat (n / 4096 % 64 + 128),
          UInt8.ofNat (n / 64 % 64 + 128), UInt8.ofNat (n % 64 + 128)] := by
  have hval : (Char.ofNat n).val.toNat = n := by
    rw [Char.ofNat, dif_pos valid]
    rfl
  unfold String.utf8EncodeChar
  dsimp only
  rw [hval]

section

variable {lead a b c : UInt8} {n : Nat} (valid : n.isValidChar) (ha : isContinuation a = true)

include valid ha

theorem utf8EncodeChar_two (hlead : announced? lead = some 2)
    (hn : n = 64 * (lead.toNat - 0xc0) + (a.toNat - 0x80)) (low : 0x80 ≤ n) :
    String.utf8EncodeChar (Char.ofNat n) = [lead, a] := by
  obtain ⟨hlow, hhigh⟩ : 0xc0 ≤ lead.toNat ∧ lead.toNat < 0xe0 := by
    simpa using lead_of_announced? hlead
  have ha := toNat_of_isContinuation ha
  rw [utf8EncodeChar_ofNat valid, if_neg (by omega), if_pos (by omega),
    byte_eq (b := lead) (by omega),
    byte_eq (b := a) (by omega)]

theorem utf8EncodeChar_three (hlead : announced? lead = some 3) (hb : isContinuation b = true)
    (hn : n = 64 * (64 * (lead.toNat - 0xe0) + (a.toNat - 0x80)) + (b.toNat - 0x80))
    (low : 0x800 ≤ n) : String.utf8EncodeChar (Char.ofNat n) = [lead, a, b] := by
  obtain ⟨hlow, hhigh⟩ : 0xe0 ≤ lead.toNat ∧ lead.toNat < 0xf0 := by
    simpa using lead_of_announced? hlead
  have ha := toNat_of_isContinuation ha
  have hb := toNat_of_isContinuation hb
  rw [utf8EncodeChar_ofNat valid, if_neg (by omega), if_neg (by omega), if_pos (by omega),
    byte_eq (b := lead) (by omega), byte_eq (b := a) (by omega), byte_eq (b := b) (by omega)]

theorem utf8EncodeChar_four (hlead : announced? lead = some 4) (hb : isContinuation b = true)
    (hc : isContinuation c = true)
    (hn : n = 64 * (64 * (64 * (lead.toNat - 0xf0) + (a.toNat - 0x80)) + (b.toNat - 0x80)) +
      (c.toNat - 0x80))
    (low : 0x10000 ≤ n) : String.utf8EncodeChar (Char.ofNat n) = [lead, a, b, c] := by
  obtain ⟨hlow, hhigh⟩ : 0xf0 ≤ lead.toNat ∧ lead.toNat < 0xf8 := by
    simpa using lead_of_announced? hlead
  have ha := toNat_of_isContinuation ha
  have hb := toNat_of_isContinuation hb
  have hc := toNat_of_isContinuation hc
  rw [utf8EncodeChar_ofNat valid, if_neg (by omega), if_neg (by omega), if_neg (by omega),
    byte_eq (b := lead) (by omega), byte_eq (b := a) (by omega), byte_eq (b := b) (by omega),
    byte_eq (b := c) (by omega)]

end

/-- Bytes that spell a character are its encoding. -/
theorem utf8EncodeChar_of_char? {bytes : List UInt8} {c : Char} (h : char? bytes = some c) :
    String.utf8EncodeChar c = bytes := by
  match bytes with
  | [] => cases h
  | [b] =>
      obtain ⟨small, hc⟩ := Option.ite_none_right_eq_some.mp h
      have small : b.toNat < 0x80 := UInt8.lt_iff_toNat_lt.mp small
      obtain rfl := Option.some.inj hc
      rw [utf8EncodeChar_ofNat (Or.inl (by omega)), if_pos (by omega), UInt8.ofNat_toNat]
  | lead :: a :: more =>
      obtain ⟨⟨announced, continues, low, valid⟩, hc⟩ := Option.ite_none_right_eq_some.mp h
      obtain rfl := Option.some.inj hc
      have continues := List.all_eq_true.mp continues
      have ha := continues a List.mem_cons_self
      rcases more with _ | ⟨b, _ | ⟨c, _ | ⟨d, more⟩⟩⟩
      · exact utf8EncodeChar_two valid ha announced rfl low
      · exact utf8EncodeChar_three valid ha announced (continues b (by simp)) rfl low
      · exact utf8EncodeChar_four valid ha announced (continues b (by simp))
          (continues c (by simp)) rfl low
      · have hlead := lead_of_announced? announced
        simp at hlead

/-- The character that the first bytes spell. -/
def leading? (bytes : List UInt8) : Option Char :=
  (bytes.head?.bind announced?).bind fun length => char? (bytes.take length)

theorem leading?_eq_some_iff {bytes : List UInt8} {c : Char} :
    leading? bytes = some c ↔ String.utf8EncodeChar c <+: bytes := by
  constructor
  · intro h
    obtain ⟨length, -, spelled⟩ := Option.bind_eq_some_iff.mp h
    rw [utf8EncodeChar_of_char? spelled]
    exact List.take_prefix length bytes
  · rintro ⟨more, rfl⟩
    have spells := spells_utf8EncodeChar c
    rw [leading?, spells.announced_append, Option.bind_some, List.take_left, spells.spelled]

end Inlay.Text.Utf8
