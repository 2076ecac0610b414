import Inlay.Proofs.Utf8

namespace Inlay.Text.Utf8

variable {text first rest : Text} {offset : Nat}

theorem byteLength_append (text text' : Text) :
    byteLength (text ++ text') = byteLength text + byteLength text' := by
  rw [← length_encode, encode_append, List.length_append, length_encode, length_encode]

/-- Every character takes a byte or more. -/
theorem length_le_byteLength (text : Text) : text.length ≤ byteLength text := by
  induction text with
  | nil => exact Nat.le_refl 0
  | cons c rest ih =>
      have hpos := c.utf8Size_pos
      rw [List.length_cons, byteLength]
      omega

theorem drop_encode_append (first rest : Text) :
    (encode (first ++ rest)).drop (byteLength first) = encode rest := by
  rw [encode_append, ← length_encode, List.drop_left]

theorem splitAtByte?_eq_some_iff :
    splitAtByte? offset text = some (first, rest) ↔
      first ++ rest = text ∧ byteLength first = offset := by
  fun_induction splitAtByte? offset text generalizing first rest with
  | case1 text =>
      rw [Option.some.injEq, Prod.mk.injEq]
      constructor
      · rintro ⟨rfl, rfl⟩
        exact ⟨rfl, rfl⟩
      · rintro ⟨rfl, hzero⟩
        have hnil : first = [] :=
          List.length_eq_zero_iff.mp (Nat.le_zero.mp (hzero ▸ length_le_byteLength first))
        rw [hnil]
        exact ⟨rfl, rfl⟩
  | case2 offset hpos =>
      refine ⟨nofun, ?_⟩
      rintro ⟨hnil, rfl⟩
      rw [(List.append_eq_nil_iff.mp hnil).1] at hpos
      exact absurd rfl hpos
  | case3 offset c text hpos hle ih =>
      rw [Option.map_eq_some_iff]
      constructor
      · rintro ⟨⟨first', rest'⟩, hsplit, heq⟩
        obtain ⟨rfl, rfl⟩ := Prod.mk.injEq .. ▸ heq
        obtain ⟨rfl, hlength⟩ := ih.mp hsplit
        refine ⟨rfl, ?_⟩
        rw [byteLength]
        omega
      · rintro ⟨heq, rfl⟩
        cases first with
        | nil => exact absurd rfl hpos
        | cons c' first =>
            obtain ⟨rfl, rfl⟩ := List.cons.inj heq
            exact ⟨(first, rest), ih.mpr ⟨rfl, (Nat.add_sub_cancel_left ..).symm⟩, rfl⟩
  | case4 offset c text hpos hlt =>
      refine ⟨nofun, ?_⟩
      rintro ⟨heq, rfl⟩
      cases first with
      | nil => exact absurd rfl hpos
      | cons c' first =>
          obtain ⟨rfl, -⟩ := List.cons.inj heq
          exact absurd (Nat.le_add_right ..) hlt

theorem splitAtByte?_append (first rest : Text) :
    splitAtByte? (byteLength first) (first ++ rest) = some (first, rest) :=
  splitAtByte?_eq_some_iff.mpr ⟨rfl, rfl⟩

/-- The offset at which some of the characters of a text end. -/
def IsBoundary (text : Text) (offset : Nat) : Prop :=
  ∃ first rest, first ++ rest = text ∧ byteLength first = offset

theorem isBoundary_append (first rest : Text) : IsBoundary (first ++ rest) (byteLength first) :=
  ⟨first, rest, rfl, rfl⟩

theorem IsBoundary.le (h : IsBoundary text offset) : offset ≤ byteLength text := by
  obtain ⟨first, rest, rfl, rfl⟩ := h
  rw [byteLength_append]
  exact Nat.le_add_right _ _

theorem isBoundary_iff_splitAtByte? :
    IsBoundary text offset ↔ (splitAtByte? offset text).isSome := by
  rw [Option.isSome_iff_exists, Prod.exists]
  exact exists_congr fun first => exists_congr fun rest => splitAtByte?_eq_some_iff.symm

instance (text : Text) (offset : Nat) : Decidable (IsBoundary text offset) :=
  decidable_of_iff _ isBoundary_iff_splitAtByte?.symm

theorem isContinuation_of_char? {lead next : UInt8} {later : List UInt8} {c : Char}
    (h : char? (lead :: next :: later) = some c) :
    ∀ b ∈ next :: later, isContinuation b = true := by
  have spelled (first least : Nat) (h :
      (if announced? lead = some ((next :: later).length + 1) ∧
          (next :: later).all isContinuation = true ∧ least ≤ scalar first (next :: later) ∧
            (scalar first (next :: later)).isValidChar then
        some (Char.ofNat (scalar first (next :: later))) else none) = some c) :
      ∀ b ∈ next :: later, isContinuation b = true := by
    split at h
    · rename_i hspelled
      exact List.all_eq_true.mp hspelled.2.1
    · cases h
  unfold char? at h
  dsimp only at h
  split at h
  · exact spelled _ 0x80 h
  · exact spelled _ 0x800 h
  · exact spelled _ 0x10000 h

/-- The first byte of a character continues none, and the others do. -/
theorem exists_utf8EncodeChar (c : Char) : ∃ lead more,
    String.utf8EncodeChar c = lead :: more ∧ isContinuation lead = false ∧
      ∀ b ∈ more, isContinuation b = true := by
  have hspells := spells_utf8EncodeChar c
  cases hbytes : String.utf8EncodeChar c with
  | nil =>
      rw [hbytes] at hspells
      cases hspells.spelled
  | cons lead more =>
      rw [hbytes] at hspells
      refine ⟨lead, more, rfl, ?_, ?_⟩
      · rw [Bool.eq_false_iff]
        intro hcontinues
        have hlead := toNat_of_isContinuation hcontinues
        have hannounced := lead_of_announced? hspells.announced
        omega
      · cases more with
        | nil => exact List.forall_mem_nil _
        | cons next later => exact isContinuation_of_char? hspells.spelled

/-- An offset within a text is a boundary exactly if the byte there continues no character. -/
theorem isBoundary_iff_getElem? (text : Text) (offset : Nat) :
    IsBoundary text offset ↔
      offset = byteLength text ∨
        ∃ b, (encode text)[offset]? = some b ∧ isContinuation b = false := by
  constructor
  · rintro ⟨first, rest, rfl, rfl⟩
    cases rest with
    | nil =>
        left
        rw [List.append_nil]
    | cons c rest =>
        right
        obtain ⟨lead, more, hbytes, hlead, -⟩ := exists_utf8EncodeChar c
        refine ⟨lead, ?_, hlead⟩
        rw [encode_append, ← length_encode, List.getElem?_append_right (Nat.le_refl _),
          Nat.sub_self, encode_cons, hbytes]
        rfl
  · rintro (rfl | ⟨b, hb, hcontinues⟩)
    · exact ⟨text, [], List.append_nil text, rfl⟩
    · induction text generalizing offset with
      | nil => cases hb
      | cons c rest ih =>
          obtain ⟨lead, more, hbytes, -, hmore⟩ := exists_utf8EncodeChar c
          have hsize : c.utf8Size = more.length + 1 := by
            rw [← String.length_utf8EncodeChar, hbytes, List.length_cons]
          rw [encode_cons, hbytes] at hb
          rcases Nat.lt_or_ge offset (more.length + 1) with hlt | hge
          · rw [List.getElem?_append_left hlt] at hb
            cases offset with
            | zero => exact ⟨[], c :: rest, rfl, rfl⟩
            | succ offset =>
                have hcontinuation := hmore b (List.mem_of_getElem? hb)
                rw [hcontinues] at hcontinuation
                cases hcontinuation
          · rw [List.getElem?_append_right hge] at hb
            obtain ⟨first, rest, rfl, hfirst⟩ := ih _ hb
            refine ⟨c :: first, rest, rfl, ?_⟩
            rw [byteLength, hfirst, hsize, List.length_cons]
            omega

end Inlay.Text.Utf8
