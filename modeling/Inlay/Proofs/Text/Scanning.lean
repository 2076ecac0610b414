import Inlay.Proofs.Screen.Pieces
import Inlay.Proofs.Text.Offsets

namespace Inlay.Text.Escape

open Utf8

section High

variable {α : Type} {code : α → Nat} {high : List α} (h : ∀ a ∈ high, 0x80 ≤ code a)

include h

/-- Units beyond ASCII are passed over in the search for an end. -/
theorem finalLength?_append_of_high (rest : List α) :
    finalLength? code (high ++ rest) = (finalLength? code rest).map (· + high.length) := by
  induction high with
  | nil => exact Option.map_id'.symm
  | cons a high ih =>
      rw [List.forall_mem_cons] at h
      obtain ⟨ha, hhigh⟩ := h
      have inner : ¬ (0x40 ≤ code a ∧ code a ≤ 0x7e) := by omega
      rw [List.cons_append, finalLength?, if_neg inner, ih hhigh, Option.map_map]
      rfl

theorem terminatedLength?_append_of_high (rest : List α) :
    terminatedLength? code (high ++ rest) =
      (terminatedLength? code rest).map (· + high.length) := by
  induction high with
  | nil => exact Option.map_id'.symm
  | cons a high ih =>
      rw [List.forall_mem_cons] at h
      obtain ⟨ha, hhigh⟩ := h
      have noBell : code a ≠ 0x07 := by omega
      have noEscape : code a ≠ 0x1b := by omega
      rw [List.cons_append, terminatedLength?, if_neg noBell, if_neg fun ends => noEscape ends.1,
        ih hhigh, Option.map_map]
      rfl

end High

/-- A character of ASCII is one byte of the same number. All bytes of another are beyond ASCII. -/
theorem ascii_or_high (c : Char) :
    (∃ b, String.utf8EncodeChar c = [b] ∧ b.toNat = c.toNat ∧ c.toNat < 0x80 ∧ c.utf8Size = 1) ∨
      (0x80 ≤ c.toNat ∧ ∀ b ∈ String.utf8EncodeChar c, 0x80 ≤ b.toNat) := by
  rcases Nat.lt_or_ge c.toNat 0x80 with hlt | hge
  · have hbytes : String.utf8EncodeChar c = [UInt8.ofNat c.toNat] :=
      if_pos (Nat.le_of_lt_succ hlt)
    have hsize : c.utf8Size = 1 := by
      rw [← String.length_utf8EncodeChar, hbytes, List.length_singleton]
    exact Or.inl ⟨_, hbytes, toNat_byte (by omega), hlt, hsize⟩
  · have hlarge : ¬ c.val.toNat ≤ 127 := Nat.not_le.mpr hge
    exact Or.inr ⟨hge, fun b hb => UInt8.le_iff_toNat_le.mp (high_utf8EncodeChar hlarge b hb)⟩

theorem exists_lead_of_high {c : Char} (h : ∀ b ∈ String.utf8EncodeChar c, 0x80 ≤ b.toNat) :
    ∃ lead more, String.utf8EncodeChar c = lead :: more ∧ 0x80 ≤ lead.toNat := by
  obtain ⟨lead, more, hbytes, -, -⟩ := exists_utf8EncodeChar c
  exact ⟨lead, more, hbytes, h lead (hbytes ▸ List.mem_cons_self)⟩

theorem byteLength_take_succ (c : Char) (rest : Text) (n : Nat) :
    byteLength ((c :: rest).take (n + 1)) = byteLength (rest.take n) + c.utf8Size := by
  rw [List.take_succ_cons, byteLength, Nat.add_comm]

/-- Lengths in characters, one character further on. -/
theorem map_byteLength_take (length : Option Nat) (c : Char) (rest : Text) :
    (length.map (· + 1)).map (fun n => byteLength ((c :: rest).take n)) =
      (length.map fun n => byteLength (rest.take n)).map (· + c.utf8Size) := by
  rw [Option.map_map, Option.map_map]
  exact congrArg (Option.map · length) (funext (byteLength_take_succ c rest))

theorem finalLength?_encode (text : Text) :
    finalLength? UInt8.toNat (encode text) =
      (finalLength? Char.toNat text).map fun n => byteLength (text.take n) := by
  induction text with
  | nil => rfl
  | cons c rest ih =>
      rw [encode_cons]
      rcases ascii_or_high c with ⟨b, hbytes, hcode, -, hsize⟩ | ⟨hlarge, hhigh⟩
      · rw [hbytes, List.singleton_append, finalLength?, finalLength?, hcode]
        split
        · rw [Option.map_some, byteLength_take_succ, hsize]
          rfl
        · rw [ih, map_byteLength_take, hsize]
      · have inner : ¬ (0x40 ≤ c.toNat ∧ c.toNat ≤ 0x7e) := by omega
        rw [finalLength?_append_of_high hhigh, ih, finalLength?, if_neg inner,
          map_byteLength_take, String.length_utf8EncodeChar]

/-- The first byte of a text is ASCII if its first character is, and then has the same number. -/
theorem head?_encode {n : Nat} (ascii : n < 0x80) (text : Text) :
    (encode text).head?.map UInt8.toNat = some n ↔ text.head?.map Char.toNat = some n := by
  cases text with
  | nil => rfl
  | cons c rest =>
      rw [encode_cons, List.head?_cons, Option.map_some]
      rcases ascii_or_high c with ⟨b, hbytes, hcode, -, -⟩ | ⟨hlarge, hhigh⟩
      · rw [hbytes, List.singleton_append, List.head?_cons, Option.map_some, hcode]
      · obtain ⟨lead, more, hbytes, hlead⟩ := exists_lead_of_high hhigh
        rw [hbytes, List.cons_append, List.head?_cons, Option.map_some, Option.some.injEq,
          Option.some.injEq]
        omega

theorem terminatedLength?_encode (text : Text) :
    terminatedLength? UInt8.toNat (encode text) =
      (terminatedLength? Char.toNat text).map fun n => byteLength (text.take n) := by
  induction text with
  | nil => rfl
  | cons c rest ih =>
      rw [encode_cons]
      rcases ascii_or_high c with ⟨b, hbytes, hcode, -, hsize⟩ | ⟨hlarge, hhigh⟩
      · have backslash := head?_encode (show '\\'.toNat < 0x80 by decide) rest
        rw [hbytes, List.singleton_append, terminatedLength?, terminatedLength?, hcode,
          if_congr (and_congr_right fun _ => backslash) rfl rfl]
        split
        · rw [Option.map_some, byteLength_take_succ, hsize]
          rfl
        split
        · rename_i ends
          cases rest with
          | nil => cases ends.2
          | cons c' rest =>
              have hbackslash : c' = '\\' := Char.toNat_inj.mp (Option.some.inj ends.2)
              rw [Option.map_some, byteLength_take_succ, byteLength_take_succ, hsize, hbackslash]
              rfl
        · rw [ih, map_byteLength_take, hsize]
      · have noBell : c.toNat ≠ 0x07 := by omega
        have noEscape : c.toNat ≠ 0x1b := by omega
        rw [terminatedLength?_append_of_high hhigh, ih, terminatedLength?, if_neg noBell,
          if_neg fun ends => noEscape ends.1, map_byteLength_take, String.length_utf8EncodeChar]

theorem bodyLength?_encode (body : Text) (kind : Kind) :
    bodyLength? UInt8.toNat (encode body) kind =
      (bodyLength? Char.toNat body kind).map fun n => byteLength (body.take n) := by
  cases kind with
  | csi => exact finalLength?_encode body
  | osc | apc | dcs => exact terminatedLength?_encode body
  | ss3 =>
      cases body with
      | nil => rfl
      | cons c rest =>
          rw [encode_cons]
          rcases ascii_or_high c with ⟨b, hbytes, hcode, hlt, hsize⟩ | ⟨hlarge, hhigh⟩
          · simp [bodyLength?, hbytes, hcode, hlt, byteLength, hsize]
          · obtain ⟨lead, more, hbytes, hlead⟩ := exists_lead_of_high hhigh
            simp [bodyLength?, hbytes, Nat.not_lt.mpr hlead, Nat.not_lt.mpr hlarge]

theorem ofOpener?_high {n : Nat} (h : 0x80 ≤ n) : Kind.ofOpener? n = none := by
  have hne {c : Char} (hc : c.toNat < 0x80) : n ≠ c.toNat := by omega
  rw [Kind.ofOpener?, if_neg (hne (by decide)), if_neg (hne (by decide)), if_neg (hne (by decide)),
    if_neg (hne (by decide)), if_neg (hne (by decide))]

theorem sequence?_of_head? {α : Type} {code : α → Nat} {units : List α}
    (h : units.head?.map code ≠ some 0x1b) : sequence? code units = none := by
  match units with
  | [] | [_] => rfl
  | escape :: opener :: body =>
      rw [sequence?, if_neg fun heq => h (congrArg some heq)]

theorem sequence?_of_escape {α : Type} {code : α → Nat} {escape : α} (h : code escape = 0x1b)
    (opener : α) (body : List α) : sequence? code (escape :: opener :: body) =
      (Kind.ofOpener? (code opener)).bind fun kind =>
        (bodyLength? code body kind).map fun length => ⟨length + 2, kind⟩ := by
  rw [sequence?, if_pos h]
  exact congrArg (Option.bind _) (funext fun kind => Option.map_eq_bind.symm)

/-- The bytes of a text hold a sequence at their head just if its characters do, and it takes the
bytes of the characters that it takes. -/
theorem sequence?_encode (text : Text) :
    sequence? UInt8.toNat (encode text) = (sequence? Char.toNat text).map fun found =>
      ⟨byteLength (text.take found.length), found.kind⟩ := by
  have hhead := head?_encode (show 0x1b < 0x80 by decide) text
  by_cases opens : text.head?.map Char.toNat = some 0x1b
  · match text with
    | [c] =>
        obtain rfl : c = '\x1b' := Char.toNat_inj.mp (Option.some.inj opens)
        rfl
    | c :: opener :: body =>
        obtain rfl : c = '\x1b' := Char.toNat_inj.mp (Option.some.inj opens)
        have hescape : encode ('\x1b' :: opener :: body) = 0x1b :: encode (opener :: body) := rfl
        have hbyte : UInt8.toNat 0x1b = 0x1b := rfl
        have hchar : '\x1b'.toNat = 0x1b := rfl
        rw [hescape, encode_cons, sequence?_of_escape hchar]
        rcases ascii_or_high opener with ⟨b, hbytes, hcode, -, hsize⟩ | ⟨hlarge, hhigh⟩
        · rw [hbytes, List.singleton_append, sequence?_of_escape hbyte, hcode, Option.map_bind]
          refine congrArg (Option.bind _) (funext fun kind => ?_)
          rw [bodyLength?_encode, Option.map_map, Function.comp_apply, Option.map_map]
          refine congrArg (Option.map · _) (funext fun length => ?_)
          change (⟨byteLength (body.take length) + 2, kind⟩ : Sequence) =
            ⟨byteLength (('\x1b' :: opener :: body).take (length + 2)), kind⟩
          rw [byteLength_take_succ, byteLength_take_succ, hsize]
          rfl
        · obtain ⟨lead, more, hbytes, hlead⟩ := exists_lead_of_high hhigh
          rw [hbytes, List.cons_append, sequence?_of_escape hbyte, ofOpener?_high hlead,
            ofOpener?_high hlarge]
          rfl
  · rw [sequence?_of_head? opens, sequence?_of_head? (mt hhead.mp opens)]
    rfl

theorem finalLength?_pos {α : Type} {code : α → Nat} {units : List α} {n : Nat}
    (h : finalLength? code units = some n) : 0 < n := by
  cases units with
  | nil => cases h
  | cons a rest =>
      rw [finalLength?] at h
      split at h
      · exact Option.some.inj h ▸ Nat.succ_pos _
      · obtain ⟨m, -, rfl⟩ := Option.map_eq_some_iff.mp h
        exact Nat.succ_pos m

theorem terminatedLength?_pos {α : Type} {code : α → Nat} {units : List α} {n : Nat}
    (h : terminatedLength? code units = some n) : 0 < n := by
  cases units with
  | nil => cases h
  | cons a rest =>
      rw [terminatedLength?] at h
      split at h
      · exact Option.some.inj h ▸ Nat.succ_pos _
      split at h
      · exact Option.some.inj h ▸ Nat.succ_pos _
      · obtain ⟨m, -, rfl⟩ := Option.map_eq_some_iff.mp h
        exact Nat.succ_pos m

theorem bodyLength?_pos {α : Type} {code : α → Nat} {body : List α} {kind : Kind} {n : Nat}
    (h : bodyLength? code body kind = some n) : 0 < n := by
  cases kind with
  | csi => exact finalLength?_pos h
  | osc | apc | dcs => exact terminatedLength?_pos h
  | ss3 =>
      rw [bodyLength?] at h
      split at h
      · exact Option.some.inj h ▸ Nat.succ_pos 0
      · cases h

theorem three_le_of_sequence? {α : Type} {code : α → Nat} {units : List α} {found : Sequence}
    (h : sequence? code units = some found) : 3 ≤ found.length := by
  match units with
  | [] | [_] => cases h
  | escape :: opener :: body =>
      by_cases opens : code escape = 0x1b
      · rw [sequence?_of_escape opens] at h
        obtain ⟨kind, -, h⟩ := Option.bind_eq_some_iff.mp h
        obtain ⟨length, hlength, rfl⟩ := Option.map_eq_some_iff.mp h
        exact Nat.add_le_add_right (bodyLength?_pos hlength) 2
      · rw [sequence?, if_neg opens] at h
        cases h

theorem atByte?_append (before after : Text) :
    atByte? (before ++ after) (byteLength before) = (sequence? Char.toNat after).map fun found =>
      ⟨byteLength (after.take found.length), found.kind⟩ := by
  rw [atByte?, drop_encode_append, sequence?_encode]

/-- A sequence begins where a character does. -/
theorem isBoundary_of_atByte? {text : Text} {offset : Nat} {found : Sequence}
    (h : atByte? text offset = some found) : IsBoundary text offset := by
  have hhead : ((encode text).drop offset).head?.map UInt8.toNat = some 0x1b := by
    by_contra hne
    rw [atByte?, sequence?_of_head? hne] at h
    cases h
  obtain ⟨b, hb, hescape⟩ := Option.map_eq_some_iff.mp hhead
  rw [List.head?_drop] at hb
  have hsmall : b < 0x80 := by
    rw [UInt8.lt_iff_toNat_lt, hescape]
    decide
  exact (isBoundary_iff_getElem? text offset).mpr
    (Or.inr ⟨b, hb, isContinuation_of_small hsmall⟩)

/-- And it ends where a character does. -/
theorem isBoundary_add_of_atByte? {text : Text} {offset : Nat} {found : Sequence}
    (h : atByte? text offset = some found) : IsBoundary text (offset + found.length) := by
  obtain ⟨before, after, rfl, rfl⟩ := isBoundary_of_atByte? h
  rw [atByte?_append] at h
  obtain ⟨inText, -, rfl⟩ := Option.map_eq_some_iff.mp h
  refine ⟨before ++ after.take inText.length, after.drop inText.length, ?_, byteLength_append _ _⟩
  rw [List.append_assoc, List.take_append_drop]

/-- What a scan by bytes passes in one step. -/
inductive Passed where
  | sequence (found : Sequence)
  | glyph (c : Char)
deriving DecidableEq

namespace Passed

def size : Passed → Nat
  | sequence found => found.length
  | glyph c => c.utf8Size

/-- What is shown of it. -/
def shown : Passed → Text
  | sequence _ => []
  | glyph c => [c]

end Passed

/-- The sequence that is recognised at an offset, or else the character that begins there. -/
def passedAt? (text : Text) (offset : Nat) : Option Passed :=
  match atByte? text offset with
  | some found => some (.sequence found)
  | none => (splitAtByte? offset text).bind fun (_, rest) => rest.head?.map .glyph

theorem size_pos_of_passedAt? {text : Text} {offset : Nat} {passed : Passed}
    (h : passedAt? text offset = some passed) : 0 < passed.size := by
  rw [passedAt?] at h
  split at h
  · rename_i found hfound
    obtain rfl := Option.some.inj h
    exact Nat.lt_of_lt_of_le (by decide) (three_le_of_sequence? hfound)
  · obtain ⟨⟨first, rest⟩, -, h⟩ := Option.bind_eq_some_iff.mp h
    obtain ⟨c, -, rfl⟩ := Option.map_eq_some_iff.mp h
    exact c.utf8Size_pos

/-- Scans the bytes of a text from an offset to the end, and has what is shown read character by
character. There is no result if it comes to an offset at which no character begins. -/
def scanBytes? {β : Type} (read : β → Char → β) (text : Text) (offset : Nat) (state : β) :
    Option β :=
  if offset < byteLength text then
    match h : passedAt? text offset with
    | none => none
    | some passed =>
        have := size_pos_of_passedAt? h
        scanBytes? read text (offset + passed.size) (passed.shown.foldl read state)
  else some state
termination_by byteLength text - offset

theorem stripFrom_drop (skip : Nat) (text : Text) :
    stripFrom skip text = stripFrom 0 (text.drop skip) := by
  induction text generalizing skip with
  | nil => rw [List.drop_nil, stripFrom, stripFrom]
  | cons c rest ih =>
      cases skip with
      | zero => rfl
      | succ skip => exact ih skip

theorem stripFrom_of_sequence? {text : Text} {found : Sequence}
    (h : sequence? Char.toNat text = some found) :
    stripFrom 0 text = stripFrom 0 (text.drop found.length) := by
  have hlength := three_le_of_sequence? h
  cases text with
  | nil => cases h
  | cons c rest =>
      obtain ⟨n, hn⟩ : ∃ n, found.length = n + 1 := ⟨found.length - 1, by omega⟩
      have hcovered : covered (c :: rest) = n + 1 := by rw [covered, h, ← hn]
      rw [stripFrom, hcovered, hn, List.drop_succ_cons]
      exact stripFrom_drop n rest

/-- One step of a scan passes some of the characters that are left, a sequence or one other, and
shows what the scan by characters keeps of them. -/
theorem exists_passedAt? (before : Text) {after : Text} (more : after ≠ []) :
    ∃ passed first rest, first ++ rest = after ∧ first ≠ [] ∧
      passedAt? (before ++ after) (byteLength before) = some passed ∧
      byteLength first = passed.size ∧ stripFrom 0 after = passed.shown ++ stripFrom 0 rest := by
  have hat := atByte?_append before after
  cases hsequence : sequence? Char.toNat after with
  | some found =>
      rw [hsequence] at hat
      have hlength := three_le_of_sequence? hsequence
      let passed : Sequence := ⟨byteLength (after.take found.length), found.kind⟩
      refine ⟨.sequence passed, after.take found.length, after.drop found.length,
        List.take_append_drop _ _, ?_, ?_, rfl, stripFrom_of_sequence? hsequence⟩
      · rw [Ne, List.take_eq_nil_iff, not_or]
        exact ⟨by omega, more⟩
      · rw [passedAt?, hat]
        rfl
  | none =>
      rw [hsequence] at hat
      cases after with
      | nil => exact absurd rfl more
      | cons c rest =>
          have hcovered : covered (c :: rest) = 0 := by rw [covered, hsequence]
          refine ⟨.glyph c, [c], rest, rfl, List.cons_ne_nil _ _, ?_, rfl, ?_⟩
          · rw [passedAt?, hat, splitAtByte?_append]
            rfl
          · rw [stripFrom, hcovered]
            rfl

section Scan

variable {β : Type} (read : β → Char → β)

theorem scanBytes?_of_passedAt? {text : Text} {offset : Nat} {passed : Passed}
    (inside : offset < byteLength text) (h : passedAt? text offset = some passed) (state : β) :
    scanBytes? read text offset state =
      scanBytes? read text (offset + passed.size) (passed.shown.foldl read state) := by
  rw [scanBytes?, if_pos inside]
  split
  · rename_i hnone
    rw [h] at hnone
    cases hnone
  · rename_i passed' hpassed
    rw [h] at hpassed
    obtain rfl := Option.some.inj hpassed
    rfl

/-- A scan from a boundary reads what the scan by characters keeps of the rest. -/
theorem scanBytes?_eq (before after : Text) (state : β) :
    scanBytes? read (before ++ after) (byteLength before) state =
      some ((stripFrom 0 after).foldl read state) := by
  -- the steps are as long as the sequences, so the induction is on the characters that are left
  induction hlength : after.length using Nat.strongRecOn generalizing before after state with
  | ind length ih =>
      by_cases hnil : after = []
      · have ended : ¬ byteLength before < byteLength (before ++ after) := by
          rw [hnil, List.append_nil]
          exact Nat.lt_irrefl _
        rw [scanBytes?, if_neg ended, hnil]
        rfl
      · obtain ⟨passed, first, rest, rfl, hfirst, hpassed, hsize, hshown⟩ :=
          exists_passedAt? before hnil
        have hpos := size_pos_of_passedAt? hpassed
        have inside : byteLength before < byteLength (before ++ (first ++ rest)) := by
          rw [byteLength_append, byteLength_append]
          omega
        have hshorter : rest.length < length := by
          have := List.length_pos_iff.mpr hfirst
          rw [← hlength, List.length_append]
          omega
        rw [scanBytes?_of_passedAt? read inside hpassed, ← hsize, ← byteLength_append,
          ← List.append_assoc, ih _ hshorter _ _ _ rfl, hshown, List.foldl_append]

/-- From the beginning on, a scan by bytes reads the text without its sequences. -/
theorem scanBytes?_strip (text : Text) (state : β) :
    scanBytes? read text 0 state = some ((strip text).foldl read state) := by
  rw [strip_eq_stripFrom]
  exact scanBytes?_eq read [] text state

end Scan

/-- However a text is scanned by bytes, it is cut between characters only. Each sequence, looked for
at any offset, is of three bytes or more within the text and begins and ends between characters; a
scan that stands between characters passes something and stands so again; and so one that drops the
sequences comes to the end with the stripped text, and one that counts with its length. -/
theorem scans_onBoundaries (text : Text) :
    (∀ offset found, atByte? text offset = some found →
      IsBoundary text offset ∧ IsBoundary text (offset + found.length) ∧
        3 ≤ found.length ∧ offset + found.length ≤ byteLength text) ∧
      (∀ offset, IsBoundary text offset → offset < byteLength text →
        ∃ passed, passedAt? text offset = some passed ∧ 0 < passed.size ∧
          IsBoundary text (offset + passed.size)) ∧
      scanBytes? (fun shown c => shown ++ [c]) text 0 [] = some (strip text) ∧
      scanBytes? (fun count _ => count + 1) text 0 0 = some (Measure.visibleLength text) ∧
      Measure.visibleLength text = (strip text).length ∧
      ('\x1b' ∉ text → scanBytes? (fun shown c => shown ++ [c]) text 0 [] = some text) := by
  have stripped : scanBytes? (fun shown c => shown ++ [c]) text 0 [] = some (strip text) := by
    rw [scanBytes?_strip, List.foldl_append_eq_append, List.nil_append, ← List.flatMap_def,
      List.flatMap_singleton']
  have counted : scanBytes? (fun count _ => count + 1) text 0 0 = some (strip text).length := by
    rw [scanBytes?_strip, List.foldl_add_const, Nat.one_mul, Nat.zero_add]
  refine ⟨?_, ?_, stripped, ?_, Measure.visibleLength_eq text, ?_⟩
  · intro offset found hfound
    have hends := isBoundary_add_of_atByte? hfound
    exact ⟨isBoundary_of_atByte? hfound, hends, three_le_of_sequence? hfound, hends.le⟩
  · rintro offset ⟨before, after, rfl, rfl⟩ inside
    have more : after ≠ [] := by
      rintro rfl
      rw [List.append_nil] at inside
      exact Nat.lt_irrefl _ inside
    obtain ⟨passed, first, rest, rfl, -, hpassed, hsize, -⟩ := exists_passedAt? before more
    refine ⟨passed, hpassed, size_pos_of_passedAt? hpassed, ?_⟩
    rw [← hsize, ← byteLength_append, ← List.append_assoc]
    exact isBoundary_append _ rest
  · rw [counted, Measure.visibleLength_eq]
  · intro absent
    rw [stripped, strip_of_notMem absent]

/-- A sequence between a character of two bytes and one of a single byte. -/
theorem scans_onBoundaries_accented :
    atByte? "é\x1b[1mx" 2 = some ⟨4, .csi⟩ ∧ IsBoundary "é\x1b[1mx" 2 ∧
      IsBoundary "é\x1b[1mx" 6 ∧ ¬ IsBoundary "é\x1b[1mx" 1 ∧
      scanBytes? (fun shown c => shown ++ [c]) "é\x1b[1mx" 0 [] = some ['é', 'x'] := by
  have found : atByte? "é\x1b[1mx" 2 = some ⟨4, .csi⟩ := by decide
  obtain ⟨sequences, -, stripped, -⟩ := scans_onBoundaries "é\x1b[1mx"
  obtain ⟨begins, ends, -⟩ := sequences 2 ⟨4, .csi⟩ found
  exact ⟨found, begins, ends, by decide, stripped⟩

end Inlay.Text.Escape
