import Inlay.Proofs.Utf8
import Inlay.Proofs.Keyboard.Pauses

namespace Inlay

namespace Key

open Text

/-- Whether a terminal sends the key under its own name, which it does not for a character that
controls. -/
def isTyped : Key → Bool
  | char c => 0x20 ≤ c.toNat && c.toNat ≠ 0x7f
  | _ => true

theorem byte_of_isTyped {c : Char} (typed : (char c).isTyped = true) :
    ∀ b ∈ String.utf8EncodeChar c, 0x20 ≤ b ∧ b ≠ 0x7f := by
  rw [isTyped, Bool.and_eq_true, decide_eq_true_eq, decide_eq_true_eq] at typed
  obtain ⟨low, delete⟩ := typed
  by_cases hone : c.val.toNat ≤ 127
  · have hbyte : String.utf8EncodeChar c = [UInt8.ofNat c.val.toNat] := if_pos hone
    have hnat : (UInt8.ofNat c.val.toNat).toNat = c.toNat := Utf8.toNat_byte (by omega)
    rw [hbyte, List.forall_mem_singleton, UInt8.le_iff_toNat_le, ne_eq, ← UInt8.toNat_inj, hnat]
    exact ⟨low, delete⟩
  · intro b hb
    have high := Utf8.high_utf8EncodeChar hone b hb
    rw [UInt8.le_iff_toNat_le] at high ⊢
    rw [ne_eq, ← UInt8.toNat_inj]
    simp only [UInt8.reduceToNat] at high ⊢
    omega

namespace Decoder

theorem readChar_of_spells {bytes : List UInt8} {c : Char} (h : Utf8.Spells bytes c)
    (more : List UInt8) : readChar (bytes ++ more) = .key (.char c) bytes.length := by
  rw [readChar, h.announced_append]
  dsimp only
  rw [List.take_left, if_neg (Nat.lt_irrefl _), h.spelled]

theorem read_utf8EncodeChar {c : Char} (typed : (char c).isTyped = true) (more : List UInt8) :
    read (String.utf8EncodeChar c ++ more) =
      .key (.char c) (String.utf8EncodeChar c).length := by
  have hspells := Utf8.spells_utf8EncodeChar c
  have hread := readChar_of_spells hspells more
  cases hbytes : String.utf8EncodeChar c with
  | nil =>
      rw [hbytes] at hspells
      cases hspells.announced
  | cons b rest =>
      obtain ⟨low, delete⟩ := byte_of_isTyped typed b (hbytes ▸ List.mem_cons_self)
      have apart : ∀ {n : UInt8}, n < 0x20 → b ≠ n := by
        rintro n small rfl
        exact UInt8.not_lt.mpr low small
      rw [List.cons_append, read_of_ne_escape _ (apart (by decide)),
        if_neg (not_or.mpr ⟨apart (by decide), apart (by decide)⟩),
        if_neg (not_or.mpr ⟨delete, apart (by decide)⟩), if_neg (apart (by decide)),
        if_neg (not_or.mpr ⟨apart (by decide), apart (by decide)⟩), if_neg (UInt8.not_lt.mpr low)]
      rwa [hbytes] at hread

theorem read_control (parameters : List UInt8) {final : UInt8} (more : List UInt8)
    (hparameters : ∀ b ∈ parameters, isFinal b = false) (hfinal : isFinal final = true) :
    read (0x1b :: 0x5b :: (parameters ++ final :: more)) =
      .ofKey? (controlKey? parameters final) (parameters.length + 3) := by
  rw [read.eq_def]
  exact readControl_final more hparameters hfinal

/-- A key's bytes are read as that key, and none of what follows is. -/
theorem read_encode {k : Key} (typed : k.isTyped = true) (settled : k ≠ .escape)
    (more : List UInt8) : read (k.encode ++ more) = .key k k.encode.length := by
  cases k with
  | char c => exact read_utf8EncodeChar typed more
  | escape => exact absurd rfl settled
  | enter | backspace | tab | interrupt => exact read_of_ne_escape more (by decide)
  | up | down | left | right | home | «end» =>
      exact read_control [] more (List.forall_mem_nil _) rfl
  | delete => exact read_control [0x33] more (List.forall_mem_singleton.mpr rfl) rfl

theorem decodeFrom_encode {keys : List Key} (typed : ∀ k ∈ keys, k.isTyped = true)
    (settled : .escape ∉ keys) : decodeFrom 0 (keys.flatMap encode) = (keys, []) := by
  induction keys with
  | nil => rfl
  | cons k rest ih =>
      obtain ⟨htyped, htypeds⟩ := List.forall_mem_cons.mp typed
      rw [List.mem_cons, not_or] at settled
      rw [List.flatMap_cons, decodeFrom_of_key (read_encode htyped (Ne.symm settled.1) _),
        List.drop_left, ih htypeds settled.2]

theorem settle_encode {k : Key} (typed : k.isTyped = true) : settle k.encode = [k] := by
  by_cases hescape : k = .escape
  · rw [hescape]
    rfl
  · have hdecoded := decodeFrom_encode (List.forall_mem_singleton.mpr typed)
      (fun h => hescape (List.mem_singleton.mp h).symm)
    rw [List.flatMap_singleton] at hdecoded
    rw [settle, process, List.nil_append, hdecoded]
    rfl

end Decoder

end Key

namespace Keyboard

open Key

theorem settle_ofKeys {keys : List Key} (typed : ∀ k ∈ keys, k.isTyped = true) :
    (Script.ofKeys keys).chunks.flatMap Decoder.settle = keys := by
  rw [Script.ofKeys, List.flatMap_map]
  induction keys with
  | nil => rfl
  | cons k rest ih =>
      obtain ⟨htyped, htypeds⟩ := List.forall_mem_cons.mp typed
      rw [List.flatMap_cons, Decoder.settle_encode htyped, ih htypeds]
      rfl

theorem run_ofKeys (source : Source) {keys : List Key} (typed : ∀ k ∈ keys, k.isTyped = true) :
    (Reader.run (source.load (.ofKeys keys))).1 = keys.map .key ++ [.closed] := by
  have hloop := Reader.readLoop_load
    { source with rawMode := true, entered := source.entered + 1 } (.ofKeys keys)
  rw [settle_ofKeys typed] at hloop
  exact congrArg Prod.fst hloop

/-- Keys that are sent one by one arrive as they are, Escape included, and then the news that the
source has closed. But for Escape they arrive so when their bytes come in one run, however that is
cut into chunks, and nothing is left over. -/
theorem keys_arrive {keys : List Key} (typed : ∀ k ∈ keys, k.isTyped = true) :
    (∀ source : Source,
      (Reader.run (source.load (.ofKeys keys))).1 = keys.map .key ++ [.closed]) ∧
    (.escape ∉ keys → ∀ chunks : List (List UInt8), chunks.flatten = keys.flatMap encode →
      (Decoder.processEach {} chunks).1.flatten = keys ∧
        (Decoder.processEach {} chunks).2.pending = []) := by
  refine ⟨fun source => run_ofKeys source typed, ?_⟩
  intro settled chunks cut
  have heq := Decoder.processEach_eq_process_flatten (d := {}) rfl chunks
  rw [cut, Decoder.process, List.nil_append, Decoder.decodeFrom_encode typed settled,
    Prod.ext_iff] at heq
  exact ⟨heq.1, congrArg Decoder.pending heq.2⟩

/-- An accented letter, Escape, an arrow and a letter, and without Escape in cuts through two of
their encodings. -/
theorem keys_arrive_accent :
    (∀ k ∈ [Key.char 'é', .escape, .up, .char '語'], k.isTyped = true) ∧
    (∀ source : Source,
      (Reader.run (source.load (.ofKeys [.char 'é', .escape, .up, .char '語']))).1 =
        [.key (.char 'é'), .key .escape, .key .up, .key (.char '語'), .closed]) ∧
    Key.escape ∉ [Key.char 'é', .up] ∧
    [[0xc3], [0xa9, 0x1b, 0x5b], [], [0x41]].flatten = [Key.char 'é', .up].flatMap encode ∧
    (Decoder.processEach {} [[0xc3], [0xa9, 0x1b, 0x5b], [], [0x41]]).1.flatten =
      [.char 'é', .up] ∧
    (Decoder.processEach {} [[0xc3], [0xa9, 0x1b, 0x5b], [], [0x41]]).2.pending = [] := by
  have typed : ∀ k ∈ [Key.char 'é', .escape, .up, .char '語'], k.isTyped = true := by decide
  have settled : Key.escape ∉ [Key.char 'é', .up] := by decide
  have cut : [[0xc3], [0xa9, 0x1b, 0x5b], [], [0x41]].flatten =
      [Key.char 'é', .up].flatMap encode := by decide
  have typed' : ∀ k ∈ [Key.char 'é', .up], k.isTyped = true := by decide
  have whole := (keys_arrive typed').2 settled _ cut
  exact ⟨typed, (keys_arrive typed).1, settled, cut, whole⟩

end Keyboard

end Inlay
