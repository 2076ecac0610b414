import Inlay.Key.Decoder
/-!
Decoding keys piece by piece. A reading of the bytes at hand that decides anything stays the same
when more bytes arrive, so it makes no difference where the bytes were cut into chunks.
-/

namespace Inlay.Key

namespace Reading

/-- The bytes that a reading consumes, if it decides anything. -/
def used? : Reading → Option Nat
  | key _ used | skip used => some used
  | incomplete => none

@[simp] theorem used?_ofKey? (key? : Option Key) (used : Nat) :
    (ofKey? key? used).used? = some used := by
  cases key? <;> rfl

@[simp] theorem used?_afterEscape (r : Reading) :
    r.afterEscape.used? = r.used?.map (· + 1) := by
  cases r <;> rfl

theorem afterEscape_ne_incomplete {r : Reading} (h : r.afterEscape ≠ .incomplete) :
    r ≠ .incomplete := by
  rintro rfl
  exact h rfl

end Reading

namespace Decoder

theorem readControl_final {parameters : List UInt8} {final : UInt8} (rest : List UInt8)
    (hparameters : ∀ b ∈ parameters, isFinal b = false) (hfinal : isFinal final = true) :
    readControl (parameters ++ final :: rest) =
      .ofKey? (controlKey? parameters final) (parameters.length + 3) := by
  have htake : ((parameters ++ final :: rest).takeWhile fun b => !isFinal b) = parameters := by
    rw [List.takeWhile_append_of_pos (by simpa using hparameters)]
    simp [hfinal]
  simp only [readControl, htake, List.drop_left]

theorem exists_final_of_readControl {body : List UInt8} (h : readControl body ≠ .incomplete) :
    ∃ parameters final rest, body = parameters ++ final :: rest ∧
      (∀ b ∈ parameters, isFinal b = false) ∧ isFinal final = true := by
  have hsplit := List.takeWhile_append_dropWhile (p := fun b => !isFinal b) (l := body)
  cases hrest : body.dropWhile fun b => !isFinal b with
  | nil =>
      rw [hrest, List.append_nil] at hsplit
      simp [readControl, hsplit] at h
  | cons final rest =>
      rw [hrest] at hsplit
      refine ⟨_, final, rest, hsplit.symm, ?_, ?_⟩
      · intro b hb
        have hall : (body.takeWhile fun b => !isFinal b).all (fun b => !isFinal b) = true :=
          List.all_takeWhile
        simpa using List.all_eq_true.mp hall b hb
      · have hhead := List.head?_dropWhile_not (fun b => !isFinal b) body
        simpa [hrest] using hhead

theorem readControl_append {body : List UInt8} (more : List UInt8)
    (h : readControl body ≠ .incomplete) : readControl (body ++ more) = readControl body := by
  obtain ⟨parameters, final, rest, rfl, hparameters, hfinal⟩ := exists_final_of_readControl h
  rw [List.append_assoc, List.cons_append, readControl_final _ hparameters hfinal,
    readControl_final _ hparameters hfinal]

theorem le_of_used?_readControl {body : List UInt8} {n : Nat}
    (h : (readControl body).used? = some n) : 1 ≤ n ∧ n ≤ body.length + 2 := by
  have hne : readControl body ≠ .incomplete := by
    intro hi
    simp [hi, Reading.used?] at h
  obtain ⟨parameters, final, rest, rfl, hparameters, hfinal⟩ := exists_final_of_readControl hne
  rw [readControl_final _ hparameters hfinal, Reading.used?_ofKey?, Option.some.injEq] at h
  rw [List.length_append, List.length_cons]
  omega

theorem readChar_cons (b : UInt8) (rest : List UInt8) :
    readChar (b :: rest) =
      match Text.Utf8.announced? b with
      | none => .skip 1
      | some length =>
          if rest.length + 1 < length then .incomplete
          else match Text.Utf8.char? ((b :: rest).take length) with
            | some c => .key (.char c) length
            | none => .skip 1 := by
  rw [readChar]
  simp only [List.head?_cons, Option.bind_some, List.length_take, List.length_cons]
  cases Text.Utf8.announced? b with
  | none => rfl
  | some length =>
      have : min length (rest.length + 1) < length ↔ rest.length + 1 < length := by omega
      exact ite_congr (propext this) (fun _ => rfl) fun _ => rfl

theorem one_le_of_announced? {b : UInt8} {length : Nat}
    (h : Text.Utf8.announced? b = some length) : 1 ≤ length := by
  rw [Text.Utf8.announced?] at h
  grind

theorem readChar_append {b : UInt8} {rest : List UInt8} (more : List UInt8)
    (h : readChar (b :: rest) ≠ .incomplete) :
    readChar (b :: rest ++ more) = readChar (b :: rest) := by
  rw [readChar_cons] at h
  rw [List.cons_append, readChar_cons, readChar_cons]
  cases hlength : Text.Utf8.announced? b with
  | none => rfl
  | some length =>
      simp only [hlength] at h ⊢
      have hshort : ¬ rest.length + 1 < length := by
        intro hlt
        simp [hlt] at h
      have hshort' : ¬ (rest ++ more).length + 1 < length := by
        rw [List.length_append]
        omega
      rw [if_neg hshort, if_neg hshort', ← List.cons_append,
        List.take_append_of_le_length (by rw [List.length_cons]; omega)]

theorem le_of_used?_readChar {b : UInt8} {rest : List UInt8} {n : Nat}
    (h : (readChar (b :: rest)).used? = some n) : 1 ≤ n ∧ n ≤ rest.length + 1 := by
  rw [readChar_cons] at h
  cases hlength : Text.Utf8.announced? b with
  | none =>
      simp only [hlength, Reading.used?, Option.some.injEq] at h
      omega
  | some length =>
      have hpos := one_le_of_announced? hlength
      simp only [hlength] at h
      split at h
      · simp [Reading.used?] at h
      · split at h
        all_goals
          simp only [Reading.used?, Option.some.injEq] at h
          omega

theorem read_of_ne_escape {b : UInt8} (rest : List UInt8) (h : b ≠ 0x1b) :
    read (b :: rest) =
      if b = 0x0d ∨ b = 0x0a then .key .enter 1
      else if b = 0x7f ∨ b = 0x08 then .key .backspace 1
      else if b = 0x09 then .key .tab 1
      else if b = 0x03 ∨ b = 0x18 then .key .interrupt 1
      else if b < 0x20 then .skip 1
      else readChar (b :: rest) := by
  rw [read.eq_def]
  simp only [h, if_false]

/-- Every reading that decides anything consumes at least one byte and no more than there are. -/
theorem le_of_used?_read {bytes : List UInt8} {n : Nat} (h : (read bytes).used? = some n) :
    1 ≤ n ∧ n ≤ bytes.length := by
  fun_induction read bytes generalizing n with
  | case1 | case2 | case4 => simp [Reading.used?] at h
  | case3 body => simpa using le_of_used?_readControl h
  | case5 body final _ =>
      rw [Reading.used?_ofKey?, Option.some.injEq] at h
      simp only [List.length_cons]
      omega
  | case7 next body _ _ _ ih =>
      rw [Reading.used?_afterEscape, Option.map_eq_some_iff] at h
      obtain ⟨m, hm, rfl⟩ := h
      have := ih hm
      simp only [List.length_cons] at this ⊢
      omega
  | case13 b rest => exact le_of_used?_readChar h
  | case6 | case8 | case9 | case10 | case11 | case12 =>
      simp only [Reading.used?, Option.some.injEq] at h
      simp only [List.length_cons]
      omega

theorem le_of_read_key {bytes : List UInt8} {k : Key} {n : Nat} (h : read bytes = .key k n) :
    1 ≤ n ∧ n ≤ bytes.length := by
  apply le_of_used?_read
  rw [h]
  rfl

theorem le_of_read_skip {bytes : List UInt8} {n : Nat} (h : read bytes = .skip n) :
    1 ≤ n ∧ n ≤ bytes.length := by
  apply le_of_used?_read
  rw [h]
  rfl

/-- A reading that decides anything is not changed by what follows. -/
theorem read_append {bytes : List UInt8} (more : List UInt8) (h : read bytes ≠ .incomplete) :
    read (bytes ++ more) = read bytes := by
  fun_induction read bytes with
  | case1 | case2 | case4 => exact absurd rfl h
  | case3 body => simpa [read] using readControl_append more h
  | case5 body final _ => simp [read]
  | case6 => simp [read]
  -- the key after the escape is read in turn, and that reading does not change either
  | case7 next body hcontrol happlication hescape ih =>
      simpa [read, hcontrol, happlication, hescape] using
        congrArg Reading.afterEscape (ih (Reading.afterEscape_ne_incomplete h))
  | case13 b rest hescape h1 h2 h3 h4 h5 =>
      rw [List.cons_append, read_of_ne_escape _ hescape]
      simp only [h1, h2, h3, h4, h5, if_false]
      exact readChar_append more h
  | case8 | case9 | case10 | case11 | case12 =>
      rw [List.cons_append, read_of_ne_escape _ (by assumption)]
      simp only [*, if_true, if_false]

theorem decodeFrom_eq_drop (skip : Nat) (bytes : List UInt8) :
    decodeFrom skip bytes = decodeFrom 0 (bytes.drop skip) := by
  induction bytes generalizing skip with
  | nil => simp [decodeFrom]
  | cons b rest ih =>
      cases skip with
      | zero => rfl
      | succ skip => simpa [decodeFrom] using ih skip

theorem decodeFrom_pred_eq_drop {b : UInt8} {rest : List UInt8} {n : Nat} (h : 1 ≤ n) :
    decodeFrom (n - 1) rest = decodeFrom 0 ((b :: rest).drop n) := by
  obtain ⟨m, rfl⟩ := Nat.exists_eq_add_of_le' h
  rw [decodeFrom_eq_drop]
  rfl

theorem decodeFrom_of_key {bytes : List UInt8} {k : Key} {n : Nat} (h : read bytes = .key k n) :
    decodeFrom 0 bytes =
      (k :: (decodeFrom 0 (bytes.drop n)).1, (decodeFrom 0 (bytes.drop n)).2) := by
  have hused := le_of_read_key h
  cases bytes with
  | nil => simp [read] at h
  | cons b rest =>
      simp only [decodeFrom, h]
      rw [decodeFrom_pred_eq_drop hused.1]

theorem decodeFrom_of_skip {bytes : List UInt8} {n : Nat} (h : read bytes = .skip n) :
    decodeFrom 0 bytes = decodeFrom 0 (bytes.drop n) := by
  have hused := le_of_read_skip h
  cases bytes with
  | nil => simp [read] at h
  | cons b rest =>
      simp only [decodeFrom, h]
      rw [decodeFrom_pred_eq_drop hused.1]

theorem decodeFrom_of_incomplete {bytes : List UInt8} (h : read bytes = .incomplete) :
    decodeFrom 0 bytes = ([], bytes) := by
  cases bytes with
  | nil => rfl
  | cons b rest => simp only [decodeFrom, h]

/-- What is left over after decoding is empty or the start of something longer. -/
theorem read_decodeFrom (bytes : List UInt8) : read (decodeFrom 0 bytes).2 = .incomplete := by
  induction hlength : bytes.length using Nat.strongRecOn generalizing bytes with
  | _ length ih =>
      cases hread : read bytes with
      | incomplete => rwa [decodeFrom_of_incomplete hread]
      | key k n =>
          have hused := le_of_read_key hread
          rw [decodeFrom_of_key hread]
          exact ih _ (by rw [List.length_drop]; omega) _ rfl
      | skip n =>
          have hused := le_of_read_skip hread
          rw [decodeFrom_of_skip hread]
          exact ih _ (by rw [List.length_drop]; omega) _ rfl

theorem decodeFrom_append (bytes more : List UInt8) :
    decodeFrom 0 (bytes ++ more) =
      ((decodeFrom 0 bytes).1 ++ (decodeFrom 0 ((decodeFrom 0 bytes).2 ++ more)).1,
        (decodeFrom 0 ((decodeFrom 0 bytes).2 ++ more)).2) := by
  induction hlength : bytes.length using Nat.strongRecOn generalizing bytes with
  | _ length ih =>
      cases hread : read bytes with
      | incomplete => simp [decodeFrom_of_incomplete hread]
      | key k n =>
          have hused := le_of_read_key hread
          have hmore : read (bytes ++ more) = .key k n := by
            rw [read_append more (by simp [hread]), hread]
          rw [decodeFrom_of_key hread, decodeFrom_of_key hmore,
            List.drop_append_of_le_length hused.2,
            ih _ (by rw [List.length_drop]; omega) _ rfl]
          rfl
      | skip n =>
          have hused := le_of_read_skip hread
          have hmore : read (bytes ++ more) = .skip n := by
            rw [read_append more (by simp [hread]), hread]
          rw [decodeFrom_of_skip hread, decodeFrom_of_skip hmore,
            List.drop_append_of_le_length hused.2,
            ih _ (by rw [List.length_drop]; omega) _ rfl]

/-- The decoders that come about by processing bytes and flushing. -/
inductive Reachable : Decoder → Prop
  | new : Reachable {}
  | process {d : Decoder} (bytes : List UInt8) : Reachable d → Reachable (d.process bytes).2
  | flush {d : Decoder} : Reachable d → Reachable d.flush.2

theorem read_pending_of_reachable {d : Decoder} (h : Reachable d) :
    read d.pending = .incomplete := by
  cases h with
  | new | flush => rfl
  | process bytes _ => exact read_decodeFrom _

/-- The keys of each of several chunks processed one after another, and the decoder after them. -/
def processEach (d : Decoder) : List (List UInt8) → List (List Key) × Decoder
  | [] => ([], d)
  | bytes :: rest =>
      let (keys, d) := d.process bytes
      let (later, d) := processEach d rest
      (keys :: later, d)

theorem process_append (d : Decoder) (bytes more : List UInt8) :
    d.process (bytes ++ more) =
      ((d.process bytes).1 ++ ((d.process bytes).2.process more).1,
        ((d.process bytes).2.process more).2) := by
  simp only [process]
  rw [← List.append_assoc, decodeFrom_append]

theorem processEach_eq_process_flatten {d : Decoder} (h : read d.pending = .incomplete)
    (chunks : List (List UInt8)) :
    ((d.processEach chunks).1.flatten, (d.processEach chunks).2) = d.process chunks.flatten := by
  induction chunks generalizing d with
  | nil => simp [processEach, process, decodeFrom_of_incomplete h]
  | cons bytes rest ih =>
      rw [List.flatten_cons, process_append, ← ih (read_decodeFrom _)]
      rfl

/-- However bytes are cut into chunks, they give the same keys and leave the same bytes over. Each
reading on the way consumes at least one byte and no more than there are, and what is left over is
empty or the start of something longer. -/
theorem processEach_cut {d : Decoder} (reachable : Reachable d) (bytes : List UInt8)
    (chunks : List (List UInt8)) (cut : chunks.flatten = bytes) :
    (d.processEach chunks).1.flatten = (d.process bytes).1 ∧
      (d.processEach chunks).2.pending = (d.process bytes).2.pending ∧
      (∀ here n, (read here).used? = some n → 1 ≤ n ∧ n ≤ here.length) ∧
      ((d.process bytes).2.pending = [] ∨ read (d.process bytes).2.pending = .incomplete) := by
  have heq := processEach_eq_process_flatten (read_pending_of_reachable reachable) chunks
  rw [cut, Prod.ext_iff] at heq
  refine ⟨heq.1, congrArg pending heq.2, fun _ _ => le_of_used?_read, Or.inr ?_⟩
  exact read_decodeFrom _

/-- An arrow key and a character of two bytes, both cut, after an ESC that waits. -/
theorem processEach_cut_arrow :
    (processEach ⟨[0x1b]⟩ [[0x5b], [0x41, 0xc3], [0xa9, 0x1b]]).1.flatten =
        (process ⟨[0x1b]⟩ [0x5b, 0x41, 0xc3, 0xa9, 0x1b]).1 ∧
      (process ⟨[0x1b]⟩ [0x5b, 0x41, 0xc3, 0xa9, 0x1b]).2.pending = [0x1b] :=
  ⟨(processEach_cut (.process [0x1b] .new) _ _ rfl).1, rfl⟩

end Decoder

end Inlay.Key
