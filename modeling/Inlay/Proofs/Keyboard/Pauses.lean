import Mathlib.Data.List.Forall2
import Inlay.Proofs.Decoding
import Inlay.Keyboard.Reader
/-!
What reads of a source find. A chunk is handed over piece by piece, however small the buffers are,
and one pause follows its last byte. So the keys of a chunk are those of its bytes in one piece,
settled by that pause.
-/

namespace Inlay

namespace Keyboard

namespace Source

/-- What reads find one after the other that have room for so many bytes. -/
def statuses (s : Source) (sizes : Nat → Nat) : Nat → Status
  | 0 => (s.read (sizes 0)).1
  | n + 1 => (s.read (sizes 0)).2.statuses (fun n => sizes (n + 1)) n

/-- Pieces in which a chunk is handed over. Only an empty chunk has an empty piece. -/
structure Pieces (chunk : List UInt8) (pieces : List (List UInt8)) : Prop where
  whole : pieces.flatten = chunk
  empty : chunk = [] → pieces = [[]]
  some : chunk ≠ [] → [] ∉ pieces

/-- What reads find of a chunk in pieces. -/
def told (pieces : List (List UInt8)) : List Status := pieces.map .data ++ [.idle]

/-- What reads find until a source is another. None of them is made of a source that is
exhausted. -/
inductive Finds : Source → (Nat → Nat) → List Status → Source → Prop
  | nil (s : Source) (sizes : Nat → Nat) : Finds s sizes [] s
  | cons {s next s' : Source} {sizes : Nat → Nat} {status : Status} {found : List Status}
      (more : s.isExhausted = false) (hread : s.read (sizes 0) = (status, next))
      (later : Finds next (fun n => sizes (n + 1)) found s') :
      Finds s sizes (status :: found) s'

variable {s s' s'' : Source} {sizes : Nat → Nat} {found found' : List Status}

theorem Finds.append (h : Finds s sizes found s')
    (h' : Finds s' (fun n => sizes (n + found.length)) found' s'') :
    Finds s sizes (found ++ found') s'' := by
  induction h with
  | nil => exact h'
  | cons more hread later ih => exact .cons more hread (ih h')

theorem Finds.statuses_eq (h : Finds s sizes found s') (n : Nat) :
    s.statuses sizes n =
      found[n]?.getD (s'.statuses (fun k => sizes (k + found.length)) (n - found.length)) := by
  induction h generalizing n with
  | nil s sizes => rfl
  | cons more hread later ih =>
      cases n with
      | zero =>
          rw [statuses, hread]
          rfl
      | succ n =>
          rw [statuses, hread, ih, List.getElem?_cons_succ, List.length_cons, Nat.succ_sub_succ]
          rfl

theorem Pieces.one (chunk : List UInt8) : Pieces chunk [chunk] where
  whole := List.flatten_singleton
  empty none := by rw [none]
  some some := by
    rw [List.mem_singleton]
    exact Ne.symm some

theorem Pieces.cons {size : Nat} {chunk : List UInt8} {pieces : List (List UInt8)}
    (positive : 0 < size) (more : size < chunk.length) (h : Pieces (chunk.drop size) pieces) :
    Pieces chunk (chunk.take size :: pieces) where
  whole := by rw [List.flatten_cons, h.whole, List.take_append_drop]
  empty none := by
    rw [none] at more
    cases more
  some _ := by
    have hdrop : chunk.drop size ≠ [] := by simpa using more
    rw [List.mem_cons, not_or]
    refine ⟨?_, h.some hdrop⟩
    intro hnil
    rw [eq_comm, List.take_eq_nil_iff] at hnil
    rcases hnil with hsize | hchunk
    · omega
    · rw [hchunk] at more
      cases more

/-- A source amid a chunk. -/
def amid (source : Source) (script : Script) (rest : List UInt8) : Source :=
  { source.load script with rest := rest }

variable (source : Source) (script : Script)

theorem deliver_all {size : Nat} {rest : List UInt8} (hall : rest.length ≤ size) :
    (source.amid script rest).deliver size =
      (.data rest, { source.load script with pause := true }) := by
  simp only [deliver, amid]
  rw [List.take_of_length_le hall, List.drop_of_length_le hall]
  rfl

theorem deliver_some {size : Nat} {rest : List UInt8} (hsome : size < rest.length) :
    (source.amid script rest).deliver size =
      (.data (rest.take size), source.amid script (rest.drop size)) := by
  have hmore : (rest.drop size).isEmpty = false := by simpa using hsome
  simp only [deliver, amid, hmore]
  rfl

theorem read_amid {rest : List UInt8} (some : rest ≠ []) (size : Nat) :
    (source.amid script rest).read size = (source.amid script rest).deliver size := by
  rw [read, if_neg (show ¬(source.amid script rest).pause = true from Bool.false_ne_true),
    if_neg (show ¬(source.amid script rest).rest.isEmpty = true from
      mt List.isEmpty_iff.mp some)]

theorem isExhausted_amid {rest : List UInt8} (some : rest ≠ []) :
    (source.amid script rest).isExhausted = false := by
  rw [isExhausted, show (source.amid script rest).rest.isEmpty = false from
    Bool.eq_false_iff.mpr (mt List.isEmpty_iff.mp some), Bool.and_false, Bool.false_and]

/-- From the rest of a chunk on its pieces are found and the pause after them. -/
theorem exists_pieces (positive : ∀ n, 0 < sizes n) (rest : List UInt8)
    (more : s.isExhausted = false)
    (hread : s.read (sizes 0) = (source.amid script rest).deliver (sizes 0)) :
    ∃ pieces, Pieces rest pieces ∧ Finds s sizes (told pieces) (source.load script) := by
  induction hlength : rest.length using Nat.strongRecOn generalizing s sizes rest with
  | ind length ih =>
      by_cases hall : rest.length ≤ sizes 0
      · rw [deliver_all source script hall] at hread
        exact ⟨[rest], .one rest, .cons more hread (.cons rfl rfl (.nil _ _))⟩
      · have hsome := Nat.lt_of_not_le hall
        have hdrop : rest.drop (sizes 0) ≠ [] := by simpa using hsome
        have hpositive := positive 0
        rw [deliver_some source script hsome] at hread
        obtain ⟨pieces, hpieces, later⟩ := ih (rest.drop (sizes 0)).length
          (by rw [List.length_drop]; omega) (fun n => positive (n + 1)) _
          (isExhausted_amid source script hdrop) (read_amid source script hdrop _) rfl
        exact ⟨_, hpieces.cons hpositive hsome, .cons more hread later⟩

/-- Chunk after chunk a source is read to the end of its script. -/
theorem exists_finds (positive : ∀ n, 0 < sizes n) :
    ∃ pieces, List.Forall₂ Pieces script.chunks pieces ∧
      Finds (source.load script) sizes (pieces.flatMap told)
        (source.load { script with chunks := [] }) := by
  generalize hchunks : script.chunks = chunks
  induction chunks generalizing script sizes with
  | nil =>
      have ended : { script with chunks := [] } = script := by rw [← hchunks]
      rw [ended]
      exact ⟨[], .nil, .nil _ _⟩
  | cons chunk rest ih =>
      have more : (source.load script).isExhausted = false := by
        simp [isExhausted, load, hchunks]
      have first : (source.load script).read (sizes 0) =
          (source.amid { script with chunks := rest } chunk).deliver (sizes 0) := by
        simp [read, load, amid, hchunks]
      obtain ⟨pieces, hpieces, first⟩ := exists_pieces source _ positive chunk more first
      obtain ⟨later, hlater, finds⟩ := ih { script with chunks := rest }
        (fun n => positive (n + (told pieces).length)) rfl
      exact ⟨pieces :: later, .cons hpieces hlater, first.append finds⟩

theorem statuses_exhausted (ended : script.chunks = []) (n : Nat) :
    (source.load script).statuses sizes n = script.ending.status := by
  have hread (size : Nat) : (source.load script).read size =
      (script.ending.status, source.load script) := by
    simp [read, load, ended]
  induction n generalizing sizes with
  | zero => rw [statuses, hread]
  | succ n ih => rw [statuses, hread, ih]

/-- No read finds more than it has room for. -/
theorem length_le_of_read {bytes : List UInt8} {size : Nat}
    (h : (s.read size).1 = .data bytes) : bytes.length ≤ size := by
  have hdeliver (s : Source) (h : (s.deliver size).1 = .data bytes) : bytes.length ≤ size := by
    rw [deliver, Status.data.injEq] at h
    rw [← h]
    exact List.length_take_le _ _
  unfold read at h
  split at h
  · cases h
  · split at h
    · split at h
      · cases hending : s.script.ending with
        | _ =>
            rw [hending] at h
            cases h
      · exact hdeliver _ h
    · exact hdeliver _ h

theorem length_le_of_statuses {bytes : List UInt8} {n : Nat}
    (h : s.statuses sizes n = .data bytes) : bytes.length ≤ sizes n := by
  induction n generalizing s sizes with
  | zero => exact length_le_of_read h
  | succ n ih => exact ih h

end Source

end Keyboard

namespace Key.Decoder

/-- The keys of one chunk of bytes and the pause after it. -/
def settle (bytes : List UInt8) : List Key :=
  let (keys, decoder) := process {} bytes
  keys ++ decoder.flush.1

/-- What a decoder makes of what a read finds. -/
def heed (d : Decoder) : Keyboard.Status → List Key × Decoder
  | .data bytes => d.process bytes
  | _ => d.flush

def heedEach (d : Decoder) : List Keyboard.Status → List Key × Decoder
  | [] => ([], d)
  | status :: rest =>
      let later := heedEach (d.heed status).2 rest
      ((d.heed status).1 ++ later.1, later.2)

theorem heedEach_append (d : Decoder) (found found' : List Keyboard.Status) :
    d.heedEach (found ++ found') =
      ((d.heedEach found).1 ++ ((d.heedEach found).2.heedEach found').1,
        ((d.heedEach found).2.heedEach found').2) := by
  induction found generalizing d with
  | nil => rfl
  | cons status rest ih =>
      rw [List.cons_append, heedEach, ih, heedEach, List.append_assoc]

theorem heedEach_data (d : Decoder) (pieces : List (List UInt8)) :
    d.heedEach (pieces.map .data) =
      ((d.processEach pieces).1.flatten, (d.processEach pieces).2) := by
  induction pieces generalizing d with
  | nil => rfl
  | cons piece rest ih =>
      rw [List.map_cons, heedEach, heed, ih]
      rfl

/-- In pieces a chunk gives the keys that it gives in one. -/
theorem heedEach_told {chunk : List UInt8} {pieces : List (List UInt8)}
    (h : Keyboard.Source.Pieces chunk pieces) :
    heedEach {} (Keyboard.Source.told pieces) = (settle chunk, {}) := by
  have hwhole := processEach_eq_process_flatten (d := {}) rfl pieces
  rw [h.whole] at hwhole
  rw [Keyboard.Source.told, heedEach_append, heedEach_data, hwhole]
  simp only [heedEach, heed, List.append_nil]
  rfl

theorem heedEach_flatMap_told {chunks : List (List UInt8)} {pieces : List (List (List UInt8))}
    (h : List.Forall₂ Keyboard.Source.Pieces chunks pieces) :
    heedEach {} (pieces.flatMap Keyboard.Source.told) = (chunks.flatMap settle, {}) := by
  induction h with
  | nil => rfl
  | cons first later ih =>
      rw [List.flatMap_cons, heedEach_append, heedEach_told first, ih, List.flatMap_cons]

end Key.Decoder

namespace Keyboard.Reader

open Key

theorem readLoop_of_finds {s s' : Source} {found : List Status}
    (h : s.Finds (fun _ => bufferSize) found s') (decoder : Decoder) :
    readLoop s decoder =
      ((decoder.heedEach found).1.map .key ++ (readLoop s' (decoder.heedEach found).2).1,
        (readLoop s' (decoder.heedEach found).2).2) := by
  generalize hsizes : (fun _ : Nat => bufferSize) = sizes at h
  induction h generalizing decoder with
  | nil => rfl
  | @cons _ _ _ _ status _ more hread later ih =>
      subst hsizes
      rw [readLoop, dif_neg (Bool.eq_false_iff.mp more), hread, Decoder.heedEach, List.map_append,
        List.append_assoc]
      cases status with
      | _ =>
          dsimp only
          rw [ih _ rfl]
          rfl

theorem readLoop_load (source : Source) (script : Script) :
    readLoop (source.load script) {} =
      ((script.chunks.flatMap Decoder.settle).map .key ++ farewell {} script.ending,
        source.load { script with chunks := [] }) := by
  have positive (n : Nat) : 0 < (fun _ : Nat => bufferSize) n := Nat.zero_lt_succ _
  obtain ⟨pieces, hpieces, finds⟩ := source.exists_finds script positive
  have hend : readLoop (source.load { script with chunks := [] }) {} =
      (farewell {} script.ending, source.load { script with chunks := [] }) := by
    rw [readLoop]
    exact dif_pos rfl
  rw [readLoop_of_finds finds, Decoder.heedEach_flatMap_told hpieces, hend]

end Keyboard.Reader

namespace Keyboard

/-- Whatever room the reads have, they find chunk after chunk the bytes of each in order and one
pause after its last, and from then on how the script ends. So a reader of the script hears the
keys of each chunk as of one piece that the pause settles. -/
theorem chunks_arriveWhole (source : Source) (script : Script) {sizes : Nat → Nat}
    (positive : ∀ n, 0 < sizes n) :
    (∃ pieces, List.Forall₂ Source.Pieces script.chunks pieces ∧
      ∀ n, (source.load script).statuses sizes n =
        (pieces.flatMap Source.told)[n]?.getD script.ending.status) ∧
    (∀ n bytes, (source.load script).statuses sizes n = .data bytes →
      bytes.length ≤ sizes n) ∧
    (Reader.readLoop (source.load script) {}).1 =
      (script.chunks.flatMap Key.Decoder.settle).map .key ++ Reader.farewell {} script.ending := by
  refine ⟨?_, fun n bytes => Source.length_le_of_statuses, ?_⟩
  · obtain ⟨pieces, hpieces, finds⟩ := source.exists_finds script positive
    refine ⟨pieces, hpieces, ?_⟩
    intro n
    rw [finds.statuses_eq, Source.statuses_exhausted _ _ rfl]
  · rw [Reader.readLoop_load]

/-- A letter with an arrow key that is cut, and a chunk with nothing in it. -/
theorem chunks_arriveWhole_cutArrow :
    let script : Script := { chunks := [[0x61, 0x1b, 0x5b, 0x41], []] }
    (∀ n, 0 < n % 2 + 1) ∧
    (List.range 8).map (Source.statuses (Source.load {} script) fun n => n % 2 + 1) =
      [.data [0x61], .data [0x1b, 0x5b], .data [0x41], .idle, .data [], .idle, .closed,
        .closed] ∧
    (∃ pieces, List.Forall₂ Source.Pieces script.chunks pieces ∧
      ∀ n, (Source.load {} script).statuses (fun n => n % 2 + 1) n =
        (pieces.flatMap Source.told)[n]?.getD .closed) ∧
    (Reader.readLoop (Source.load {} script) {}).1 =
      [.key (.char 'a'), .key .up, .closed] := by
  intro script
  have positive : ∀ n, 0 < n % 2 + 1 := fun n => Nat.succ_pos _
  obtain ⟨statuses, -, keys⟩ := chunks_arriveWhole {} script positive
  exact ⟨positive, by decide, statuses, keys⟩

end Keyboard

end Inlay
