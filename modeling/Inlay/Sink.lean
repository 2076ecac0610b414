import Inlay.Failure
import Inlay.Text.Utf8
/-!
Sinks for bytes. A sink answers every write call by accepting some of the bytes offered, by an
interruption, after which the same bytes are offered again, or by a fault. What it has accepted
since the last flush becomes one frame with the next.
-/

namespace Inlay

namespace Sink

inductive Answer where
  | accept (most : Nat)
  | interrupted
  | refuse (fault : Fault)
deriving DecidableEq, Repr

/-- How a sink behaves: its answer to each write call, by the call's number and the number of bytes
offered, and to each flush. No call is interrupted for ever. -/
structure Behavior where
  answer : Nat → Nat → Answer
  flush : Nat → Option Fault
  calmFrom : Nat
  calm : ∀ call offered, calmFrom ≤ call → answer call offered ≠ .interrupted

namespace Behavior

def faultless : Behavior where
  answer _ offered := .accept offered
  flush _ := none
  calmFrom := 0
  calm := by simp

/-- Trouble that a sink makes: the calls from number `first` on, `count` of them or all, are
answered by `trouble`, every other one takes at most `short` bytes, and every flush may fail. -/
structure Trouble where
  first : Option Nat := none
  count : Option Nat := none
  trouble : Answer := .accept 0
  short : Option Nat := none
  flush : Option Fault := none
deriving DecidableEq, Repr

/-- Whether a call is one of those in trouble. Interruptions end, so with no count there are
none. -/
def Trouble.strikes (t : Trouble) (call : Nat) : Bool :=
  match t.first, t.count with
  | none, _ => false
  | some first, some count => first ≤ call && call < first + count
  | some first, none => t.trouble ≠ .interrupted && first ≤ call

def Trouble.lastCall (t : Trouble) : Nat := t.first.getD 0 + t.count.getD 0

theorem Trouble.not_interrupted_of_strikes {t : Trouble} {call : Nat} (late : t.lastCall ≤ call)
    (h : t.strikes call = true) : t.trouble ≠ .interrupted := by
  unfold strikes at h
  unfold lastCall at late
  split at h
  · simp at h
  · rename_i first count hfirst hcount
    simp only [hfirst, hcount, Option.getD_some, Bool.and_eq_true, decide_eq_true_eq] at late h
    omega
  · simp_all

def ofTrouble (t : Trouble) : Behavior where
  answer call offered :=
    if t.strikes call then t.trouble else .accept ((t.short.map (min offered)).getD offered)
  flush _ := t.flush
  calmFrom := t.lastCall
  calm call offered late := by
    split
    · rename_i h
      exact Trouble.not_interrupted_of_strikes late h
    · simp

end Behavior

end Sink

/-- A sink in use: the write calls made so far, the bytes that each successful one accepted, the
frames flushed and the bytes accepted since. -/
structure Sink where
  behavior : Sink.Behavior := .faultless
  calls : Nat := 0
  accepted : List Nat := []
  frames : List (List UInt8) := []
  unflushed : List UInt8 := []

namespace Sink

def writeZero : Fault := ⟨.writeZero, "failed to write whole buffer"⟩

def pass (sink : Sink) : Sink := { sink with calls := sink.calls + 1 }

def take (sink : Sink) (taken : List UInt8) : Sink :=
  { sink with
    calls := sink.calls + 1
    accepted := sink.accepted ++ [taken.length]
    unflushed := sink.unflushed ++ taken }

/-- Offers bytes until all are accepted. Interrupted calls are repeated; a call that accepts
nothing is a fault. -/
def writeAll (sink : Sink) (bytes : List UInt8) : Except Fault Unit × Sink :=
  if bytes.isEmpty then (.ok (), sink)
  else match _answered : sink.behavior.answer sink.calls bytes.length with
    | .interrupted => writeAll sink.pass bytes
    | .refuse fault => (.error fault, sink.pass)
    | .accept most =>
        if most = 0 then (.error writeZero, sink.pass)
        else writeAll (sink.take (bytes.take most)) (bytes.drop most)
termination_by sink.behavior.calmFrom - sink.calls + bytes.length
decreasing_by
  · have early : sink.calls < sink.behavior.calmFrom := by
      apply Nat.lt_of_not_le
      intro late
      exact sink.behavior.calm _ _ late _answered
    simp only [pass]
    omega
  · rename_i nonempty positive
    have : bytes.length ≠ 0 := by simpa using nonempty
    simp only [take, List.length_drop]
    omega

def flush (sink : Sink) : Except Fault Unit × Sink :=
  let flushed :=
    { sink with
      frames := sink.frames ++ [sink.unflushed]
      unflushed := [] }
  match sink.behavior.flush sink.frames.length with
  | some fault => (.error fault, flushed)
  | none => (.ok (), flushed)

def chunkSize : Nat := 4096

/-- Bytes in pieces of at most `chunkSize`; only the last may be shorter. -/
def chunks (bytes : List UInt8) : List (List UInt8) :=
  if bytes.isEmpty then []
  else bytes.take chunkSize :: chunks (bytes.drop chunkSize)
termination_by bytes.length
decreasing_by
  rename_i nonempty
  have : bytes.length ≠ 0 := by simpa using nonempty
  rw [List.length_drop]
  unfold chunkSize
  omega

def writeEach (sink : Sink) : List (List UInt8) → Except Fault Unit × Sink
  | [] => (.ok (), sink)
  | chunk :: rest =>
      match sink.writeAll chunk with
      | (.ok (), sink) => writeEach sink rest
      | (.error fault, sink) => (.error fault, sink)

/-- Writes bytes chunk by chunk and flushes the sink once all are accepted. -/
def writeChunked (sink : Sink) (bytes : List UInt8) : Except Fault Unit × Sink :=
  match sink.writeEach (chunks bytes) with
  | (.ok (), sink) => sink.flush
  | (.error fault, sink) => (.error fault, sink)

def write (sink : Sink) (text : Text) : Except Fault Unit × Sink :=
  sink.writeChunked (Text.Utf8.encode text)

end Sink

end Inlay
