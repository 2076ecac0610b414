import Inlay.Sink

namespace Inlay.Sink

/-- Writes texts in order. After a write that fails the next is attempted all the same. -/
def attempts (sink : Sink) (texts : List Text) : Sink :=
  texts.foldl (fun sink text => (sink.write text).2) sink

@[simp] theorem attempts_nil (sink : Sink) : sink.attempts [] = sink := rfl

theorem attempts_append (sink : Sink) (texts texts' : List Text) :
    sink.attempts (texts ++ texts') = (sink.attempts texts).attempts texts' :=
  List.foldl_append

@[simp] theorem behavior_pass (sink : Sink) : sink.pass.behavior = sink.behavior := rfl

@[simp] theorem behavior_take (sink : Sink) (taken : List UInt8) :
    (sink.take taken).behavior = sink.behavior :=
  rfl

@[simp] theorem behavior_writeAll (sink : Sink) (bytes : List UInt8) :
    (sink.writeAll bytes).2.behavior = sink.behavior := by
  fun_induction writeAll sink bytes with
  | case1 sink bytes none => rfl
  | case2 sink bytes some answered ih => exact ih
  | case3 sink bytes some fault answered => rfl
  | case4 sink bytes some answered => rfl
  | case5 sink bytes some most answered positive ih => exact ih

@[simp] theorem behavior_flush (sink : Sink) : sink.flush.2.behavior = sink.behavior := by
  unfold flush
  dsimp only
  split
  · rfl
  · rfl

@[simp] theorem behavior_writeEach (sink : Sink) (chunks : List (List UInt8)) :
    (sink.writeEach chunks).2.behavior = sink.behavior := by
  induction chunks generalizing sink with
  | nil => rfl
  | cons chunk rest ih =>
      have first := behavior_writeAll sink chunk
      rw [writeEach]
      split
      · rename_i sink' hwrite
        rw [hwrite] at first
        exact (ih sink').trans first
      · rename_i fault sink' hwrite
        rw [hwrite] at first
        exact first

@[simp] theorem behavior_write (sink : Sink) (text : Text) :
    (sink.write text).2.behavior = sink.behavior := by
  have each := behavior_writeEach sink (chunks (Text.Utf8.encode text))
  unfold write writeChunked
  split
  · rename_i sink' hwrite
    rw [hwrite] at each
    rw [behavior_flush]
    exact each
  · rename_i fault sink' hwrite
    rw [hwrite] at each
    exact each

@[simp] theorem behavior_attempts (sink : Sink) (texts : List Text) :
    (sink.attempts texts).behavior = sink.behavior := by
  induction texts generalizing sink with
  | nil => rfl
  | cons text rest ih => exact (ih _).trans (behavior_write sink text)

/-- Some of what is offered is accepted, if not at once then after interruptions, and no flush
fails. -/
structure Behavior.Willing (b : Behavior) : Prop where
  answer : ∀ call offered, b.answer call offered = .interrupted ∨
    ∃ most, b.answer call offered = .accept most ∧ (0 < offered → 0 < most)
  flush : ∀ frame, b.flush frame = none

theorem Behavior.willing_faultless : faultless.Willing := by
  constructor
  · intro call offered
    exact Or.inr ⟨offered, rfl, id⟩
  · intro frame
    rfl

/-- Refuses the first call and is faultless afterwards. -/
def Behavior.refusingFirst : Behavior :=
  .ofTrouble
    { first := some 0, count := some 1, trouble := .refuse ⟨.brokenPipe, "broken pipe"⟩ }

theorem flatten_chunks (bytes : List UInt8) : (chunks bytes).flatten = bytes := by
  fun_induction chunks bytes with
  | case1 bytes none => simpa using none.symm
  | case2 bytes some ih => rw [List.flatten_cons, ih, List.take_append_drop]

/-- What a sink has got in all. -/
def received (sink : Sink) : List UInt8 := sink.frames.flatten ++ sink.unflushed

/-- Of what is offered a sink takes a first part, and all of it unless it faults. -/
def Takes (sink : Sink) (offered : List UInt8) (outcome : Except Fault Unit × Sink) : Prop :=
  ∃ taken, taken <+: offered ∧ outcome.2.received = sink.received ++ taken ∧
    (outcome.1 = .ok () → taken = offered)

theorem takes_nothing (sink : Sink) : sink.Takes [] (.ok (), sink) :=
  ⟨[], List.nil_prefix, (List.append_nil _).symm, fun _ => rfl⟩

theorem takes_refused {sink sink' : Sink} (h : sink'.received = sink.received)
    (offered : List UInt8) (fault : Fault) : sink.Takes offered (.error fault, sink') := by
  refine ⟨[], List.nil_prefix, ?_, nofun⟩
  rw [List.append_nil]
  exact h

theorem received_take (sink : Sink) (taken : List UInt8) :
    (sink.take taken).received = sink.received ++ taken := by
  simp [received, take]

theorem takes_writeAll (sink : Sink) (bytes : List UInt8) :
    sink.Takes bytes (sink.writeAll bytes) := by
  fun_induction writeAll sink bytes with
  | case1 sink bytes none =>
      rw [List.isEmpty_iff.mp none]
      exact takes_nothing sink
  | case2 sink bytes some answered ih => exact ih
  | case3 sink bytes some fault answered => exact takes_refused rfl bytes fault
  | case4 sink bytes some answered => exact takes_refused rfl bytes _
  | case5 sink bytes some most answered positive ih =>
      obtain ⟨taken, hprefix, hreceived, hall⟩ := ih
      refine ⟨bytes.take most ++ taken, ?_, ?_, ?_⟩
      · have hboth := (List.prefix_append_right_inj (bytes.take most)).mpr hprefix
        rwa [List.take_append_drop] at hboth
      · rw [hreceived, received_take, List.append_assoc]
      · intro hok
        rw [hall hok, List.take_append_drop]

theorem takes_writeEach (sink : Sink) (pieces : List (List UInt8)) :
    sink.Takes pieces.flatten (sink.writeEach pieces) := by
  induction pieces generalizing sink with
  | nil => exact takes_nothing sink
  | cons piece rest ih =>
      obtain ⟨taken, hprefix, hreceived, hall⟩ := takes_writeAll sink piece
      rw [writeEach, List.flatten_cons]
      split
      · rename_i sink' hwrite
        rw [hwrite] at hreceived hall
        obtain ⟨taken', hprefix', hreceived', hall'⟩ := ih sink'
        rw [hall rfl] at hreceived
        refine ⟨piece ++ taken', (List.prefix_append_right_inj piece).mpr hprefix', ?_, ?_⟩
        · rw [hreceived', hreceived, List.append_assoc]
        · intro hok
          rw [hall' hok]
      · rename_i fault sink' hwrite
        rw [hwrite] at hreceived
        exact ⟨taken, hprefix.trans (List.prefix_append piece _), hreceived, nofun⟩

theorem received_flush (sink : Sink) : sink.flush.2.received = sink.received := by
  have hreceived : (sink.frames ++ [sink.unflushed]).flatten ++ [] = sink.received := by
    rw [List.append_nil, List.flatten_append, List.flatten_singleton]
    rfl
  unfold flush
  dsimp only
  split
  · exact hreceived
  · exact hreceived

/-- A sink that faults in the end still has a first part of the text. -/
theorem takes_write (sink : Sink) (text : Text) :
    sink.Takes (Text.Utf8.encode text) (sink.write text) := by
  obtain ⟨taken, hprefix, hreceived, hall⟩ :=
    takes_writeEach sink (chunks (Text.Utf8.encode text))
  rw [flatten_chunks] at hprefix hall
  unfold write writeChunked
  split
  · rename_i sink' hwrite
    rw [hwrite] at hreceived hall
    refine ⟨taken, hprefix, ?_, fun _ => hall rfl⟩
    rw [received_flush]
    exact hreceived
  · rename_i fault sink' hwrite
    rw [hwrite] at hreceived
    exact ⟨taken, hprefix, hreceived, nofun⟩

theorem writeAll_of_willing (sink : Sink) (bytes : List UInt8) (h : sink.behavior.Willing) :
    (sink.writeAll bytes).1 = .ok () ∧ (sink.writeAll bytes).2.frames = sink.frames ∧
      (sink.writeAll bytes).2.unflushed = sink.unflushed ++ bytes := by
  fun_induction writeAll sink bytes with
  | case1 sink bytes none =>
      rw [List.isEmpty_iff] at none
      rw [none, List.append_nil]
      exact ⟨rfl, rfl, rfl⟩
  | case2 sink bytes some answered ih => exact ih h
  | case3 sink bytes some fault answered =>
      rcases h.answer sink.calls bytes.length with hanswer | ⟨most, hanswer, -⟩
      · rw [answered] at hanswer
        cases hanswer
      · rw [answered] at hanswer
        cases hanswer
  | case4 sink bytes some answered =>
      rcases h.answer sink.calls bytes.length with hanswer | ⟨most, hanswer, hmost⟩
      · rw [answered] at hanswer
        cases hanswer
      · rw [answered, Answer.accept.injEq] at hanswer
        rw [List.isEmpty_iff] at some
        have := hmost (List.length_pos_iff.mpr some)
        omega
  | case5 sink bytes some most answered positive ih =>
      obtain ⟨hresult, hframes, hunflushed⟩ := ih h
      refine ⟨hresult, hframes, hunflushed.trans ?_⟩
      rw [take, List.append_assoc, List.take_append_drop]

theorem writeEach_of_willing (sink : Sink) (pieces : List (List UInt8))
    (h : sink.behavior.Willing) :
    (sink.writeEach pieces).1 = .ok () ∧ (sink.writeEach pieces).2.frames = sink.frames ∧
      (sink.writeEach pieces).2.unflushed = sink.unflushed ++ pieces.flatten := by
  induction pieces generalizing sink with
  | nil => exact ⟨rfl, rfl, by rw [List.flatten_nil, List.append_nil]; rfl⟩
  | cons piece rest ih =>
      obtain ⟨hresult, hframes, hunflushed⟩ := writeAll_of_willing sink piece h
      have hbehavior := behavior_writeAll sink piece
      rw [writeEach]
      split
      · rename_i sink' hwrite
        rw [hwrite] at hframes hunflushed hbehavior
        obtain ⟨hresult', hframes', hunflushed'⟩ := ih sink' (hbehavior ▸ h)
        refine ⟨hresult', hframes'.trans hframes, hunflushed'.trans ?_⟩
        rw [hunflushed, List.append_assoc, List.flatten_cons]
      · rename_i fault sink' hwrite
        rw [hwrite] at hresult
        cases hresult

/-- A willing sink takes a text as one frame. -/
theorem write_of_willing {sink : Sink} (h : sink.behavior.Willing) (text : Text) :
    (sink.write text).1 = .ok () ∧
      (sink.write text).2.frames =
        sink.frames ++ [sink.unflushed ++ Text.Utf8.encode text] ∧
      (sink.write text).2.unflushed = [] := by
  obtain ⟨hresult, hframes, hunflushed⟩ :=
    writeEach_of_willing sink (chunks (Text.Utf8.encode text)) h
  have hbehavior := behavior_writeEach sink (chunks (Text.Utf8.encode text))
  rw [flatten_chunks] at hunflushed
  unfold write writeChunked
  split
  · rename_i sink' hwrite
    rw [hwrite] at hframes hunflushed hbehavior
    rw [flush, hbehavior, h.flush]
    refine ⟨rfl, ?_, rfl⟩
    dsimp only
    rw [hframes, hunflushed]
  · rename_i fault sink' hwrite
    rw [hwrite] at hresult
    cases hresult

theorem received_write_of_willing {sink : Sink} (h : sink.behavior.Willing) (text : Text) :
    (sink.write text).2.received = sink.received ++ Text.Utf8.encode text := by
  obtain ⟨-, hframes, hunflushed⟩ := write_of_willing h text
  simp [received, hframes, hunflushed]

end Inlay.Sink
