import Inlay.Proofs.Sink
/-!
What is said between a sink and whoever writes to it. The calls of a write in chunks lead from the
sink to what it is afterwards and end in the result of the write. Each offers what is left of one
chunk from the place up to which the sink has taken the bytes, and nothing is said after a fault or
after the flush.
-/

namespace Inlay.Sink

/-- A call of a sink with its answer. -/
inductive Exchange where
  | offer (bytes : List UInt8) (answer : Answer)
  | flush (fault : Option Fault)
deriving DecidableEq, Repr

/-- The bytes that a sink takes in a call. -/
def Exchange.taken : Exchange → List UInt8
  | offer bytes (.accept most) => bytes.take most
  | offer _ _ | flush _ => []

/-- The fault that a call comes to. One that is interrupted is made again. -/
def Exchange.fault? : Exchange → Option Fault
  | offer _ (.accept most) => if most = 0 then some writeZero else none
  | offer _ (.refuse fault) => some fault
  | offer _ .interrupted => none
  | flush fault => fault

/-- All that a sink takes in calls. -/
def taken (calls : List Exchange) : List UInt8 := calls.flatMap Exchange.taken

/-- What calls come to that are made up to the first fault. -/
def verdict (calls : List Exchange) : Except Fault Unit :=
  match calls.getLast?.bind Exchange.fault? with
  | some fault => .error fault
  | none => .ok ()

/-- Whether a sink answers a call so. -/
def Gives (sink : Sink) : Exchange → Prop
  | .offer bytes answer => sink.behavior.answer sink.calls bytes.length = answer
  | .flush fault => sink.behavior.flush sink.frames.length = fault

/-- A sink after a call. -/
def hear (sink : Sink) : Exchange → Sink
  | .offer bytes (.accept most) => if most = 0 then sink.pass else sink.take (bytes.take most)
  | .offer _ _ => sink.pass
  | .flush _ => sink.flush.2

/-- Whether a sink answers calls so that are made one after the other. -/
def Answers (sink : Sink) : List Exchange → Prop
  | [] => True
  | call :: rest => sink.Gives call ∧ (sink.hear call).Answers rest

/-- Calls that lead from a sink to an outcome. -/
structure Leads (sink : Sink) (calls : List Exchange) (outcome : Except Fault Unit × Sink) :
    Prop where
  answered : sink.Answers calls
  result : verdict calls = outcome.1
  sink : calls.foldl hear sink = outcome.2

/-- The calls in which a sink is offered bytes until it has accepted all. -/
def allCalls (sink : Sink) (bytes : List UInt8) : List Exchange :=
  if bytes.isEmpty then []
  else match _answered : sink.behavior.answer sink.calls bytes.length with
    | .interrupted => .offer bytes .interrupted :: allCalls sink.pass bytes
    | .refuse fault => [.offer bytes (.refuse fault)]
    | .accept most =>
        .offer bytes (.accept most) ::
          if most = 0 then [] else allCalls (sink.take (bytes.take most)) (bytes.drop most)
termination_by sink.behavior.calmFrom - sink.calls + bytes.length
decreasing_by
  · have early : sink.calls < sink.behavior.calmFrom := by
      apply Nat.lt_of_not_le
      intro late
      exact sink.behavior.calm _ _ late _answered
    simp only [pass]
    omega
  · rename_i nonempty positive
    have : bytes.length ≠ 0 := by simpa using nonempty
    simp only [take, List.length_drop]
    omega

def eachCalls (sink : Sink) : List (List UInt8) → List Exchange
  | [] => []
  | chunk :: rest =>
      sink.allCalls chunk ++ match sink.writeAll chunk with
        | (.ok (), sink) => eachCalls sink rest
        | (.error _, _) => []

/-- The calls of a write in chunks. -/
def chunkedCalls (sink : Sink) (bytes : List UInt8) : List Exchange :=
  sink.eachCalls (chunks bytes) ++ match sink.writeEach (chunks bytes) with
    | (.ok (), sink) => [.flush (sink.behavior.flush sink.frames.length)]
    | (.error _, _) => []

variable {sink : Sink} {bytes : List UInt8} {calls : List Exchange}

theorem allCalls_nil (sink : Sink) : sink.allCalls [] = [] := by
  rw [allCalls]
  rfl

theorem allCalls_interrupted (some : bytes.isEmpty = false)
    (answered : sink.behavior.answer sink.calls bytes.length = .interrupted) :
    sink.allCalls bytes = .offer bytes .interrupted :: sink.pass.allCalls bytes := by
  rw [allCalls, some, if_neg Bool.false_ne_true]
  split
  · rfl
  all_goals
    rename_i heq
    cases heq.symm.trans answered

theorem allCalls_refused {fault : Fault} (some : bytes.isEmpty = false)
    (answered : sink.behavior.answer sink.calls bytes.length = .refuse fault) :
    sink.allCalls bytes = [.offer bytes (.refuse fault)] := by
  rw [allCalls, some, if_neg Bool.false_ne_true]
  split
  all_goals
    rename_i heq
    cases heq.symm.trans answered
  rfl

theorem allCalls_accepted {most : Nat} (some : bytes.isEmpty = false)
    (answered : sink.behavior.answer sink.calls bytes.length = .accept most) :
    sink.allCalls bytes = .offer bytes (.accept most) ::
      if most = 0 then [] else (sink.take (bytes.take most)).allCalls (bytes.drop most) := by
  rw [allCalls, some, if_neg Bool.false_ne_true]
  split
  all_goals
    rename_i heq
    cases heq.symm.trans answered
  rfl

theorem verdict_concat (before : List Exchange) (call : Exchange) :
    verdict (before ++ [call]) = match call.fault? with
      | some fault => .error fault
      | none => .ok () := by
  rw [verdict, List.getLast?_concat, Option.bind_some]

theorem verdict_append {more : List Exchange} (goes : verdict calls = .ok ()) :
    verdict (calls ++ more) = verdict more := by
  cases more with
  | nil =>
      rw [List.append_nil, goes]
      rfl
  | cons call rest =>
      rw [verdict, verdict, List.getLast?_append, List.getLast?_cons, Option.some_or]

theorem answers_append {more : List Exchange} (h : sink.Answers calls)
    (h' : (calls.foldl hear sink).Answers more) : sink.Answers (calls ++ more) := by
  induction calls generalizing sink with
  | nil => exact h'
  | cons call rest ih => exact ⟨h.1, ih h.2 h'⟩

namespace Leads

variable {call : Exchange} {outcome : Except Fault Unit × Sink}

theorem nil (sink : Sink) : sink.Leads [] (.ok (), sink) := ⟨trivial, rfl, rfl⟩

theorem append {sink' : Sink} {more : List Exchange} (h : sink.Leads calls (.ok (), sink'))
    (h' : sink'.Leads more outcome) : sink.Leads (calls ++ more) outcome := by
  obtain ⟨answered, goes, hsink⟩ := h
  obtain ⟨answered', hresult, hsink'⟩ := h'
  subst hsink
  refine ⟨answers_append answered answered', ?_, ?_⟩
  · rw [verdict_append goes, hresult]
  · rw [List.foldl_append, hsink']

theorem cons (gives : sink.Gives call) (goes : call.fault? = none)
    (later : (sink.hear call).Leads calls outcome) : sink.Leads (call :: calls) outcome := by
  have first : sink.Leads [call] (.ok (), sink.hear call) := by
    refine ⟨⟨gives, trivial⟩, ?_, rfl⟩
    rw [← List.nil_append [call], verdict_concat, goes]
  exact first.append later

theorem fault {fault : Fault} (gives : sink.Gives call) (faults : call.fault? = some fault) :
    sink.Leads [call] (.error fault, sink.hear call) := by
  refine ⟨⟨gives, trivial⟩, ?_, rfl⟩
  rw [← List.nil_append [call], verdict_concat, faults]

end Leads

theorem received_hear (sink : Sink) (call : Exchange) :
    (sink.hear call).received = sink.received ++ call.taken := by
  cases call with
  | flush fault =>
      rw [Exchange.taken, List.append_nil]
      exact received_flush sink
  | offer offered answer =>
      cases answer with
      | interrupted => exact (List.append_nil _).symm
      | refuse fault => exact (List.append_nil _).symm
      | accept most =>
          rw [hear, Exchange.taken]
          split
          · rename_i none
            rw [none, List.take_zero, List.append_nil]
            rfl
          · exact received_take sink _

theorem received_foldl_hear (sink : Sink) (calls : List Exchange) :
    (calls.foldl hear sink).received = sink.received ++ taken calls := by
  induction calls generalizing sink with
  | nil => exact (List.append_nil _).symm
  | cons call rest ih =>
      rw [List.foldl_cons, ih, received_hear, List.append_assoc]
      rfl

theorem leads_allCalls (sink : Sink) (bytes : List UInt8) :
    sink.Leads (sink.allCalls bytes) (sink.writeAll bytes) := by
  fun_induction writeAll sink bytes with
  | case1 sink bytes none =>
      rw [List.isEmpty_iff.mp none, allCalls_nil]
      exact .nil sink
  | case2 sink bytes some answered ih =>
      rw [allCalls_interrupted (Bool.eq_false_iff.mpr some) answered]
      exact .cons answered rfl ih
  | case3 sink bytes some fault answered =>
      rw [allCalls_refused (Bool.eq_false_iff.mpr some) answered]
      exact .fault answered rfl
  | case4 sink bytes some answered =>
      rw [allCalls_accepted (Bool.eq_false_iff.mpr some) answered, if_pos rfl]
      exact .fault answered rfl
  | case5 sink bytes some most answered positive ih =>
      rw [allCalls_accepted (Bool.eq_false_iff.mpr some) answered, if_neg positive]
      refine .cons answered (if_neg positive) ?_
      rw [hear, if_neg positive]
      exact ih

theorem leads_eachCalls (sink : Sink) (pieces : List (List UInt8)) :
    sink.Leads (sink.eachCalls pieces) (sink.writeEach pieces) := by
  induction pieces generalizing sink with
  | nil => exact .nil sink
  | cons piece rest ih =>
      have first := leads_allCalls sink piece
      rw [eachCalls, writeEach]
      rcases hwrite : sink.writeAll piece with ⟨result, sink'⟩
      rw [hwrite] at first
      cases result with
      | ok => exact first.append (ih sink')
      | error fault =>
          rw [List.append_nil]
          exact first

theorem leads_flush (sink : Sink) :
    sink.Leads [.flush (sink.behavior.flush sink.frames.length)] sink.flush := by
  cases hflush : sink.behavior.flush sink.frames.length with
  | none =>
      have outcome : sink.flush = (.ok (), sink.flush.2) := by
        unfold flush
        rw [hflush]
      rw [outcome]
      exact .cons hflush rfl (.nil _)
  | some fault =>
      have outcome : sink.flush = (.error fault, sink.flush.2) := by
        unfold flush
        rw [hflush]
      rw [outcome]
      exact .fault hflush rfl

theorem leads_chunkedCalls (sink : Sink) (bytes : List UInt8) :
    sink.Leads (sink.chunkedCalls bytes) (sink.writeChunked bytes) := by
  have each := leads_eachCalls sink (chunks bytes)
  rw [chunkedCalls, writeChunked]
  rcases hwrite : sink.writeEach (chunks bytes) with ⟨result, sink'⟩
  rw [hwrite] at each
  cases result with
  | ok => exact each.append (leads_flush sink')
  | error fault =>
      rw [List.append_nil]
      exact each

/-- What is left of the chunk that a place is in. -/
def leftAt (bytes : List UInt8) (place : Nat) : List UInt8 :=
  (bytes.take ((place / chunkSize + 1) * chunkSize)).drop place

/-- What is said from a place in the bytes on. -/
inductive Course (bytes : List UInt8) : Nat → List Exchange → Prop
  | again {place : Nat} {calls : List Exchange} (more : place < bytes.length)
      (later : Course bytes place calls) :
      Course bytes place (.offer (leftAt bytes place) .interrupted :: calls)
  | on {place most : Nat} {calls : List Exchange} (more : place < bytes.length)
      (positive : 0 < most)
      (later : Course bytes (place + ((leftAt bytes place).take most).length) calls) :
      Course bytes place (.offer (leftAt bytes place) (.accept most) :: calls)
  | fault {place : Nat} {answer : Answer} (more : place < bytes.length)
      (faults : (Exchange.offer (leftAt bytes place) answer).fault?.isSome = true) :
      Course bytes place [.offer (leftAt bytes place) answer]
  | flush (fault : Option Fault) : Course bytes bytes.length [.flush fault]

theorem leftAt_of_within {place k : Nat} (hk : k * chunkSize ≤ place)
    (some : (bytes.take ((k + 1) * chunkSize)).drop place ≠ []) :
    place < bytes.length ∧ leftAt bytes place = (bytes.take ((k + 1) * chunkSize)).drop place := by
  have hlength := List.length_pos_iff.mpr some
  rw [List.length_drop, List.length_take] at hlength
  have hchunk : place / chunkSize = k := by
    apply Nat.div_eq_of_lt_le
    · omega
    · omega
  refine ⟨by omega, ?_⟩
  rw [leftAt, hchunk]

/-- A chunk is offered until it is taken, and then it goes on as it would from the end of the
chunk. -/
theorem course_allCalls {left : List UInt8} {place k : Nat}
    (hleft : (bytes.take ((k + 1) * chunkSize)).drop place = left) (hk : k * chunkSize ≤ place)
    (later : (sink.writeAll left).1 = .ok () → Course bytes (place + left.length) calls)
    (stops : (sink.writeAll left).1 ≠ .ok () → calls = []) :
    Course bytes place (sink.allCalls left ++ calls) := by
  have within : left ≠ [] → place < bytes.length ∧ leftAt bytes place = left := by
    intro some
    have := leftAt_of_within hk (hleft ▸ some)
    rwa [hleft] at this
  fun_induction writeAll sink left generalizing place with
  | case1 sink left none =>
      rw [List.isEmpty_iff.mp none] at later
      rw [List.isEmpty_iff.mp none, allCalls_nil]
      exact later rfl
  | case2 sink left some answered ih =>
      obtain ⟨more, hplace⟩ := within (mt List.isEmpty_iff.mpr some)
      have again := Course.again more (ih hleft hk later stops within)
      rw [hplace] at again
      rw [allCalls_interrupted (Bool.eq_false_iff.mpr some) answered]
      exact again
  | case3 sink left some fault answered =>
      obtain ⟨more, hplace⟩ := within (mt List.isEmpty_iff.mpr some)
      rw [allCalls_refused (Bool.eq_false_iff.mpr some) answered, stops (by simp), ← hplace]
      exact .fault more rfl
  | case4 sink left some answered =>
      obtain ⟨more, hplace⟩ := within (mt List.isEmpty_iff.mpr some)
      rw [allCalls_accepted (Bool.eq_false_iff.mpr some) answered, if_pos rfl,
        stops (by simp), ← hplace]
      exact .fault more rfl
  | case5 sink left some most answered positive ih =>
      obtain ⟨more, hplace⟩ := within (mt List.isEmpty_iff.mpr some)
      have hdrop : (bytes.take ((k + 1) * chunkSize)).drop (place + (left.take most).length) =
          left.drop most := by
        rw [← List.drop_drop, hleft, List.length_take, List.drop_eq_drop_iff]
        omega
      have hlength : place + (left.take most).length + (left.drop most).length =
          place + left.length := by
        rw [List.length_take, List.length_drop]
        omega
      have rest := ih hdrop (by omega) (hlength ▸ later) stops fun some => by
        have hnext : k * chunkSize ≤ place + (left.take most).length := by omega
        have := leftAt_of_within hnext (hdrop ▸ some)
        rwa [hdrop] at this
      have on := Course.on more (Nat.pos_of_ne_zero positive) (by rw [hplace]; exact rest)
      rw [hplace] at on
      rw [allCalls_accepted (Bool.eq_false_iff.mpr some) answered, if_neg positive]
      exact on

/-- The chunks from one on are offered in turn and then the sink is flushed. -/
theorem course_eachCalls {pieces : List (List UInt8)} {k : Nat}
    (hpieces : chunks (bytes.drop (k * chunkSize)) = pieces)
    (later : (sink.writeEach pieces).1 = .ok () → Course bytes bytes.length calls)
    (stops : (sink.writeEach pieces).1 ≠ .ok () → calls = []) :
    Course bytes (min (k * chunkSize) bytes.length) (sink.eachCalls pieces ++ calls) := by
  induction pieces generalizing sink k with
  | nil =>
      have hdrop := flatten_chunks (bytes.drop (k * chunkSize))
      rw [hpieces, List.flatten_nil, eq_comm, List.drop_eq_nil_iff] at hdrop
      rw [Nat.min_eq_right hdrop]
      exact later rfl
  | cons piece rest ih =>
      have hmore : k * chunkSize < bytes.length := by
        apply Nat.lt_of_not_le
        intro hle
        rw [List.drop_eq_nil_of_le hle, chunks] at hpieces
        cases hpieces
      rw [chunks, if_neg (by simpa using hmore), List.drop_drop, ← Nat.succ_mul] at hpieces
      obtain ⟨hpiece, hrest⟩ := List.cons.inj hpieces
      have hleft : (bytes.take ((k + 1) * chunkSize)).drop (k * chunkSize) = piece := by
        rw [List.drop_take, ← hpiece, ← Nat.sub_mul, Nat.add_sub_cancel_left, Nat.one_mul]
      have hend : k * chunkSize + piece.length = min ((k + 1) * chunkSize) bytes.length := by
        rw [← hleft, List.length_drop, List.length_take, Nat.succ_mul]
        omega
      rw [Nat.min_eq_left (Nat.le_of_lt hmore), eachCalls, List.append_assoc]
      rw [writeEach] at later stops
      rcases hwrite : sink.writeAll piece with ⟨result, sink'⟩
      rw [hwrite] at later stops
      apply course_allCalls hleft (Nat.le_refl _)
      · intro hok
        rw [hwrite] at hok
        subst hok
        rw [hend]
        exact ih hrest later stops
      · intro hfault
        rw [hwrite] at hfault
        cases result with
        | ok => exact absurd rfl hfault
        | error fault => exact stops (by simp)

theorem course_chunkedCalls (sink : Sink) (bytes : List UInt8) :
    Course bytes 0 (sink.chunkedCalls bytes) := by
  rw [← Nat.zero_min bytes.length, ← Nat.zero_mul chunkSize, chunkedCalls]
  apply course_eachCalls
  · rw [Nat.zero_mul, List.drop_zero]
  · intro hok
    rcases hwrite : sink.writeEach (chunks bytes) with ⟨result, sink'⟩
    rw [hwrite] at hok
    subst hok
    exact .flush _
  · intro hfault
    rcases hwrite : sink.writeEach (chunks bytes) with ⟨result, sink'⟩
    rw [hwrite] at hfault
    cases result with
    | ok => exact absurd rfl hfault
    | error fault => rfl

theorem leftAt_isPrefix (bytes : List UInt8) (place : Nat) :
    leftAt bytes place <+: bytes.drop place := by
  rw [leftAt, List.drop_take]
  exact List.take_prefix _ _

/-- What is left of a chunk is some bytes, no more than a chunk has, and ends with the chunk or
before. -/
theorem length_leftAt {place : Nat} (more : place < bytes.length) :
    0 < (leftAt bytes place).length ∧ (leftAt bytes place).length ≤ chunkSize ∧
      ∀ k, place < k * chunkSize → place + (leftAt bytes place).length ≤ k * chunkSize := by
  have hlength : (leftAt bytes place).length =
      min ((place / chunkSize + 1) * chunkSize) bytes.length - place := by
    rw [leftAt, List.length_drop, List.length_take]
  have hbelow : place < (place / chunkSize + 1) * chunkSize :=
    (Nat.div_lt_iff_lt_mul (by decide)).mp (Nat.lt_succ_self _)
  have habove := Nat.div_mul_le_self place chunkSize
  rw [Nat.succ_mul] at hlength hbelow
  refine ⟨by omega, by omega, ?_⟩
  intro k hk
  have hend := Nat.mul_le_mul_right chunkSize
    (Nat.succ_le_of_lt ((Nat.div_lt_iff_lt_mul (by decide)).mpr hk))
  rw [Nat.succ_mul] at hend
  omega

theorem Exchange.taken_isPrefix (offered : List UInt8) (answer : Answer) :
    (offer offered answer).taken <+: offered := by
  cases answer with
  | accept most => exact List.take_prefix most offered
  | interrupted => exact List.nil_prefix
  | refuse fault => exact List.nil_prefix

namespace Course

variable {place : Nat} {before after : List Exchange} {call : Exchange}

/-- A first part of a course takes a first part of the bytes, and from there it goes on. -/
theorem parts (h : Course bytes place (before ++ after)) :
    taken before <+: bytes.drop place ∧
      (after ≠ [] → Course bytes (place + (taken before).length) after) := by
  induction before generalizing place with
  | nil => exact ⟨List.nil_prefix, fun _ => h⟩
  | cons call rest ih =>
      rw [taken, List.flatMap_cons, List.length_append, ← Nat.add_assoc]
      generalize hcalls : call :: rest ++ after = calls at h
      cases h with
      | again more later =>
          obtain ⟨rfl, rfl⟩ := List.cons.inj hcalls
          exact ih later
      | @on _ most _ more positive later =>
          obtain ⟨rfl, rfl⟩ := List.cons.inj hcalls
          obtain ⟨hrest, hlater⟩ := ih later
          have hfirst := (List.take_prefix most _).trans (leftAt_isPrefix bytes place)
          refine ⟨?_, hlater⟩
          rw [← List.prefix_iff_eq_append.mp hfirst, List.drop_drop]
          exact (List.prefix_append_right_inj _).mpr hrest
      | fault more faults =>
          obtain ⟨rfl, hnil⟩ := List.cons.inj hcalls
          obtain ⟨rfl, rfl⟩ := List.append_eq_nil_iff.mp hnil
          rw [List.flatMap_nil, List.append_nil]
          exact ⟨(Exchange.taken_isPrefix _ _).trans (leftAt_isPrefix bytes place), nofun⟩
      | flush fault =>
          obtain ⟨rfl, hnil⟩ := List.cons.inj hcalls
          obtain ⟨rfl, rfl⟩ := List.append_eq_nil_iff.mp hnil
          exact ⟨List.nil_prefix, nofun⟩

theorem offer {offered : List UInt8} {answer : Answer}
    (h : Course bytes place (.offer offered answer :: after)) :
    place < bytes.length ∧ offered = leftAt bytes place := by
  cases h with
  | again more later => exact ⟨more, rfl⟩
  | on more positive later => exact ⟨more, rfl⟩
  | fault more faults => exact ⟨more, rfl⟩

theorem last_of_fault (h : Course bytes place (call :: after)) (faults : call.fault? ≠ none) :
    after = [] := by
  cases h with
  | again more later => exact absurd rfl faults
  | on more positive later => exact absurd (if_neg (Nat.ne_of_gt positive)) faults
  | fault more => rfl
  | flush fault => rfl

theorem flushed {fault : Option Fault} (h : Course bytes place (.flush fault :: after)) :
    place = bytes.length ∧ after = [] := by
  cases h
  exact ⟨rfl, rfl⟩

theorem ne_nil (h : Course bytes place calls) : calls ≠ [] := by
  cases h
  all_goals exact List.cons_ne_nil _ _

theorem last_of_goes (h : Course bytes place [call]) (goes : call.fault? = none) :
    call = .flush none := by
  cases h with
  | again more later => exact absurd rfl later.ne_nil
  | on more positive later => exact absurd rfl later.ne_nil
  | fault more faults =>
      rw [goes] at faults
      cases faults
  | flush fault =>
      cases goes
      rfl

end Course

/-- Calls that deliver bytes to a sink in order, a chunk at a time, and then have it flushed; the
first fault ends them. -/
structure Delivers (bytes : List UInt8) (calls : List Exchange) (result : Except Fault Unit) :
    Prop where
  offer : ∀ before offered answer after, calls = before ++ .offer offered answer :: after →
    offered ≠ [] ∧ taken before ++ offered <+: bytes ∧ offered.length ≤ chunkSize ∧
      ∀ k, (taken before).length < k * chunkSize →
        (taken before).length + offered.length ≤ k * chunkSize
  taken : ∀ before, before <+: calls → taken before <+: bytes
  flush : ∀ before fault after, calls = before ++ .flush fault :: after →
    Sink.taken before = bytes ∧ after = []
  fault : ∀ before call after, calls = before ++ call :: after → call.fault? ≠ none →
    after = []
  ok : result = .ok () ↔ ∃ before, calls = before ++ [.flush none] ∧ Sink.taken before = bytes

theorem delivers_of_course (h : Course bytes 0 calls) : Delivers bytes calls (verdict calls) where
  offer before offered answer after hcalls := by
    subst hcalls
    obtain ⟨⟨rest, hrest⟩, hlater⟩ := h.parts
    obtain ⟨more, hoffered⟩ := (hlater (List.cons_ne_nil _ _)).offer
    rw [Nat.zero_add] at more hoffered
    obtain ⟨some, small, within⟩ := length_leftAt more
    have hnext := leftAt_isPrefix bytes (taken before).length
    rw [← hoffered] at some small within hnext
    rw [List.drop_zero] at hrest
    rw [← hrest, List.drop_left] at hnext
    refine ⟨List.length_pos_iff.mp some, ?_, small, within⟩
    rw [← hrest]
    exact (List.prefix_append_right_inj _).mpr hnext
  taken before hpart := by
    obtain ⟨after, rfl⟩ := hpart
    exact h.parts.1
  flush before fault after hcalls := by
    subst hcalls
    obtain ⟨hpart, hlater⟩ := h.parts
    obtain ⟨hlength, hafter⟩ := (hlater (List.cons_ne_nil _ _)).flushed
    rw [Nat.zero_add] at hlength
    exact ⟨hpart.eq_of_length hlength, hafter⟩
  fault before call after hcalls faults := by
    subst hcalls
    exact (h.parts.2 (List.cons_ne_nil _ _)).last_of_fault faults
  ok := by
    constructor
    · intro hok
      obtain ⟨before, last, hcalls⟩ := (List.eq_nil_or_concat calls).resolve_left h.ne_nil
      rw [List.concat_eq_append] at hcalls
      subst hcalls
      obtain ⟨hpart, hlater⟩ := h.parts
      have hlast := hlater (List.cons_ne_nil _ _)
      cases hgoes : last.fault? with
      | some fault =>
          rw [verdict_concat, hgoes] at hok
          cases hok
      | none =>
          have hflush := hlast.last_of_goes hgoes
          subst hflush
          rw [Nat.zero_add] at hlast
          exact ⟨before, rfl, hpart.eq_of_length hlast.flushed.1⟩
    · rintro ⟨before, rfl, -⟩
      rw [verdict_concat]
      rfl

/-- The calls of a write in chunks deliver the bytes, whatever a sink answers: each offers what
comes next of one chunk, all that was taken at any time is a first part of the bytes, and the write
succeeds if and only if all were taken and the flush that is then made succeeds. A call that faults
is the last. -/
theorem writeChunked_delivers (sink : Sink) (bytes : List UInt8) :
    sink.Leads (sink.chunkedCalls bytes) (sink.writeChunked bytes) ∧
      (sink.writeChunked bytes).2.received =
        sink.received ++ taken (sink.chunkedCalls bytes) ∧
      Delivers bytes (sink.chunkedCalls bytes) (sink.writeChunked bytes).1 := by
  have leads := leads_chunkedCalls sink bytes
  refine ⟨leads, ?_, ?_⟩
  · rw [← leads.sink, received_foldl_hear]
  · rw [← leads.result]
    exact delivers_of_course (course_chunkedCalls sink bytes)

end Inlay.Sink
