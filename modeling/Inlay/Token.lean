import Inlay.Failure
/-!
Tokens tell a wait when to end. A token belongs to a family that is cancelled as one, and may have
a deadline; a token made from another is of the same family and never ends later.
-/

namespace Inlay

/-- A point in time, in nanoseconds since the process began. -/
abbrev Instant := Nat

/-- The clock counts seconds in a signed word of 64 bits. -/
def Instant.after? (now : Instant) (d : Duration) : Option Instant :=
  if now + d.nanos < (1 <<< 63) * Duration.nanosPerSecond then some (now + d.nanos) else none

structure Token where
  family : Nat
  deadline : Option Instant := none
deriving DecidableEq, Repr

/-- The time and the families of tokens, of which some are cancelled. -/
structure Watch where
  now : Instant := 0
  families : Nat := 0
  cancelled : List Nat := []
deriving DecidableEq, Repr

namespace Watch

def newToken (w : Watch) : Token × Watch :=
  ({ family := w.families }, { w with families := w.families + 1 })

def cancel (w : Watch) (token : Token) : Watch :=
  { w with cancelled := token.family :: w.cancelled }

def advance (w : Watch) (nanos : Nat) : Watch := { w with now := w.now + nanos }

end Watch

namespace Token

def withDeadline (token : Token) (deadline : Instant) : Token :=
  { token with
    deadline := some (match token.deadline with
      | some existing => min existing deadline
      | none => deadline) }

/-- A token that ends after a span of time, if the clock can count up to then. -/
def within? (token : Token) (span : Duration) (w : Watch) : Option Token :=
  (Instant.after? w.now span).map token.withDeadline

def isCancelled (token : Token) (w : Watch) : Bool := w.cancelled.contains token.family

def isExpired (token : Token) (w : Watch) : Bool := token.deadline.any (· ≤ w.now)

def remaining (token : Token) (w : Watch) : Option Duration :=
  token.deadline.map fun deadline => ⟨deadline - w.now⟩

/-- Lets `ask` run under a time limit. When the deadline that ran out is the one set here, the
failure names the limit; an earlier deadline of the caller's passes through. -/
def askWithin {σ α : Type} (token : Token) (limit : Option Duration) (now : Instant)
    (ask : Token → σ → Except Failure α × σ) (s : σ) : Except Failure α × σ :=
  match limit.filter fun d => !d.isZero with
  | none => ask token s
  | some limit =>
      match Instant.after? now limit with
      | none => (.error .clockOverflow, s)
      | some deadline =>
          let ours := token.deadline.all (deadline < ·)
          match ask (token.withDeadline deadline) s with
          | (.error .deadlineExceeded, s) =>
              (.error (if ours then .timeout limit else .deadlineExceeded), s)
          | outcome => outcome

end Token

end Inlay
