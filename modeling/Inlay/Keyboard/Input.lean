import Inlay.Keyboard.Reader
import Inlay.Text.Cluster
import Inlay.Token
/-!
The loop over keys. Every key edits a text, and a listener sees the text after each one. The loop
ends when the listener has enough, when it fails, with the source, or when the token calls for it;
in the last case the listener sees one event more, without a key.
-/

namespace Inlay.Keyboard

structure InputConfig where
  initialValue : Text := []
  /-- Take the question mark as text instead of a call for the hint. -/
  ignoreHintKeys : Bool := false
deriving DecidableEq, Repr

structure KeyEvent where
  value : Text := []
  key : Option Key := none
  hint : Bool := false
  cancelled : Bool := false
  timedOut : Bool := false
deriving DecidableEq, Repr

namespace KeyEvent

/-- The event after a key: a character joins the text, backspace takes the last cluster away, and
the question mark and Escape show and hide the hint. -/
def press (event : KeyEvent) (ignoreHintKeys : Bool) (key : Key) : KeyEvent :=
  let event := { event with key := some key }
  match key with
  | .char c =>
      if c = '?' ∧ ignoreHintKeys = false then { event with hint := !event.hint }
      else { event with value := event.value ++ [c] }
  | .escape => { event with hint := false }
  | .backspace => { event with value := Text.Cluster.dropLast event.value }
  | _ => event

end KeyEvent

/-- A listener's answer to an event: whether to read on, and whether it cancels the token. -/
structure Response where
  goOn : Except Failure Bool
  cancels : Bool := false

abbrev Listener (σ : Type) := KeyEvent → σ → Response × σ

inductive Summons where
  | cancelled
  | timedOut
deriving DecidableEq, Repr

def Summons.failure : Summons → Failure
  | cancelled => .cancelled
  | timedOut => .deadlineExceeded

def Summons.event (event : KeyEvent) : Summons → KeyEvent
  | cancelled => { event with key := none, cancelled := true }
  | timedOut => { event with key := none, timedOut := true }

/-- What a token calls for now. Cancellation comes before an expired deadline. -/
def summons? (token : Token) (w : Watch) : Option Summons :=
  if token.isCancelled w then some .cancelled
  else if token.isExpired w then some .timedOut
  else none

def keyboardClosed : Failure := .keyboard ⟨.unexpectedEof, "keyboard input closed"⟩

namespace Input

structure State (σ : Type) where
  watch : Watch
  event : KeyEvent
  own : σ

namespace State

variable {σ : Type}

def hear (s : State σ) (listener : Listener σ) (token : Token) (event : KeyEvent) :
    Except Failure Bool × State σ :=
  let (response, own) := listener event s.own
  let watch := if response.cancels then s.watch.cancel token else s.watch
  (response.goOn, ⟨watch, event, own⟩)

/-- The last event of a loop that is called off. Whatever the listener answers, the loop ends. -/
def finish (s : State σ) (listener : Listener σ) (token : Token) (summons : Summons) :
    Except Failure Unit × State σ :=
  (.error summons.failure, (s.hear listener token (summons.event s.event)).2)

end State

/-- Goes through what occurs until the loop ends. The token is looked at before each occurrence,
and a source that falls silent for good counts as closed. -/
def loop {σ : Type} (listener : Listener σ) (ignoreHintKeys : Bool) (token : Token) :
    List Occurrence → State σ → Except Failure Unit × State σ
  | [], s =>
      match summons? token s.watch with
      | some summons => s.finish listener token summons
      | none => (.error keyboardClosed, s)
  | occurrence :: rest, s =>
      match summons? token s.watch with
      | some summons => s.finish listener token summons
      | none =>
          match occurrence with
          | .key .interrupt | .interrupt => s.finish listener token .cancelled
          | .key key =>
              match s.hear listener token (s.event.press ignoreHintKeys key) with
              | (.ok true, s) => loop listener ignoreHintKeys token rest s
              | (.ok false, s) => (.ok (), s)
              | (.error failure, s) => (.error failure, s)
          | .failed fault => (.error (.keyboard fault), s)
          | .closed => (.error keyboardClosed, s)
          | .elapsed nanos =>
              loop listener ignoreHintKeys token rest { s with watch := s.watch.advance nanos }
          | .cancelled =>
              loop listener ignoreHintKeys token rest { s with watch := s.watch.cancel token }

/-- What occurs to a loop whose source behaves as scripted: a source that goes idle lets the time
pass until the token's deadline. -/
def awaited (ending : Ending) (token : Token) (w : Watch) : List Occurrence :=
  match ending, token.remaining w with
  | .idle, some d => [.elapsed d.nanos]
  | _, _ => []

end Input

end Inlay.Keyboard
