import Inlay.Keyboard.Input

namespace Inlay

structure Keyboard where
  scripts : List Keyboard.Script := []
  /-- Followed once the scripts are used up. -/
  otherwise : Keyboard.Script := {}
  source : Keyboard.Source := {}
  /-- The source went missing with its reader. -/
  lost : Bool := false
deriving DecidableEq, Repr

namespace Keyboard

/-- The input of the process itself. It is no terminal, so raw mode cannot be entered. -/
def processInput : Keyboard where
  otherwise :=
    { enterFault := some ⟨.uncategorized, "Inappropriate ioctl for device (os error 25)"⟩ }

def load (kb : Keyboard) : Keyboard :=
  { kb with
    scripts := kb.scripts.tail
    source := kb.source.load (kb.scripts.headD kb.otherwise) }

/-- What a reading of the script passes on, and the keyboard after it. -/
def read (kb : Keyboard) : List Occurrence × Keyboard :=
  let lost := Reader.losesSource kb.source.script
  if kb.source.script.threadFault.isSome then ([], { kb with lost := lost })
  else
    let (occurrences, source) := Reader.run kb.source
    (occurrences, { kb with source := source, lost := lost })

/-- Reads keys and lets a listener follow them. `amid` puts between the keys what else occurs
meanwhile: time passes, another cancels the token, the process is asked to stop. Where no thread
can be made for the reader, the listener hears nothing. -/
def listenAmid {σ : Type} (kb : Keyboard) (config : InputConfig)
    (amid : List Occurrence → List Occurrence) (token : Token) (listener : Listener σ)
    (watch : Watch) (own : σ) : Except Failure Unit × Keyboard × Input.State σ :=
  let start : Input.State σ := ⟨watch, { value := config.initialValue }, own⟩
  if kb.lost then
    (.error (.keyboard ⟨.unsupported, "no keyboard source available"⟩), kb, start)
  else
    let (occurrences, after) := kb.read
    match kb.source.script.threadFault with
    | some fault => (.error (.keyboard fault), after, start)
    | none =>
        let occurrences := amid occurrences ++ Input.awaited kb.source.script.ending token watch
        let (result, state) := Input.loop listener config.ignoreHintKeys token occurrences start
        (result, after, state)

end Keyboard

end Inlay
