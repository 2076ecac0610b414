import Inlay.Duration.Reader
import Inlay.Style

namespace Inlay

structure Environment where
  forceColor : Option Text := none
  promptTimeout : Option Text := none
  log : Option Text := none
  logFilter : Option Text := none
  /-- Width of the terminal that the output goes to; none if it goes elsewhere. -/
  terminalWidth : Option Nat := none
deriving DecidableEq, Repr

structure Config where
  forceColor : Bool := false
  promptTimeout : Option Duration := none
  logFile : Option Text := none
  logFilter : Text := "debug"
deriving DecidableEq, Repr

namespace Environment

/-- A variable that is set to more than white space. -/
def filled? (setting : Option Text) : Option Text :=
  setting.filter fun value => !(Text.Blank.trim value).isEmpty

/-- A flag is up unless it is unset, blank, zero or the word false. -/
def flag (setting : Option Text) : Bool :=
  match setting with
  | none => false
  | some value =>
      let word := Text.Blank.trim value
      !word.isEmpty && word ≠ "0" && Text.asciiLowercase word ≠ "false"

def config (env : Environment) : Config where
  forceColor := flag env.forceColor
  promptTimeout := (filled? env.promptTimeout).bind Duration.parseLimit?
  logFile := filled? env.log
  logFilter := (filled? env.logFilter).getD "debug"

/-- Output has colour on a terminal and wherever colour is forced. -/
def detectStyle (env : Environment) (config : Config) : Style :=
  ⟨config.forceColor || env.terminalWidth.isSome⟩

def style (env : Environment) : Style := env.detectStyle env.config

def columns (env : Environment) : Nat := env.terminalWidth.getD 0

end Environment

end Inlay
