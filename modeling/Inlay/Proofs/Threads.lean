import Inlay.Proofs.Scene.Standing
import Mathlib.Logic.Function.Basic
/-!
Threads that share a scene. A call of the library is made in sections. A section holds the locks
that guard what it touches, so it is one step, and between two sections of a call every other
thread may make its own. The update lock of a manager is held across sections and is therefore
part of the state.
-/

namespace Inlay

abbrev ThreadRef := Nat

inductive DrawCall where
  | run
  | update
  | clear
deriving DecidableEq, Repr

namespace Scene

def draw (s : Scene) (c : CanvasRef) : DrawCall → Except Failure Unit × Scene
  | .run => s.run c
  | .update => s.update c
  | .clear => s.clear c

theorem sameStanding_draw (s : Scene) (c : CanvasRef) (call : DrawCall) :
    SameStanding s (s.draw c call).2 := by
  cases call with
  | run => exact sameStanding_run s c
  | update => exact sameStanding_update s c
  | clear => exact sameStanding_clear s c

/-- What a drawing call does under the lock of its canvas, once the manager allows it. -/
def drawAllowed (s : Scene) (c : CanvasRef) : DrawCall → Except Failure Unit × Scene
  | .run | .update => s.repaintUnlessClosed c
  | .clear =>
      let (result, s) := s.eraseUnlessClosed c
      (asOutput result, s)

/-- Hands the focus to a canvas and takes hold of all others that are to be erased. -/
def grant (s : Scene) (c : CanvasRef) : List CanvasRef × Scene :=
  let number := s.numberOf c
  let m := s.managerOf c
  let s := s.modifyManager m fun manager => { manager with focused := some number }
  let others := s.others m c
  (others, others.foldl addHandle s)

end Scene

/-- The calls that are made under the update lock of a manager. -/
inductive Errand where
  | draw (call : DrawCall) (c : CanvasRef)
  | focus (c : CanvasRef)
  /-- Also what dropping a guard does. -/
  | release (guard : FocusGuard)
deriving DecidableEq, Repr

def Errand.manager (s : Scene) : Errand → ManagerRef
  | draw _ c | focus c => s.managerOf c
  | release guard => guard.manager

inductive Call where
  | errand (errand : Errand)
  | close (c : CanvasRef)
  | drop (c : CanvasRef)
  /-- Hides or shows the cursor. -/
  | write (c : CanvasRef) (sequence : Text)
deriving DecidableEq, Repr

/-- Where a thread is: between two sections of a call, or out of any. -/
inductive Activity where
  | idle
  | preparing (c : CanvasRef)
  | waiting (errand : Errand)
  | asking (errand : Errand)
  | drawing (call : DrawCall) (c : CanvasRef)
  | erasing (c : CanvasRef) (rest : List CanvasRef)
  | leaving (errand : Errand) (result : Except Failure Unit)
  | deregistering (c : CanvasRef)
  | shutting (c : CanvasRef)
  | dropping (c : CanvasRef)
  | writing (c : CanvasRef) (sequence : Text)
  | returned (call : Call) (result : Except Failure Unit)

namespace Activity

/-- The manager whose update lock a thread has. -/
def holds? (s : Scene) : Activity → Option ManagerRef
  | asking errand | leaving errand _ => some (errand.manager s)
  | drawing _ c | erasing c _ => some (s.managerOf c)
  | _ => none

/-- Whether a thread is in the middle of a drawing call. -/
def IsDrawing (call : DrawCall) (c : CanvasRef) : Activity → Prop
  | preparing c' => call = .run ∧ c' = c
  | waiting errand | asking errand | leaving errand _ => errand = .draw call c
  | drawing call' c' => call' = call ∧ c' = c
  | _ => False

def isAtRest : Activity → Bool
  | idle | returned _ _ => true
  | _ => false

end Activity

def Call.start : Call → Activity
  | errand (.draw .run c) => .preparing c
  | errand e => .waiting e
  | close c => .deregistering c
  | drop c => .dropping c
  | write c sequence => .writing c sequence

/-- A scene, the threads that have the update locks of its managers, and what each thread is at. -/
structure Threads where
  scene : Scene
  holder : ManagerRef → Option ThreadRef := fun _ => none
  activity : ThreadRef → Activity := fun _ => .idle

namespace Threads

def enter (σ : Threads) (t : ThreadRef) (scene : Scene) (activity : Activity) : Threads :=
  { σ with
    scene := scene
    activity := Function.update σ.activity t activity }

def withHolder (σ : Threads) (m : ManagerRef) (t : Option ThreadRef) : Threads :=
  { σ with holder := Function.update σ.holder m t }

/-- The next section of a thread's call. A thread that waits for a lock stays where it is. -/
def advance (σ : Threads) (t : ThreadRef) : Threads :=
  let s := σ.scene
  match σ.activity t with
  | .idle | .returned _ _ => σ
  | .preparing c => σ.enter t (s.preparePrinter c) (.waiting (.draw .run c))
  | .waiting errand =>
      if σ.holder (errand.manager s) = none then
        (σ.enter t s (.asking errand)).withHolder (errand.manager s) (some t)
      else σ
  | .asking (.draw call c) =>
      if s.canUpdate (s.managerOf c) c then σ.enter t s (.drawing call c)
      else σ.enter t s (.leaving (.draw call c) (.ok ()))
  | .asking (.focus c) => σ.enter t (s.grant c).2 (.erasing c (s.grant c).1)
  | .asking (.release guard) =>
      σ.enter t (s.release guard) (.leaving (.release guard) (.ok ()))
  | .drawing call c =>
      σ.enter t (s.drawAllowed c call).2 (.leaving (.draw call c) (s.drawAllowed c call).1)
  | .erasing c [] => σ.enter t s (.leaving (.focus c) (.ok ()))
  | .erasing c (other :: rest) =>
      σ.enter t ((s.eraseUnlessClosed other).2.dropHandle other) (.erasing c rest)
  | .leaving errand result =>
      (σ.enter t s (.returned (.errand errand) result)).withHolder (errand.manager s) none
  | .deregistering c => σ.enter t (s.deregister (s.managerOf c) c) (.shutting c)
  | .shutting c => σ.enter t (s.modifyCanvas c Canvas.close) (.returned (.close c) (.ok ()))
  | .dropping c => σ.enter t (s.dropHandle c) (.returned (.drop c) (.ok ()))
  | .writing c sequence =>
      σ.enter t (s.writeSequence c sequence).2
        (.returned (.write c sequence) (s.writeSequence c sequence).1)

/-- A thread that is at rest enters a call. -/
def enterCall (σ : Threads) (t : ThreadRef) (call : Call) : Threads :=
  if (σ.activity t).isAtRest then σ.enter t σ.scene call.start else σ

inductive Move where
  | enterCall (t : ThreadRef) (call : Call)
  | advance (t : ThreadRef)

def move (σ : Threads) : Move → Threads
  | .enterCall t call => σ.enterCall t call
  | .advance t => σ.advance t

/-- The threads after moves in any order. -/
def after (σ : Threads) (moves : List Move) : Threads := moves.foldl move σ

end Threads

end Inlay
