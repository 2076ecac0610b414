import Inlay.Canvas

namespace Inlay

abbrev CanvasRef := Nat

/-- A manager by its number in a scene; the one that widgets share by default is number zero. -/
abbrev ManagerRef := Nat

structure CanvasOptions where
  manager : ManagerRef := 0
  behavior : Sink.Behavior := .faultless
  width : WidthSource := .terminal
  style : Option Style := none

inductive Slot where
  | owned (options : CanvasOptions)
  | shared (canvas : CanvasRef)

end Inlay
