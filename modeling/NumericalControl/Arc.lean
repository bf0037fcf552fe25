/-
  NumericalControl/Arc.lean
  =========================
  **Arcs.**  An arc runs in a plane about a center, from a start angle over a signed
  sweep to an end angle, while the coordinate on the plane's normal advances by
  `helicalSpan`.  The distances of start and end from the center may differ; the radius
  then changes evenly along the way.

  `sweepAngle` decides how far an arc turns: never backwards, and a full turn where the
  two angles agree.  `Arc.through` builds the arc between two positions, `Arc.rebased`
  moves it to another center and other ends and keeps its sweep, `Arc.positionAt` walks
  it.
-/
import NumericalControl.Plane

namespace NumericalControl

variable {α : Type} [Scalar α]

/-- Angle turned on the way from one direction to another, above zero and at most a
    full turn. -/
def sweepAngle (startAngle endAngle : α) (direction : Direction) : α :=
  let gap := match direction with
    | .clockwise => startAngle - endAngle
    | .counterClockwise => endAngle - startAngle
  let sweep := Scalar.modulo gap Scalar.turn
  if Scalar.Same sweep 0.0 then Scalar.turn else sweep

def angleAbout (center point : α × α) : α :=
  Scalar.arctan2 (point.2 - center.2) (point.1 - center.1)

def planeDistance (p q : α × α) : α := Scalar.hypot (q.1 - p.1) (q.2 - p.2)

structure Arc (α : Type) where
  plane : Plane
  center : α × α
  radius : α
  endRadius : α
  startAngle : α
  endAngle : α
  direction : Direction
  helicalSpan : α
  fullCircle : Bool
  deriving DecidableEq, Repr

namespace Arc

/-- The arc from `start` to `target` about `center`. Ends nearer to each other than
    `tolerance` in the plane make it a full circle. -/
def through (plane : Plane) (center : α × α) (start target : Position α)
    (direction : Direction) (tolerance : α) : Arc α :=
  let s := plane.coords start
  let e := plane.coords target
  let startAngle := angleAbout center s
  let fullCircle := decide (planeDistance s e < tolerance)
  let sweep :=
    if fullCircle then Scalar.turn else sweepAngle startAngle (angleAbout center e) direction
  { plane
    center
    radius := planeDistance center s
    endRadius := planeDistance center e
    startAngle
    endAngle := startAngle + direction.sign * sweep
    direction
    helicalSpan := target.get plane.normal - start.get plane.normal
    fullCircle }

/-- The sweep, counted up for counter-clockwise arcs. -/
def signedSweep (arc : Arc α) : α := arc.endAngle - arc.startAngle

def sweep (arc : Arc α) : α := Scalar.abs arc.signedSweep

/-- The arc with the same sweep about another center and between other ends. -/
def rebased (arc : Arc α) (center : α × α) (start target : Position α) : Arc α :=
  let s := arc.plane.coords start
  let startAngle := angleAbout center s
  { arc with
    center
    radius := planeDistance center s
    endRadius := planeDistance center (arc.plane.coords target)
    startAngle
    endAngle := startAngle + arc.signedSweep
    helicalSpan := target.get arc.plane.normal - start.get arc.plane.normal }

/-- Length of the way, with the mean of both radii. -/
def length (arc : Arc α) : α :=
  Scalar.hypot ((arc.radius + arc.endRadius) / 2.0 * arc.sweep) arc.helicalSpan

/-- The position at fraction `t` of the arc. Angle and radius change evenly, and so do
    all coordinates outside the plane. -/
def positionAt (arc : Arc α) (start target : Position α) (t : α) : Position α :=
  let angle := arc.startAngle + arc.signedSweep * t
  let radius := arc.radius + (arc.endRadius - arc.radius) * t
  ((start.lerp target t).set arc.plane.axes.1 (arc.center.1 + radius * Scalar.cos angle)).set
    arc.plane.axes.2 (arc.center.2 + radius * Scalar.sin angle)

/-- The center as seen from `start`, zero outside the plane. -/
def centerOffset (arc : Arc α) (start : Position α) : Position α :=
  (Position.zero.set arc.plane.axes.1 (arc.center.1 - start.get arc.plane.axes.1)).set
    arc.plane.axes.2 (arc.center.2 - start.get arc.plane.axes.2)

def reach (arc : Arc α) : α := Scalar.max arc.radius arc.endRadius

/-- Extent, on each axis of the plane, of the circle about the center that holds the
    whole arc. -/
def envelope (arc : Arc α) : List (Axis × α × α) :=
  [(arc.plane.axes.1, arc.center.1 - arc.reach, arc.center.1 + arc.reach),
   (arc.plane.axes.2, arc.center.2 - arc.reach, arc.center.2 + arc.reach)]

end Arc

end NumericalControl
