import ShapeGeometry.Scalar

namespace ShapeGeometry

namespace Angle

variable {α : Type} [Scalar α]

def degreesToRadians (angle : α) : α :=
  angle * (Scalar.pi / 180)

def radiansToDegrees (angle : α) : α :=
  angle * (180 / Scalar.pi)

/-- Guide formulas measure angles in a unit of their own. -/
def unitsPerDegree : α :=
  60000

def unitsToDegrees (angle : α) : α :=
  angle / unitsPerDegree

def unitsToRadians (angle : α) : α :=
  degreesToRadians (unitsToDegrees angle)

def radiansToUnits (angle : α) : α :=
  radiansToDegrees angle * unitsPerDegree

end Angle

/-- A point of the plane, which is also a vector and a pair of factors for the two axes. -/
structure Point (α : Type) where
  x : α
  y : α
  deriving DecidableEq, Repr

namespace Point

variable {α : Type}

instance [Add α] : Add (Point α) :=
  ⟨fun p q => ⟨p.x + q.x, p.y + q.y⟩⟩

instance [Sub α] : Sub (Point α) :=
  ⟨fun p q => ⟨p.x - q.x, p.y - q.y⟩⟩

/-- Scales each coordinate by its own factor. -/
instance [Mul α] : Mul (Point α) :=
  ⟨fun p q => ⟨p.x * q.x, p.y * q.y⟩⟩

variable [Scalar α]

def origin : Point α :=
  ⟨0, 0⟩

def length (p : Point α) : α :=
  Scalar.sqrt (p.x * p.x + p.y * p.y)

/-- The point of the unit circle at an angle in radians. -/
def ofAngle (angle : α) : Point α :=
  ⟨Scalar.cos angle, Scalar.sin angle⟩

/-- Turns a vector by the angle of a point of the unit circle. -/
def rotate (turn p : Point α) : Point α :=
  ⟨turn.x * p.x - turn.y * p.y, turn.y * p.x + turn.x * p.y⟩

end Point

end ShapeGeometry
