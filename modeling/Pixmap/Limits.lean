import Pixmap.Error
import Pixmap.Bytes

/-! Resource limits on decoded images: bounds on the sides, the pixel count and the buffer, in
saturating 64-bit products; an image passes exactly when all hold (`breach_eq_ok_iff`). -/
namespace Pixmap

/-- Which bound a size broke. -/
inductive LimitBreach where
  | width
  | height
  | pixels
  | memory
  deriving DecidableEq, Repr

/-- The text naming a broken bound. -/
def LimitBreach.message : LimitBreach → String
  | .width => "width exceeds limit"
  | .height => "height exceeds limit"
  | .pixels => "pixel count exceeds limit"
  | .memory => "memory allocation exceeds limit"

/-- Optional bounds; `none` means no bound. -/
structure Limits where
  maxWidth : Option Nat := none
  maxHeight : Option Nat := none
  maxPixels : Option Nat := none
  maxMemoryBytes : Option Nat := none
  deriving DecidableEq, Repr, Inhabited

namespace Limits

/-- No bounds at all. -/
def unbounded : Limits := {}

def withMaxDimensions (l : Limits) (width height : Nat) : Limits :=
  { l with maxWidth := some width, maxHeight := some height }

def withMaxPixels (l : Limits) (pixels : Nat) : Limits := { l with maxPixels := some pixels }

def withMaxMemory (l : Limits) (bytes : Nat) : Limits := { l with maxMemoryBytes := some bytes }

/-- A value passes an optional bound when there is none or it does not exceed it. -/
def within (bound : Option Nat) (value : Nat) : Bool :=
  match bound with
  | none => true
  | some b => value ≤ b

/-- Checks width, height and the saturated pixel count, in this order. -/
def checkDimensions (l : Limits) (width height : Nat) : Except LimitBreach Unit :=
  if !within l.maxWidth width then .error .width
  else if !within l.maxHeight height then .error .height
  else if !within l.maxPixels (min (width * height) wordMax) then .error .pixels
  else .ok ()

/-- Checks a byte count against the memory bound. -/
def checkMemory (l : Limits) (bytes : Nat) : Except LimitBreach Unit :=
  if !within l.maxMemoryBytes bytes then .error .memory else .ok ()

/-- Checks an image of the given size and layout: dimensions first, then its saturated byte
count. -/
def breach (l : Limits) (width height : Nat) (spec : ColorSpec) : Except LimitBreach Unit :=
  match l.checkDimensions width height with
  | .error b => .error b
  | .ok () => l.checkMemory (min (width * height * spec.bytesPerPixel) wordMax)

/-- `breach` as a library error naming the image and the broken bound. -/
def checkImage (l : Limits) (width height : Nat) (spec : ColorSpec) : Except Error Unit :=
  match l.breach width height spec with
  | .ok () => .ok ()
  | .error b => .error (.limitExceeded (toString width ++ "x" ++ toString height ++ " " ++
      spec.name ++ ": " ++ b.message))

theorem breach_eq_ok_iff {l : Limits} {w h : Nat} {s : ColorSpec} :
    l.breach w h s = .ok () ↔
      within l.maxWidth w ∧ within l.maxHeight h ∧ within l.maxPixels (min (w * h) wordMax) ∧
        within l.maxMemoryBytes (min (w * h * s.bytesPerPixel) wordMax) := by
  unfold breach checkDimensions checkMemory
  by_cases h1 : within l.maxWidth w <;> by_cases h2 : within l.maxHeight h <;>
    by_cases h3 : within l.maxPixels (min (w * h) wordMax) <;>
    by_cases h4 : within l.maxMemoryBytes (min (w * h * s.bytesPerPixel) wordMax) <;>
    simp [h1, h2, h3, h4]

theorem checkImage_eq_ok_iff {l : Limits} {w h : Nat} {s : ColorSpec} :
    l.checkImage w h s = .ok () ↔ l.breach w h s = .ok () := by
  unfold checkImage
  cases l.breach w h s with
  | ok u => simp
  | error b => simp

end Limits

end Pixmap
