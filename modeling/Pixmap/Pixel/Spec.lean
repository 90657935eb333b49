/-! Pixel layouts: gray, RGB or RGBA at 8 or 16 bits, low byte first, with row and buffer sizes
refused once they leave the 64-bit address space (`bufferSize?_eq_some_iff`). -/
namespace Pixmap

/-- Buffers are indexed by machine words of 64 bits: a size must stay below `2 ^ 64`. -/
def addressSpace : Nat := 1 <<< 64

/-- The channels of a pixel. -/
inductive PixelFormat where
  | monochromatic
  | rgb
  | rgba
  deriving DecidableEq, Repr, Inhabited

namespace PixelFormat

/-- Number of channels: one for gray, three for RGB, four for RGBA. -/
def channels : PixelFormat → Nat
  | monochromatic => 1
  | rgb => 3
  | rgba => 4

/-- Only RGBA carries an alpha channel. -/
def hasAlpha : PixelFormat → Bool
  | rgba => true
  | _ => false

/-- The name of the channel set, as it is reported. -/
def name : PixelFormat → String
  | monochromatic => "Monochromatic"
  | rgb => "Rgb"
  | rgba => "Rgba"

theorem channels_pos (f : PixelFormat) : 0 < f.channels := by cases f <;> decide

end PixelFormat

/-- Bits per channel. -/
inductive ChannelDepth where
  | bits8
  | bits16
  deriving DecidableEq, Repr, Inhabited

namespace ChannelDepth

/-- Bytes per sample. -/
def bytes : ChannelDepth → Nat
  | bits8 => 1
  | bits16 => 2

/-- Bits per sample. -/
def bits : ChannelDepth → Nat
  | bits8 => 8
  | bits16 => 16

/-- The largest sample value, which also means "opaque" in an alpha channel. -/
def maxValue : ChannelDepth → Nat
  | bits8 => 255
  | bits16 => 65535

/-- The name of the depth, as it is reported. -/
def name : ChannelDepth → String
  | bits8 => "Bits8"
  | bits16 => "Bits16"

theorem bytes_pos (d : ChannelDepth) : 0 < d.bytes := by cases d <;> decide

theorem maxValue_eq (d : ChannelDepth) : d.maxValue = (1 <<< d.bits) - 1 := by cases d <;> rfl

end ChannelDepth

/-- A pixel layout: channel set and channel depth. -/
structure ColorSpec where
  format : PixelFormat
  depth : ChannelDepth
  deriving DecidableEq, Repr, Inhabited

namespace ColorSpec

def gray8 : ColorSpec := ⟨.monochromatic, .bits8⟩
def gray16 : ColorSpec := ⟨.monochromatic, .bits16⟩
def rgb8 : ColorSpec := ⟨.rgb, .bits8⟩
def rgb16 : ColorSpec := ⟨.rgb, .bits16⟩
def rgba8 : ColorSpec := ⟨.rgba, .bits8⟩
def rgba16 : ColorSpec := ⟨.rgba, .bits16⟩

/-- The layout a spec defaults to: RGB at 8 bits. -/
def standard : ColorSpec := rgb8

/-- The six layouts, gray first, then RGB, then RGBA, each at 8 bits before 16. -/
def all : List ColorSpec := [gray8, gray16, rgb8, rgb16, rgba8, rgba16]

def channels (s : ColorSpec) : Nat := s.format.channels

def bytesPerChannel (s : ColorSpec) : Nat := s.depth.bytes

/-- Bytes of one pixel: channels times bytes per sample. -/
def bytesPerPixel (s : ColorSpec) : Nat := s.format.channels * s.depth.bytes

def hasAlpha (s : ColorSpec) : Bool := s.format.hasAlpha

/-- The display name: `Gray`, `RGB` or `RGBA` followed by the bit count. -/
def name (s : ColorSpec) : String :=
  let base := match s.format with
    | .monochromatic => "Gray"
    | .rgb => "RGB"
    | .rgba => "RGBA"
  base ++ toString s.depth.bits

/-- Reads a display name back. -/
def ofName? (text : String) : Option ColorSpec :=
  all.find? (fun s => s.name == text)

/-- Bytes of a row of `width` pixels, if that fits the address space. -/
def rowBytes? (s : ColorSpec) (width : Nat) : Option Nat :=
  let n := width * s.bytesPerPixel
  if n < addressSpace then some n else none

/-- Bytes of a `width` by `height` buffer, if the row and then the whole fit the address space. -/
def bufferSize? (s : ColorSpec) (width height : Nat) : Option Nat :=
  match s.rowBytes? width with
  | none => none
  | some row => if row * height < addressSpace then some (row * height) else none

theorem bytesPerPixel_pos (s : ColorSpec) : 0 < s.bytesPerPixel :=
  Nat.mul_pos s.format.channels_pos s.depth.bytes_pos

theorem bytesPerPixel_le (s : ColorSpec) : s.bytesPerPixel ≤ 8 := by
  cases s with
  | mk f d => cases f <;> cases d <;> decide

@[simp] theorem rowBytes?_eq_some_iff {s : ColorSpec} {w n : Nat} :
    s.rowBytes? w = some n ↔ n = w * s.bytesPerPixel ∧ w * s.bytesPerPixel < addressSpace := by
  unfold rowBytes?
  by_cases h : w * s.bytesPerPixel < addressSpace <;> simp [h, eq_comm]

/-- A buffer size is the exact product of its sides and the pixel size, when the row and the
whole buffer fit the address space. -/
theorem bufferSize?_eq_some_iff {s : ColorSpec} {w h n : Nat} :
    s.bufferSize? w h = some n ↔
      n = w * s.bytesPerPixel * h ∧ w * s.bytesPerPixel < addressSpace ∧
        w * s.bytesPerPixel * h < addressSpace := by
  unfold bufferSize? rowBytes?
  by_cases hr : w * s.bytesPerPixel < addressSpace
  · by_cases hlt : w * s.bytesPerPixel * h < addressSpace <;> simp [hr, hlt, eq_comm]
  · simp [hr]

end ColorSpec

end Pixmap
