import Pixmap.Error
import Pixmap.Bytes

/-! Conversion of pixel buffers: the table converts between any two distinct RGB and RGBA layouts
at 8 or 16 bits (`convertible_iff`); gray converts only to itself. -/
namespace Pixmap

namespace ChannelDepth

/-- Re-encodes one sample, given as its bytes low byte first, at another depth. -/
def recode : ChannelDepth → ChannelDepth → List UInt8 → List UInt8
  | .bits8, .bits16, s => [0, s.headD 0]
  | .bits16, .bits8, s => [s.getD 1 0]
  | _, _, s => s

/-- The sample of an opaque alpha channel: the largest value. -/
def opaqueSample : ChannelDepth → List UInt8
  | .bits8 => [255]
  | .bits16 => [255, 255]

theorem length_recode (a b : ChannelDepth) (s : List UInt8) (hs : s.length = a.bytes) :
    (recode a b s).length = b.bytes := by
  cases a <;> cases b <;> simp_all [recode, bytes]

theorem length_opaqueSample (d : ChannelDepth) : d.opaqueSample.length = d.bytes := by
  cases d <;> rfl

end ChannelDepth

namespace ColorSpec

/-- The table: two distinct layouts, neither of them gray. -/
def convertible (s t : ColorSpec) : Bool :=
  s != t && s.format != .monochromatic && t.format != .monochromatic

/-- A conversion is possible when the layouts agree or the table holds the pair. -/
def canConvert (s t : ColorSpec) : Bool := s == t || convertible s t

/-- The table's pairs in the order of a scan over `all`, source before target. -/
def convertiblePairs : List (ColorSpec × ColorSpec) :=
  all.flatMap fun s => (all.filter (convertible s)).map fun t => (s, t)

theorem convertible_iff {s t : ColorSpec} :
    convertible s t = true ↔ s ≠ t ∧ s.format ≠ .monochromatic ∧ t.format ≠ .monochromatic := by
  simp [convertible, bne_iff_ne, and_assoc]

/-- One pixel converted: the colour samples re-encoded at the target depth, then the alpha
sample carried over, added as opaque, or dropped. -/
def convertPixel (s t : ColorSpec) (px : List UInt8) : List UInt8 :=
  let samples := Bytes.groups s.depth.bytes px
  let color := (samples.take 3).flatMap (s.depth.recode t.depth)
  let alpha :=
    if t.hasAlpha then
      if s.hasAlpha then s.depth.recode t.depth (samples.getD 3 []) else t.depth.opaqueSample
    else []
  color ++ alpha

/-- A whole buffer converted pixel by pixel; the same layout keeps the bytes. -/
def convertBytes (s t : ColorSpec) (src : List UInt8) : List UInt8 :=
  if s = t then src else (Bytes.groups s.bytesPerPixel src).flatMap (convertPixel s t)

/-- Converts the pixels of `src` into the front of `dst` and leaves the rest of `dst` as it
was. The source must hold whole pixels and the destination must have room for all of them;
these checks come first, in this order, then the table. The count of pixels is returned with
the new destination. -/
def convertPixels (s t : ColorSpec) (src dst : ByteArray) : Except Error (Nat × ByteArray) :=
  let bpp := s.bytesPerPixel
  if src.size % bpp != 0 then
    .error (.invalidInput ("source length " ++ toString src.size ++
      " is not a multiple of the " ++ s.name ++ " pixel size " ++ toString bpp))
  else
    let pixels := src.size / bpp
    let needed := pixels * t.bytesPerPixel
    if dst.size < needed then
      .error (.invalidInput ("destination holds " ++ toString dst.size ++ " bytes, " ++
        toString pixels ++ " pixels of " ++ t.name ++ " need " ++ toString needed))
    else if canConvert s t then
      let out := (convertBytes s t src.data.toList).toByteArray
      .ok (pixels, out ++ dst.extract needed dst.size)
    else .error (.unsupportedConversion s t)

end ColorSpec

end Pixmap
