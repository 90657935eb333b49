import Pixmap.Image.Basic

/-! Images from and to typed 8-bit RGB and RGBA pixels whose rows may be padded. -/
namespace Pixmap

namespace Image

/-- Packs `height` rows of `width` pixels of `spec`, taken every `stride` pixels of `buf`. -/
def packRows (spec : ColorSpec) (width height stride : Nat) (buf : ByteArray) : ByteArray :=
  let bpp := spec.bytesPerPixel
  (List.range height).foldl
    (fun acc r => acc ++ buf.extract (r * stride * bpp) ((r * stride + width) * bpp))
    ByteArray.empty

/-- Image sides are 32-bit words: a side stays below `sideLimit`. -/
def sideLimit : Nat := 1 <<< 32

/-- A side of a typed buffer as an image side, or the error for one beyond 32 bits. -/
def dimension (v : Nat) : Except Error Nat :=
  if v < sideLimit then .ok v else .error (.invalidInput ("dimension " ++ toString v ++ " exceeds u32"))

/-- An image of `spec` from strided typed pixels: the sides are checked first, width before
height. -/
def ofStrided (spec : ColorSpec) (width height stride : Nat) (buf : ByteArray) :
    Except Error Image := do
  let width ← dimension width
  let height ← dimension height
  ofBytes width height spec (packRows spec width height stride buf)

/-- The packed pixels of a valid image of exactly the layout `spec`. -/
def pixelsAs? (img : Image) (spec : ColorSpec) : Option ByteArray :=
  if img.spec = spec ∧ img.isValid then some img.bytes else none

end Image

end Pixmap
