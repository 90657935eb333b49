import Pixmap.Pixel.Convert
import Pixmap.Log

/-! Images: sides, a pixel layout and, unless the byte size is zero, a buffer of exactly that
size, rows packed top to bottom; cropping clamps and conversion goes through the layout table. -/
namespace Pixmap

/-- An image; `data` is present exactly when the byte size is not zero. -/
@[ext]
structure Image where
  width : Nat
  height : Nat
  spec : ColorSpec
  data : Option ByteArray
  deriving Inhabited

-- buffers are compared byte by byte, with the core library's equality on byte arrays
instance : DecidableEq Image := fun a b =>
  letI : DecidableEq ByteArray := ByteArray.instDecidableEq
  decidable_of_iff (a.width = b.width ∧ a.height = b.height ∧ a.spec = b.spec ∧ a.data = b.data)
    Image.ext_iff.symm

/-- A program stopped by a violated precondition, with the text it stopped with. -/
structure Panic where
  message : String
  deriving DecidableEq, Repr

namespace Image

/-- The empty image: 0×0 RGBA at 8 bits, without buffer. -/
def empty : Image := ⟨0, 0, .rgba8, none⟩

/-- The byte size of a layout, or the error for a size beyond the address space. -/
def checkedSize (width height : Nat) (spec : ColorSpec) : Except Error Nat :=
  match spec.bufferSize? width height with
  | some n => .ok n
  | none => .error (.invalidInput (toString width ++ "x" ++ toString height ++ " " ++
      spec.name ++ " image size overflows"))

/-- A zero-filled image of a known byte size. -/
def zeroed (width height : Nat) (spec : ColorSpec) (size : Nat) : Image :=
  ⟨width, height, spec, if size > 0 then some (ByteArray.mk (Array.replicate size 0)) else none⟩

/-- A zero-filled image, or the overflow error. -/
def tryWithSpec (width height : Nat) (spec : ColorSpec) : Except Error Image :=
  (checkedSize width height spec).map (zeroed width height spec)

/-- A zero-filled image; an overflowing size stops the program. -/
def withSpec (width height : Nat) (spec : ColorSpec) : Except Panic Image :=
  match tryWithSpec width height spec with
  | .ok img => .ok img
  | .error e => .error ⟨"Image::with_spec(" ++ toString width ++ ", " ++ toString height ++
      ", " ++ spec.name ++ "): " ++ e.message⟩

/-- A zero-filled RGB image at 8 bits. -/
def new (width height : Nat) : Except Panic Image := withSpec width height .rgb8

/-- Adopts a buffer, which must have exactly the layout's byte size. -/
def ofBytes (width height : Nat) (spec : ColorSpec) (bytes : ByteArray) : Except Error Image :=
  match checkedSize width height spec with
  | .error e => .error e
  | .ok size =>
    if bytes.size != size then
      .error (.invalidInput (toString width ++ "x" ++ toString height ++ " " ++ spec.name ++
        " image needs " ++ toString size ++ " bytes, got " ++ toString bytes.size))
    else .ok ⟨width, height, spec, if size > 0 then some bytes else none⟩

/-- An image holds pixels exactly when it has a buffer. -/
def isValid (img : Image) : Bool := img.data.isSome

/-- Bytes of one row. -/
def stride (img : Image) : Nat := img.width * img.spec.bytesPerPixel

/-- Bytes of all rows. -/
def bufferSize (img : Image) : Nat := img.stride * img.height

/-- The buffer, or no bytes for an invalid image. -/
def bytes (img : Image) : ByteArray := img.data.getD ByteArray.empty

/-- Moves the contents out: the result has the sides and the buffer, the image left behind is
0×0 without buffer and keeps its layout. -/
def take (img : Image) : Image × Image := (img, ⟨0, 0, img.spec, none⟩)

/-- Writes `bytes` into the buffer from `offset` on; bytes past its end are dropped. The count
written is returned with the image. -/
def writeAt (img : Image) (offset : Nat) (bytes : ByteArray) : Nat × Image :=
  match img.data with
  | none => (0, img)
  | some buf =>
    let n := min bytes.size (buf.size - offset)
    let buf' := buf.extract 0 offset ++ bytes.extract 0 n ++ buf.extract (offset + n) buf.size
    if offset < buf.size then (n, { img with data := some buf' }) else (0, img)

/-- Composition of images is not available. -/
def composite (_img : Image) (_x _y : Int) (_other : Image) : Except Error Image :=
  .error (.notImplemented "composite")

/-- The rectangle at `(x, y)` of at most `w` by `h` pixels, clamped to the image. Rows are
copied from the source; a result of zero size has no buffer. -/
def crop (img : Image) (x y w h : Nat) : Image :=
  let cw := min w (img.width - x)
  let ch := min h (img.height - y)
  let bpp := img.spec.bytesPerPixel
  let rowBytes := cw * bpp
  let out := zeroed cw ch img.spec (rowBytes * ch)
  match img.data, out.data with
  | some src, some _ =>
    let rows := (List.range ch).map fun i =>
      let start := (y + i) * img.stride + x * bpp
      src.extract start (start + rowBytes)
    { out with data := some (rows.foldl (· ++ ·) ByteArray.empty) }
  | _, _ => out

/-- The image in another layout. The same layout returns the image; a pair outside the table
fails; otherwise every pixel is converted, and an invalid image stays invalid. -/
def convert (img : Image) (spec : ColorSpec) : Except Error Image :=
  if spec = img.spec then .ok img
  else if !ColorSpec.convertible img.spec spec then .error (.unsupportedConversion img.spec spec)
  else
    match tryWithSpec img.width img.height spec with
    | .error e => .error e
    | .ok out =>
      match img.data, out.data with
      | some src, some _ =>
        .ok { out with data := some (ColorSpec.convertBytes img.spec spec src.data.toList).toByteArray }
      | _, _ => .ok out

/-- `convert`, recording the conversion when one runs. -/
def convertLogged (img : Image) (spec : ColorSpec) : Logged (Except Error Image) := do
  if spec ≠ img.spec ∧ ColorSpec.convertible img.spec spec then
    emit .debug .image ("converting " ++ toString img.width ++ "x" ++ toString img.height ++
      " image " ++ img.spec.name ++ " -> " ++ spec.name)
  return img.convert spec

/-- The debugging text: sides and layout, marked when there is no buffer. -/
def debugText (img : Image) : String :=
  "Image(" ++ toString img.width ++ "x" ++ toString img.height ++ ", " ++ img.spec.name ++
    (if img.isValid then "" else ", invalid") ++ ")"

/-- The shape every image of the library has: the size fits the address space, and the buffer
is present exactly when the size is not zero and then holds that many bytes. -/
def WellFormed (img : Image) : Prop :=
  ∃ n, img.spec.bufferSize? img.width img.height = some n ∧
    match img.data with
    | none => n = 0
    | some b => n ≠ 0 ∧ b.size = n

end Image

end Pixmap
