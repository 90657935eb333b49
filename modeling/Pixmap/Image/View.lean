import Pixmap.Image.Basic

/-! Views: borrowed bytes of exactly a layout's size, read row by row or copied into an image. -/
namespace Pixmap

/-- A view of image bytes. -/
@[ext]
structure ImageView where
  width : Nat
  height : Nat
  spec : ColorSpec
  data : ByteArray
  deriving Inhabited

instance : DecidableEq ImageView := fun a b =>
  letI : DecidableEq ByteArray := ByteArray.instDecidableEq
  decidable_of_iff (a.width = b.width ∧ a.height = b.height ∧ a.spec = b.spec ∧ a.data = b.data)
    ImageView.ext_iff.symm

namespace ImageView

/-- A view of `data`, which must have exactly the layout's byte size. -/
def new? (width height : Nat) (spec : ColorSpec) (data : ByteArray) : Except Error ImageView :=
  match Image.checkedSize width height spec with
  | .error e => .error e
  | .ok size =>
    if data.size != size then
      .error (.invalidInput (toString width ++ "x" ++ toString height ++ " " ++ spec.name ++
        " view needs " ++ toString size ++ " bytes, got " ++ toString data.size))
    else .ok ⟨width, height, spec, data⟩

def stride (v : ImageView) : Nat := v.width * v.spec.bytesPerPixel

def isEmpty (v : ImageView) : Bool := v.data.isEmpty

/-- Row `y`, if it is inside the view and the view has bytes. -/
def row? (v : ImageView) (y : Nat) : Option ByteArray :=
  if y ≥ v.height || v.data.isEmpty then none
  else
    let start := y * v.stride
    if start + v.stride ≤ v.data.size then some (v.data.extract start (start + v.stride))
    else none

/-- The view as an image of its own; no bytes give an image without buffer. -/
def toImage (v : ImageView) : Image :=
  ⟨v.width, v.height, v.spec, if v.data.isEmpty then none else some v.data⟩

def debugText (v : ImageView) : String :=
  "ImageRef(" ++ toString v.width ++ "x" ++ toString v.height ++ ", " ++ v.spec.name ++ ")"

end ImageView

namespace Image

/-- The view of an image's buffer. -/
def view (img : Image) : ImageView := ⟨img.width, img.height, img.spec, img.bytes⟩

/-- Row `y` of an image, if it is inside and the image has a buffer. -/
def row? (img : Image) (y : Nat) : Option ByteArray := img.view.row? y

end Image

end Pixmap
