import Pixmap.Request
import Pixmap.Image.View

/-! Two self-checks on arbitrary input, each passing or naming the property that broke: crop and
convert a generated image, and decode, re-encode and decode a PNG input. -/
namespace Pixmap

namespace Check

/-- The layout a selector byte picks. -/
def specOfSelector (n : Nat) : ColorSpec := ColorSpec.all.getD (n % 6) .gray8

/-- Passes when `b` holds, otherwise fails with the assertion's text. -/
def ensure (b : Bool) (what : String) : Except String Unit :=
  if b then .ok () else .error ("assertion failed: " ++ what)

/-- The rows of a crop at `(x, y)` agree with the source rows they come from. -/
def cropRowsMatch (img crop : Image) (x y : Nat) : Bool :=
  let rows := if crop.isValid then crop.height else 0
  (List.range rows).all fun r =>
    match img.row? (y + r), crop.row? r with
    | some src, some got =>
      let start := x * img.spec.bytesPerPixel
      got == src.extract start (start + crop.stride)
    | _, _ => false

/-- Runs the crop-and-convert check. -/
def cropConvert (width height selector x y cw ch target fill : Nat) : Logged (Except String Unit) := do
  let spec := specOfSelector selector
  let size := width * height * spec.bytesPerPixel
  let data : ByteArray := ⟨((List.range size).map fun i => (i * fill).toUInt8).toArray⟩
  let img := (Image.ofBytes width height spec data).toOption.getD Image.empty
  let crop := img.crop x y cw ch
  let checks := do
    ensure (crop.width ≤ width - x) "crop width within the source"
    ensure (crop.height ≤ height - y) "crop height within the source"
    ensure (crop.isValid == (crop.width > 0 && crop.height > 0))
      "crop valid exactly when it has pixels"
    ensure (cropRowsMatch img crop x y) "crop rows equal the source rows"
  match checks with
  | .error e => return .error e
  | .ok () =>
    let goal := specOfSelector target
    match ← img.convertLogged goal with
    | .ok converted =>
      return do
        ensure (converted.spec == goal) "converted layout is the target"
        ensure (some converted.bytes.size == goal.bufferSize? width height)
          "converted size fits the target"
        ensure (spec != goal || converted == img) "same-layout conversion keeps the image"
    | .error _ =>
      return ensure (!ColorSpec.canConvert spec goal && spec != goal)
        "only unsupported pairs fail to convert"

/-- The decoding bound of the PNG check: a million pixels and 64 MiB. -/
def pngLimits : Limits := (Limits.unbounded.withMaxPixels (1 <<< 20)).withMaxMemory (64 <<< 20)

/-- Runs the PNG check with the PNG library `png`. -/
def pngRoundTrip (png : PngLibrary) (input : ByteArray) : Logged (Except String Unit) := do
  if input.isEmpty then return .ok ()
  let spec := specOfSelector (input[0]?.getD 0).toNat
  let data := input.extract 1 input.size
  let request : DecodeRequest := { format := some .png, spec := spec, limits := some pngLimits }
  match ← request.decodeBytes png data with
  | .error (.aborted text) => return .error text
  | .error _ => return .ok ()
  | .ok img =>
    let shape := do
      ensure (img.spec == spec) "decoded layout is the requested one"
      ensure (some img.bytes.size == spec.bufferSize? img.width img.height)
        "decoded size fits the layout"
    match shape with
    | .error e => return .error e
    | .ok () =>
      match ← EncodeRequest.encodeToBytes { format := .png } png img with
      | .error (.aborted text) => return .error text
      | .error e => return .error ("re-encode: " ++ e.message)
      | .ok encoded =>
        match ← DecodeRequest.decodeBytes { format := some .png, spec := spec } png encoded with
        | .error (.aborted text) => return .error text
        | .error e => return .error ("decode re-encoded: " ++ e.message)
        | .ok again => return ensure (again == img) "decoding the encoding gives the image back"

end Check

end Pixmap
