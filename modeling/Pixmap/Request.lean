import Pixmap.Codec.Raw
import Pixmap.Codec.Png

/-! Requests: what to decode from or encode to, and how; PNG goes through a PNG library given as a
parameter. -/
namespace Pixmap

/-- What to decode, and how. -/
structure DecodeRequest where
  format : Option ImageFormat := none
  spec : ColorSpec := .rgba8
  limits : Option Limits := none
  rawLayout : Option (Nat × Nat × ColorSpec) := none
  deriving Inhabited

namespace DecodeRequest

/-- Sets the format. -/
def withFormat (r : DecodeRequest) (f : ImageFormat) : DecodeRequest := { r with format := some f }

/-- Sets the layout wanted. -/
def withColorSpec (r : DecodeRequest) (s : ColorSpec) : DecodeRequest := { r with spec := s }

/-- Sets the limits. -/
def withLimits (r : DecodeRequest) (l : Limits) : DecodeRequest := { r with limits := some l }

/-- Sets the stored geometry of raw data, and the format to raw. -/
def withRawLayout (r : DecodeRequest) (width height : Nat) (s : ColorSpec) : DecodeRequest :=
  { r with format := some .raw, rawLayout := some (width, height, s) }

/-- Decodes one image from a reader, PNG through the library `png`. -/
def decode {ρ : Type} [ByteReader ρ] (r : DecodeRequest) (png : PngLibrary) : CodecM ρ Image := do
  let some format := r.format | throw (.notImplemented "format detection")
  emit .debug .decode ("decode " ++ format.name ++ " as " ++ r.spec.name)
  let limits := r.limits.getD {}
  match format with
  | .raw =>
    match r.rawLayout with
    | none => throw (.unsupportedOperation "raw decode needs a layout; use with_raw_layout")
    | some (width, height, stored) => RawCodec.decode ⟨width, height, stored, limits⟩ r.spec
  | .png => PngCodec.decode png limits r.spec
  | .jpeg => throw (.unsupportedFormat .jpeg)
  | .gif => decodeGif

/-- Decodes from bytes in memory. -/
def decodeBytes (r : DecodeRequest) (png : PngLibrary) (data : ByteArray) : Logged (Except Error Image) := do
  let (result, _) ← ((r.decode png).run.run (⟨data, 0⟩ : MemoryReader) : Logged _)
  return result

/-- Decodes from a stream, starting at its position. -/
def decodeStream (r : DecodeRequest) (png : PngLibrary) (c : Cursor) : Logged (Except Error Image) := do
  let (result, _) ← ((r.decode png).run.run (StreamReader.ofCursor c) : Logged _)
  return result

end DecodeRequest

/-- What to encode to, and how. -/
structure EncodeRequest where
  format : ImageFormat
  config : Option CodecConfig := none
  deriving Inhabited

namespace EncodeRequest

/-- Encodes an image into a writer, PNG through the library `png`. -/
def encode {ω : Type} [ByteWriter ω] (r : EncodeRequest) (png : PngLibrary) (img : Image) : CodecM ω Unit := do
  emit .debug .encode ("encode " ++ sides img.width img.height ++ " " ++ img.spec.name ++ " as " ++
    r.format.name)
  match r.format with
  | .raw => RawCodec.encode ⟨img.width, img.height, img.spec, {}⟩ img
  | .png => PngCodec.encode png (r.config.getD {}) img
  | .jpeg => throw (.unsupportedFormat .jpeg)
  | .gif => encodeGif

/-- Encodes into a growing buffer and returns it. -/
def encodeToBytes (r : EncodeRequest) (png : PngLibrary) (img : Image) : Logged (Except Error ByteArray) := do
  let (result, w) ← ((r.encode png img).run.run (⟨ByteArray.empty⟩ : GrowingWriter) : Logged _)
  return result.map fun () => w.bytes

/-- Encodes into a stream and hands the stream back. -/
def encodeToStream (r : EncodeRequest) (png : PngLibrary) (img : Image) (stream : GrowingWriter) :
    Logged (Except Error GrowingWriter) := do
  let (result, w) ← ((r.encode png img).run.run (⟨stream⟩ : StreamWriter) : Logged _)
  return result.map fun () => w.stream

/-- Encodes into a fixed buffer; returns the count written, and the buffer as it is after. -/
def encodeToSlice (r : EncodeRequest) (png : PngLibrary) (img : Image) (buf : ByteArray) :
    Logged (Except Error Nat × ByteArray) := do
  let (result, w) ← ((r.encode png img).run.run (⟨buf, 0⟩ : MemoryWriter) : Logged _)
  return (result.map fun () => w.pos, w.buf)

end EncodeRequest

end Pixmap
