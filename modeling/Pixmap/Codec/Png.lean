import Pixmap.Codec.Basic
import Pixmap.Codec.PngLibrary
import Pixmap.Limits

/-! The PNG codec over a PNG library: decoding checks the signature, steps back over it and lets
the library read the stream, then repacks its frame into the decoded layout; encoding hands the
library the image with 16-bit samples turned high byte first, writes what it gives and flushes. -/
namespace Pixmap

namespace Png

/-- The colour type a pixel format is stored as. -/
def ColorType.ofFormat : PixelFormat → ColorType
  | .monochromatic => .grayscale
  | .rgb => .rgb
  | .rgba => .rgba

/-- The bit depth a channel depth is stored as. -/
def BitDepth.ofChannelDepth : ChannelDepth → BitDepth
  | .bits8 => .eight
  | .bits16 => .sixteen

end Png

namespace PngCodec

/-- The eight bytes every PNG stream starts with. -/
def signature : ByteArray := ⟨#[137, 80, 78, 71, 13, 10, 26, 10]⟩

/-- The software named in the text chunk of every file written. -/
def software : String := "zenraster"

/-- The decoded layout for an expanded colour type, with the source channel of each
destination channel. -/
def targetLayout (color : Png.ColorType) (requested : PixelFormat) :
    Except Error (PixelFormat × List Nat) :=
  match color, requested with
  | .grayscale, .monochromatic => .ok (.monochromatic, [0])
  | .grayscaleAlpha, .monochromatic => .ok (.monochromatic, [0])
  | .grayscale, _ => .ok (.rgb, [0, 0, 0])
  | .grayscaleAlpha, _ => .ok (.rgba, [0, 0, 0, 1])
  | .rgb, _ => .ok (.rgb, [0, 1, 2])
  | .rgba, _ => .ok (.rgba, [0, 1, 2, 3])
  | .indexed, _ => .error (.invalidInput "PNG palette was not expanded")

/-- The channel depth of an expanded depth. -/
def channelDepth : Png.BitDepth → Except Error ChannelDepth
  | .eight => .ok .bits8
  | .sixteen => .ok .bits16
  | other => .error (.invalidInput ("unexpected PNG output bit depth " ++ other.name))

/-- Repacks the expanded frame, rows of `lineSize` bytes: in each of the first `height` rows, the
`width` pixels of `samples` channels at its start are repacked by the channel map, 16-bit samples
turned from high byte first to low byte first. -/
def repack (depth : ChannelDepth) (samples : Nat) (channelMap : List Nat) (width height lineSize : Nat)
    (frame : ByteArray) : ByteArray :=
  let sample := depth.bytes
  let srcPixel := samples * sample
  (List.range (min height (frame.size / lineSize))).foldl (fun out r =>
    (List.range width).foldl (fun out p =>
      channelMap.foldl (fun out c =>
        let base := r * lineSize + p * srcPixel + c * sample
        match depth with
        | .bits8 => out.push (frame[base]?.getD 0)
        | .bits16 => (out.push (frame[base + 1]?.getD 0)).push (frame[base]?.getD 0)) out) out)
    ByteArray.empty

/-- A failure of the PNG library as a library error. -/
def failureError : PngFailure → Error
  | .io e => .io e
  | .codec message => .codec .png message
  | .panic message => .aborted message

/-- Runs a call into the PNG library on the codec's reader. -/
def call {ρ α : Type} (m : StateT ρ Logged (Except PngFailure α)) : CodecM ρ α := do
  match ← m with
  | .ok a => return a
  | .error f => throw (failureError f)

/-- How a session's frame is decoded: the layout it is repacked into, the source channel of each
channel of that layout, the colour type of the frame, and the size of the buffer it needs. -/
structure FramePlan where
  decoded : ColorSpec
  channelMap : List Nat
  color : Png.ColorType
  bufferSize : Nat

/-- Plans the decoding of a session: the frame's colour type and depth give the decoded layout,
which must pass the limits and have a size, and the library must know the buffer it needs. -/
def plan {σ : Type} (png : PngLibrary) (limits : Limits) (spec : ColorSpec) (session : png.Session) :
    CodecM σ FramePlan := do
  let width := png.width session
  let height := png.height session
  let (color, bitDepth) := png.outputColor session
  let depth ← CodecM.ofExcept (channelDepth bitDepth)
  let (format, channelMap) ← CodecM.ofExcept (targetLayout color spec.format)
  let decoded : ColorSpec := ⟨format, depth⟩
  emit .debug .pngCodec ("png decode " ++ sides width height ++ " " ++ color.name ++ "/" ++
    bitDepth.name ++ " as " ++ decoded.name ++ " -> " ++ spec.name)
  CodecM.ofExcept (limits.checkImage width height decoded)
  if (decoded.bufferSize? width height).isNone then
    throw (.limitExceeded (sides width height ++ " " ++ decoded.name ++ ": size overflows"))
  let some bufferSize := png.outputBufferSize session
    | throw (.invalidInput "cannot determine PNG output buffer size")
  return ⟨decoded, channelMap, color, bufferSize⟩

/-- Repacks a frame of rows of `lineSize` bytes into an image of the planned layout, then of
layout `spec`. Rows shorter than a pixel row stop the program at the first row. -/
def adopt {σ : Type} (width height : Nat) (p : FramePlan) (spec : ColorSpec) (frame : ByteArray)
    (lineSize : Nat) : CodecM σ Image := do
  if lineSize = 0 then throw (.invalidInput "PNG has zero-width rows")
  let srcRow := width * (p.color.samples * p.decoded.depth.bytes)
  if lineSize < srcRow ∧ 0 < min height (frame.size / lineSize) then
    throw (.aborted ("range end index " ++ toString srcRow ++ " out of range for slice of length " ++
      toString lineSize))
  let pixels := repack p.decoded.depth p.color.samples p.channelMap width height lineSize frame
  let img ← CodecM.ofExcept (Image.ofBytes width height p.decoded pixels)
  intoSpec img spec

/-- Reads a PNG stream from the reader's cursor on, signature first, into an image of layout
`spec`. -/
def readImage {ρ : Type} [ByteReader ρ] (png : PngLibrary) (limits : Limits) (spec : ColorSpec) :
    CodecM ρ Image := do
  let session ← call (png.readInfo (spec.depth = .bits8))
  let p ← plan png limits spec session
  let (frame, lineSize) ← call (png.nextFrame session p.bufferSize)
  adopt (png.width session) (png.height session) p spec frame lineSize

/-- Decodes a PNG stream into an image of layout `spec`: the signature is checked, and the
stream read again from its start. -/
def decode {ρ : Type} [ByteReader ρ] (png : PngLibrary) (limits : Limits) (spec : ColorSpec) :
    CodecM ρ Image := do
  let sig ← tryCatch (readFull 8) fun _ => pure ByteArray.empty
  if sig != signature then throw (.invalidInput "not a PNG")
  let _ ← CodecM.ofRead (ByteReader.seek (-8))
  readImage png limits spec

/-- The image's bytes as the library takes them: 16-bit samples turned high byte first. -/
def wireData (img : Image) : ByteArray :=
  match img.spec.depth with
  | .bits8 => img.bytes
  | .bits16 => (List.range (img.bytes.size / 2)).foldl (fun out k =>
      (out.push (img.bytes[2 * k + 1]?.getD 0)).push (img.bytes[2 * k]?.getD 0)) ByteArray.empty

/-- What the library is asked to write for an image. -/
def settings (config : CodecConfig) (img : Image) : PngSettings where
  width := img.width
  height := img.height
  color := .ofFormat img.spec.format
  depth := .ofChannelDepth img.spec.depth
  compression := config.pngCompression
  filter := config.pngFilter
  texts := [("Software", software)]
  data := wireData img

/-- Writes each piece whole, in order. -/
def writePieces {ω : Type} [FallibleWriter ω] : List ByteArray → CodecM ω Unit
  | [] => pure ()
  | piece :: rest => do
    writeOut .writeAllShort piece
    writePieces rest

/-- Encodes an image as a PNG file: an image without pixels is refused, and otherwise the
library's pieces are written, its refusal raised, and the writer flushed. -/
def encode {ω : Type} [FallibleWriter ω] (png : PngLibrary) (config : CodecConfig) (img : Image) :
    CodecM ω Unit := do
  if img.bytes.isEmpty then throw (.invalidInput "cannot encode an empty image as PNG")
  emit .debug .pngCodec ("png encode " ++ sides img.width img.height ++ " " ++ img.spec.name)
  let writes := png.encode (settings config img)
  writePieces writes.pieces
  if let some message := writes.refusal then throw (.codec .png message)
  flushOut

end PngCodec

end Pixmap
