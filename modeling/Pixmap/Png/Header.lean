import Pixmap.Png.Chunk
import Pixmap.Png.Types
import Pixmap.Deflate.Inflate

/-! The PNG header and the failures of PNG decoding; the header's fields are checked in the order
they are stored. -/
namespace Pixmap

namespace Png

/-- The combinations PNG allows: gray at any depth, palette indices up to 8 bits, the other
types at 8 or 16 bits. -/
def allowed (c : ColorType) (d : BitDepth) : Bool :=
  match c, d with
  | .grayscale, _ => true
  | .indexed, .sixteen => false
  | .indexed, _ => true
  | _, .eight => true
  | _, .sixteen => true
  | _, _ => false

/-- Why decoding a PNG stream failed, apart from reading failures. -/
inductive Problem where
  | crcMismatch (stored computed : UInt32) (chunk : ChunkType)
  | chunkBeforeHeader (chunk : ChunkType)
  | duplicateChunk (chunk : ChunkType)
  | unrecognizedCriticalChunk (chunk : ChunkType)
  | chunkLengthWrong (chunk : ChunkType)
  | invalidDimensions
  | invalidBitDepth (bits : Nat)
  | invalidColorType (code : Nat)
  | invalidColorBitDepth (color : ColorType) (depth : BitDepth)
  | unknownCompressionMethod (method : Nat)
  | unknownFilterMethod (method : Nat)
  | unknownInterlaceMethod (method : Nat)
  | missingImageData
  | paletteRequired
  | noMoreImageData
  | corruptFlateStream (why : Deflate.Failure)
  | limitsExceeded
  | invalidSignature
  | apngOrder (expected present : Nat)
  | invalidDisposeOp (op : Nat)
  | invalidBlendOp (op : Nat)
  | badSubFrameBounds
  | unexpectedRestart (chunk : ChunkType)

/-- Lower-case hexadecimal digits without leading zeros. -/
def hexText (v : UInt32) : String := ChunkType.hexDigits v.toNat

/-- The text of a problem. -/
def Problem.message : Problem → String
  | .crcMismatch stored computed chunk => "CRC error: expected 0x" ++ hexText stored ++ " have 0x" ++
      hexText computed ++ " while decoding " ++ chunk.debugText ++ " chunk."
  | .chunkBeforeHeader chunk => chunk.debugText ++ " chunk appeared before IHDR chunk"
  | .duplicateChunk chunk => "Chunk " ++ chunk.debugText ++ " must appear at most once."
  | .unrecognizedCriticalChunk chunk => "Unrecognized critical chunk: " ++ chunk.debugText
  | .chunkLengthWrong chunk => "Chunk length wrong: " ++ chunk.debugText
  | .invalidDimensions => "Invalid image dimensions"
  | .invalidBitDepth n => "Invalid bit depth " ++ toString n ++ "."
  | .invalidColorType n => "Invalid color type " ++ toString n ++ "."
  | .invalidColorBitDepth c d => "Invalid color/depth combination in header: " ++ c.name ++ "/" ++ d.name
  | .unknownCompressionMethod n => "Unknown compression method " ++ toString n ++ "."
  | .unknownFilterMethod n => "Unknown filter method " ++ toString n ++ "."
  | .unknownInterlaceMethod n => "Unknown interlace method " ++ toString n ++ "."
  | .missingImageData => "IDAT or fdAT chunk is missing."
  | .paletteRequired => "Missing palette of indexed image."
  | .noMoreImageData => "IDAT or fDAT chunk does not have enough data for image."
  | .corruptFlateStream why => "Corrupt deflate stream. " ++ why.name
  | .limitsExceeded => "limits are exceeded"
  | .invalidSignature => "Invalid PNG signature."
  | .apngOrder expected present => "Sequence is not in order, expected #" ++ toString expected ++
      " got #" ++ toString present ++ "."
  | .invalidDisposeOp op => "Invalid dispose op " ++ toString op ++ "."
  | .invalidBlendOp op => "Invalid blend op " ++ toString op ++ "."
  | .badSubFrameBounds => "Sub frame is out-of-bounds."
  | .unexpectedRestart chunk => "Unexpected restart of " ++ chunk.debugText ++ " chunk sequence"

/-- The image header. -/
structure Header where
  width : Nat
  height : Nat
  bitDepth : BitDepth
  colorType : ColorType
  interlaced : Bool
  deriving DecidableEq, Repr, Inhabited

namespace Header

/-- Bits of one pixel. -/
def bitsPerPixel (h : Header) : Nat := h.colorType.samples * h.bitDepth.bits

/-- Bytes of a row of `width` pixels, without the filter byte. -/
def rowBytes (h : Header) (width : Nat) : Nat := (width * h.bitsPerPixel + 7) / 8

/-- The distance, in bytes, between a byte and the byte it is predicted from: a whole pixel,
at least one byte. -/
def filterStride (h : Header) : Nat := max 1 (h.bitsPerPixel / 8)

/-- Reads the header from the data of an IHDR chunk, checking its fields in stored order. -/
def parse (data : ByteArray) : Except Problem Header := do
  if data.size != 13 then throw (.chunkLengthWrong .ihdr)
  let field (i : Nat) : Nat := (data[i]?.getD 0).toNat
  let width := Bytes.beValue (data.extract 0 4).data.toList
  let height := Bytes.beValue (data.extract 4 8).data.toList
  if width = 0 ∨ height = 0 then throw .invalidDimensions
  let some depth := BitDepth.ofBits? (field 8) | throw (.invalidBitDepth (field 8))
  let some color := ColorType.ofCode? (field 9) | throw (.invalidColorType (field 9))
  if !allowed color depth then throw (.invalidColorBitDepth color depth)
  if field 10 != 0 then throw (.unknownCompressionMethod (field 10))
  if field 11 != 0 then throw (.unknownFilterMethod (field 11))
  let interlaced ← match field 12 with
    | 0 => pure false
    | 1 => pure true
    | n => throw (.unknownInterlaceMethod n)
  return ⟨width, height, depth, color, interlaced⟩

end Header

end Png

end Pixmap
