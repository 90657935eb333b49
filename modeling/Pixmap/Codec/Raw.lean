import Pixmap.Codec.Basic
import Pixmap.Limits

/-! Headerless pixel bytes in a caller-given layout: decoding checks the limits, reads exactly one
buffer and converts it; encoding writes the buffer in the stored layout. -/
namespace Pixmap

/-- A stored geometry and layout, with the limits decoding must respect. -/
structure RawCodec where
  width : Nat
  height : Nat
  spec : ColorSpec
  limits : Limits := {}
  deriving Inhabited

namespace RawCodec

/-- Bytes one stored image takes, or `none` when the size overflows. -/
def byteLen? (c : RawCodec) : Option Nat := c.spec.bufferSize? c.width c.height

/-- Reads one stored image and converts it to `spec`. -/
def decode {ρ : Type} [ByteReader ρ] (c : RawCodec) (spec : ColorSpec) : CodecM ρ Image := do
  emit .debug .rawCodec ("raw decode " ++ sides c.width c.height ++ " " ++ c.spec.name ++ " -> " ++
    spec.name)
  CodecM.ofExcept (c.limits.checkImage c.width c.height c.spec)
  let img ← CodecM.ofExcept (Image.tryWithSpec c.width c.height c.spec)
  let bytes ← readFull img.bytes.size
  intoSpec { img with data := img.data.map fun _ => bytes } spec

/-- Writes an image in the stored layout. -/
def encode {ω : Type} [ByteWriter ω] (c : RawCodec) (img : Image) : CodecM ω Unit := do
  emit .debug .rawCodec ("raw encode " ++ sides img.width img.height ++ " " ++ img.spec.name ++
    " as " ++ c.spec.name)
  if img.spec = c.spec then writeFull img.bytes
  else
    let converted ← CodecM.ofExcept (← img.convertLogged c.spec)
    writeFull converted.bytes

end RawCodec

/-- Decoding GIF is not available. -/
def decodeGif {ρ : Type} : CodecM ρ Image := throw (.notImplemented "GIF decode")

/-- Encoding GIF is not available. -/
def encodeGif {ω : Type} : CodecM ω Unit := throw (.notImplemented "GIF encode")

end Pixmap
