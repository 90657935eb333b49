import Pixmap.Png.Types
import Pixmap.Stream.Program
import Pixmap.Codec.Config

/-! The PNG library the PNG codec drives: a decoder that reads through the codec's reader, and an
encoder that hands the codec the bytes to write. -/
namespace Pixmap

/-- How a call into the PNG library fails: reading failed, the library refused with its own
error text, or it panicked with a message. -/
inductive PngFailure where
  | io (e : IoError)
  | codec (message : String)
  | panic (message : String)

/-- What the encoder is asked to write: sides, colour type and depth, compression and filter,
text chunks as keyword and text, and the image data with 16-bit samples high byte first. -/
structure PngSettings where
  width : Nat
  height : Nat
  color : Png.ColorType
  depth : Png.BitDepth
  compression : Option Compression
  filter : Option RowFilter
  texts : List (String × String)
  data : ByteArray

/-- What the encoder does with its settings, whatever the sink: it writes these pieces in order,
each whole through `write_all`, then succeeds or refuses with its own error text. -/
structure PngWrites where
  pieces : List ByteArray
  refusal : Option String := none

/-- A PNG library as the codec uses it, on any reader. Decoding reads the header and the chunks
before the image data, cutting 16-bit samples to 8 bits when asked (`readInfo`); the session then
tells the sides, the colour type and depth of the output and the size of the buffer a frame needs;
`nextFrame` reads the frame into a buffer of that size and returns it with the length of its rows. -/
structure PngLibrary where
  Session : Type
  readInfo : {ρ : Type} → [ByteReader ρ] → (strip16 : Bool) → StateT ρ Logged (Except PngFailure Session)
  width : Session → Nat
  height : Session → Nat
  outputColor : Session → Png.ColorType × Png.BitDepth
  outputBufferSize : Session → Option Nat
  nextFrame : {ρ : Type} → [ByteReader ρ] → Session → (bufferSize : Nat) →
    StateT ρ Logged (Except PngFailure (ByteArray × Nat))
  encode : PngSettings → PngWrites

/-- A PNG library whose decoding steps are programs over a reader's `Read` and `Seek`, as a
library that sees the reader only through those two calls is. -/
structure PngPrograms where
  Session : Type
  readInfo : (strip16 : Bool) → ReadProgram (Except PngFailure Session)
  width : Session → Nat
  height : Session → Nat
  outputColor : Session → Png.ColorType × Png.BitDepth
  outputBufferSize : Session → Option Nat
  nextFrame : Session → (bufferSize : Nat) → ReadProgram (Except PngFailure (ByteArray × Nat))
  encode : PngSettings → PngWrites

/-- The library the programs make, each run on the codec's reader. -/
def PngPrograms.library (p : PngPrograms) : PngLibrary where
  Session := p.Session
  readInfo strip16 := (p.readInfo strip16).run
  width := p.width
  height := p.height
  outputColor := p.outputColor
  outputBufferSize := p.outputBufferSize
  nextFrame session bufferSize := (p.nextFrame session bufferSize).run
  encode := p.encode

end Pixmap
