import Pixmap.Png.Frame
import Pixmap.Png.Encoder

/-! The PNG decoder and encoder of this project as a PNG library: its decoder draws blocks from the
codec's reader and never seeks, and its encoder writes the whole file at once. -/
namespace Pixmap

namespace Png

/-- A failure of the decoder as a failure of the library. -/
def Failure.toLibrary : Failure → PngFailure
  | .io e => .io e
  | .problem p => .codec p.message
  | .defect text => .panic text

/-- What the decoder keeps between the header and the frame: the opened stream, the bytes drawn
but not yet used, and whether 16-bit samples are cut to 8 bits. -/
structure Session where
  opened : Opened
  pending : ByteArray
  strip16 : Bool

/-- The bytes of an output row of the session's image. -/
def Session.lineSize (s : Session) : Nat :=
  s.opened.info.outputLineSize s.strip16 s.opened.info.header.width

/-- Runs a decoding step on the reader, from the bytes drawn but not yet used; the reader is left
where the step left it. -/
def step {ρ α : Type} (m : DecodeM ρ α) (pending : ByteArray) :
    StateT ρ Logged (Except PngFailure (α × ByteArray)) := do
  let (result, b) ← (m.run.run { reader := ← get, pending := pending } : Logged _)
  set b.reader
  return (result.map (·, b.pending)).mapError Failure.toLibrary

/-- This project's decoder and encoder as a PNG library. -/
def library : PngLibrary where
  Session := Session
  readInfo strip16 := do
    let r ← step (openStream strip16) ByteArray.empty
    return r.map fun (opened, pending) => ⟨opened, pending, strip16⟩
  width s := s.opened.info.header.width
  height s := s.opened.info.header.height
  outputColor s := s.opened.info.outputColor s.strip16
  outputBufferSize s := some (s.lineSize * s.opened.info.header.height)
  nextFrame s _ := do
    let r ← step (readFrame s.opened s.strip16) s.pending
    return r.map fun (frame, _) => (frame, s.lineSize)
  encode settings := { pieces := [fileBytes settings] }

end Png

end Pixmap
