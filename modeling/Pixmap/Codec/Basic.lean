import Pixmap.Image.Basic
import Pixmap.Stream.Reader
import Pixmap.Stream.Writer

/-! The monad codecs run in, over a reader or a writer, with a journal of records and library
errors; and the two loops every codec shares, filling a buffer and writing one out. -/
namespace Pixmap

/-- A codec computation over a stream state `σ`: it may fail and it records log lines. -/
abbrev CodecM (σ : Type) := ExceptT Error (StateT σ Logged)

namespace CodecM

variable {σ α : Type}

/-- A stream step, its failure as an I/O error. -/
def ofRead (m : ReadM σ α) : CodecM σ α := ExceptT.adapt Error.io m

/-- A pure result. -/
def ofExcept (r : Except Error α) : CodecM σ α :=
  match r with
  | .ok a => pure a
  | .error e => throw e

/-- Runs a codec computation on a stream state, returning result, state and log lines. -/
def runOn (m : CodecM σ α) (s : σ) (journal : Array Record) : (Except Error α × σ) × Array Record :=
  ((m.run).run s).run journal

end CodecM

/-- The text `WxH` of two sides. -/
def sides (width height : Nat) : String := toString width ++ "x" ++ toString height

/-- Reads exactly `n` bytes; a source that ends first is invalid input naming how many bytes
arrived. -/
def readFull {ρ : Type} [ByteReader ρ] (n : Nat) : CodecM ρ ByteArray :=
  go ByteArray.empty (n + 1)
where
  go (acc : ByteArray) : (fuel : Nat) → CodecM ρ ByteArray
    | 0 => return acc
    | fuel + 1 => do
      if acc.size ≥ n then return acc
      let bytes ← CodecM.ofRead (ByteReader.read (n - acc.size))
      if bytes.isEmpty then
        throw (.invalidInput ("truncated input: expected " ++ toString n ++ " bytes, got " ++
          toString acc.size))
      go (acc ++ bytes) fuel

/-- Writes all of `bytes`; a sink that takes nothing fails with `failure`, one whose write fails
with that failure as an I/O error. -/
def writeOut {ω : Type} [FallibleWriter ω] (failure : IoError) (bytes : ByteArray) : CodecM ω Unit := do
  let (result, w) := writeAll (← get) bytes failure
  set w
  match result with
  | .ok () => return ()
  | .error e => throw (.io e)

/-- Flushes the writer; its failure is an I/O error. -/
def flushOut {ω : Type} [FallibleWriter ω] : CodecM ω Unit := do
  let (result, w) := FallibleWriter.flush (← get)
  set w
  match result with
  | .ok () => return ()
  | .error e => throw (.io e)

/-- Writes all of `bytes`; a sink that takes nothing fails with a bare write-zero error. -/
def writeFull {ω : Type} [FallibleWriter ω] (bytes : ByteArray) : CodecM ω Unit :=
  writeOut (.ofKind .writeZero) bytes

/-- The image in the requested layout, converted (and recorded) only when it differs. -/
def intoSpec {σ : Type} (img : Image) (spec : ColorSpec) : CodecM σ Image := do
  if img.spec = spec then return img
  CodecM.ofExcept (← img.convertLogged spec)

end Pixmap
