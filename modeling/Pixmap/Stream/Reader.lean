import Pixmap.Error
import Pixmap.Log
import Pixmap.Bytes

/-! Readers: one over bytes in memory with a clamped cursor, and one over a seekable stream that
latches at its end or at a failure; cursors move in saturating 64-bit words. -/
namespace Pixmap

/-- A computation on a reader of type `ρ` that may fail with an input/output error; the
reader's state survives a failure. -/
abbrev ReadM (ρ : Type) := ExceptT IoError (StateT ρ Logged)

/-- The interface of readers. `read n` returns at most `n` bytes, and no bytes only at the end
of the source or while a failure is remembered. -/
class ByteReader (ρ : Type) where
  read : Nat → ReadM ρ ByteArray
  tell : ρ → Nat
  seek : Int → ReadM ρ Nat
  clearErrors : ρ → ρ

/-- A cursor moved by a signed offset, saturating at zero and at `wordMax`. -/
def moveCursor (pos : Nat) (offset : Int) : Nat :=
  min ((pos + offset).toNat) wordMax

/-- A reader over bytes in memory. -/
structure MemoryReader where
  data : ByteArray
  pos : Nat := 0
  deriving Inhabited

namespace MemoryReader

def remaining (r : MemoryReader) : Nat := r.data.size - r.pos

/-- Takes at most `n` bytes at the cursor. -/
def take (r : MemoryReader) (n : Nat) : ByteArray × MemoryReader :=
  let k := min n r.remaining
  (r.data.extract r.pos (r.pos + k), { r with pos := r.pos + k })

/-- Moves the cursor, clamped to the bytes. -/
def moveBy (r : MemoryReader) (offset : Int) : MemoryReader :=
  { r with pos := min (moveCursor r.pos offset) r.data.size }

instance : ByteReader MemoryReader where
  read n := do
    let r ← get
    let (bytes, r') := r.take n
    set r'
    return bytes
  tell r := r.pos
  seek offset := do
    modify fun r => r.moveBy offset
    return (← get).pos
  clearErrors r := r

theorem pos_le_size_moveBy (r : MemoryReader) (o : Int) : (r.moveBy o).pos ≤ r.data.size :=
  Nat.min_le_right _ _

theorem take_pos (r : MemoryReader) (n : Nat) :
    (r.take n).2.pos = r.pos + min n (r.data.size - r.pos) := rfl

theorem take_bytes (r : MemoryReader) (n : Nat) :
    (r.take n).1 = r.data.extract r.pos (r.pos + min n r.remaining) := rfl

end MemoryReader

/-- A seekable byte stream: bytes with a cursor that may stand past their end. A stream can be
made to fail every read attempted at or after a position (and never to read across it), and
to interrupt once the first read attempted at a given position. -/
structure Cursor where
  data : ByteArray
  position : Nat := 0
  failFrom : Option Nat := none
  interruptAt : Option Nat := none
  deriving Inhabited

namespace Cursor

/-- One read of at most `n` bytes. -/
def read (c : Cursor) (n : Nat) : Except IoError ByteArray × Cursor :=
  if c.interruptAt = some c.position then
    (.error (.ofKind .interrupted), { c with interruptAt := none })
  else
    match c.failFrom with
    | some f =>
      if c.position ≥ f then (.error ⟨.other, "unplugged"⟩, c)
      else
        let k := min (min n (c.data.size - c.position)) (f - c.position)
        (.ok (c.data.extract c.position (c.position + k)), { c with position := c.position + k })
    | none =>
      let k := min n (c.data.size - c.position)
      (.ok (c.data.extract c.position (c.position + k)), { c with position := c.position + k })

end Cursor

/-- A reader over a stream, with its own cursor and a latch that stops reading after the end of
the stream or a failure. -/
structure StreamReader where
  inner : Cursor
  pos : Nat
  latched : Bool := false
  deriving Inhabited

namespace StreamReader

/-- A reader starting at the stream's position. -/
def ofCursor (c : Cursor) : StreamReader := ⟨c, c.position, false⟩

/-- Fills up to `need` more bytes after `filled` bytes of this call: retries an interrupted
read, latches at the end of the stream or at a failure, and returns a failure only when the
call has read nothing. `fuel` bounds the number of reads of the stream. -/
def fill (need : Nat) (acc : ByteArray) : (fuel : Nat) → ReadM StreamReader ByteArray
  | 0 => return acc
  | fuel + 1 => do
    if acc.size ≥ need then return acc
    let r ← get
    let (result, c) := r.inner.read (need - acc.size)
    set { r with inner := c }
    match result with
    | .ok bytes =>
      if bytes.isEmpty then
        emit .trace .io ("end of stream at offset " ++ toString (r.pos + acc.size))
        modify fun r => { r with latched := true }
        return acc
      else fill need (acc ++ bytes) fuel
    | .error e =>
      if e.kind = .interrupted then fill need acc fuel
      else
        emit .warn .io ("stream read failed at offset " ++ toString (r.pos + acc.size) ++ ": " ++
          e.message)
        modify fun r => { r with latched := true }
        if acc.isEmpty then throw e else return acc

/-- The text of a signed offset, with its sign always written. -/
def signed (offset : Int) : String :=
  if offset ≥ 0 then "+" ++ toString offset else toString offset

instance : ByteReader StreamReader where
  read n := do
    if (← get).latched then return ByteArray.empty
    let bytes ← StreamReader.fill n ByteArray.empty (n + 2)
    modify fun r => { r with pos := r.pos + bytes.size }
    return bytes
  tell r := r.pos
  seek offset := do
    let r ← get
    let target := moveCursor r.pos offset
    emit .trace .io ("stream seek " ++ StreamReader.signed offset ++ " -> " ++ toString target)
    set { r with pos := target, inner := { r.inner with position := target } }
    return target
  clearErrors r := { r with latched := false }

end StreamReader

/-- Runs a reader computation on a reader value, returning result, reader and records. -/
def ReadM.runOn {ρ α : Type} (m : ReadM ρ α) (r : ρ) (journal : Array Record) :
    (Except IoError α × ρ) × Array Record :=
  ((m.run).run r).run journal

end Pixmap
