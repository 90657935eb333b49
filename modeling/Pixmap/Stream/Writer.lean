import Pixmap.Error

/-! Writers: a fixed buffer takes what fits, growable buffers and streams take everything; the
loop that writes a buffer out takes any writer, one lemma per way a round can go. -/
namespace Pixmap

/-- The interface of writers; `write` returns how many bytes it took, at most all. -/
class ByteWriter (ω : Type) where
  write : ω → ByteArray → Nat × ω

/-- A writer into a buffer of fixed capacity. -/
structure MemoryWriter where
  buf : ByteArray
  pos : Nat := 0
  deriving Inhabited

namespace MemoryWriter

def remaining (w : MemoryWriter) : Nat := w.buf.size - w.pos

/-- The bytes written so far. -/
def written (w : MemoryWriter) : ByteArray := w.buf.extract 0 w.pos

/-- Takes the part of `bytes` that fits after the cursor. -/
def put (w : MemoryWriter) (bytes : ByteArray) : Nat × MemoryWriter :=
  let n := min bytes.size w.remaining
  (n, { w with
    buf := w.buf.extract 0 w.pos ++ bytes.extract 0 n ++ w.buf.extract (w.pos + n) w.buf.size
    pos := w.pos + n })

instance : ByteWriter MemoryWriter := ⟨put⟩

end MemoryWriter

/-- A growable buffer that takes every byte. -/
structure GrowingWriter where
  bytes : ByteArray := ByteArray.empty
  deriving Inhabited

instance : ByteWriter GrowingWriter := ⟨fun w b => (b.size, ⟨w.bytes ++ b⟩)⟩

/-- A writer over a stream: each write goes to the stream whole and reports its full length.
The stream is a growing buffer, which takes every byte. -/
structure StreamWriter where
  stream : GrowingWriter
  deriving Inhabited

instance : ByteWriter StreamWriter := ⟨fun w b => (b.size, ⟨(ByteWriter.write w.stream b).2⟩)⟩

/-- The interface of writers whose writes may fail: a write takes some of the bytes and says
how many, at most all, or fails with an I/O error; the writer's state survives a failure. -/
class FallibleWriter (ω : Type) where
  tryWrite : ω → ByteArray → Except IoError Nat × ω
  /-- Flushes what the writer holds back; one that holds nothing back succeeds at once. -/
  flush : ω → Except IoError Unit × ω := fun w => (.ok (), w)

/-- A writer that never fails. -/
instance {ω : Type} [ByteWriter ω] : FallibleWriter ω where
  tryWrite w bytes :=
    let (n, w') := ByteWriter.write w bytes
    (.ok n, w')

/-- Writes all of `bytes`, handing the writer what is left each time: fails with `failure` when
the writer takes nothing, and with the writer's own failure when a write fails. -/
def writeAll {ω : Type} [FallibleWriter ω] (w : ω) (bytes : ByteArray) (failure : IoError) :
    Except IoError Unit × ω :=
  go w bytes
where
  go (w : ω) (rest : ByteArray) : Except IoError Unit × ω :=
    if _h : rest.size = 0 then (.ok (), w)
    else
      match FallibleWriter.tryWrite w rest with
      | (.error e, w') => (.error e, w')
      | (.ok n, w') =>
        if _hn : n = 0 then (.error failure, w')
        else go w' (rest.extract n rest.size)
  termination_by rest.size
  decreasing_by simp only [ByteArray.size_extract]; omega

section WriteSteps
variable {ω : Type} [FallibleWriter ω] {failure e : IoError} {w w' : ω} {rest : ByteArray}

/-- Nothing left to write: the loop is done. -/
theorem writeAll_go_done (h : rest.size = 0) : writeAll.go failure w rest = (.ok (), w) := by
  rw [writeAll.go, dif_pos h]

/-- A write that takes some of what is left: the loop goes on with the rest. -/
theorem writeAll_go_took {c : Nat} (h : 0 < rest.size)
    (hw : FallibleWriter.tryWrite w rest = (.ok c, w')) (hc : 0 < c) :
    writeAll.go failure w rest = writeAll.go failure w' (rest.extract c rest.size) := by
  rw [writeAll.go, dif_neg (by omega)]
  simp only [hw]
  rw [dif_neg (by omega)]

/-- A write that takes nothing of what is left: the loop fails with `failure`. -/
theorem writeAll_go_took_nothing (h : 0 < rest.size) (hw : FallibleWriter.tryWrite w rest = (.ok 0, w')) :
    writeAll.go failure w rest = (.error failure, w') := by
  rw [writeAll.go, dif_neg (by omega)]
  simp only [hw]
  rfl

/-- A write that fails: the loop fails with the writer's failure. -/
theorem writeAll_go_failed (h : 0 < rest.size) (hw : FallibleWriter.tryWrite w rest = (.error e, w')) :
    writeAll.go failure w rest = (.error e, w') := by
  rw [writeAll.go, dif_neg (by omega)]
  simp only [hw]

end WriteSteps

end Pixmap
