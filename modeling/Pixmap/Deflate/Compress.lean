import Pixmap.Bytes
import Pixmap.Checksum.Adler32

/-! A zlib stream that stores its data in blocks without compression: a two-byte header,
stored blocks of at most 65535 bytes each (an empty input takes one empty block), and the
Adler-32 checksum of the data, high byte first. Any inflater accepts it. -/
namespace Pixmap

namespace Deflate

/-- The most bytes one stored block holds. -/
def storedLimit : Nat := 65535

/-- The zlib header: deflate with a 32 KiB window, no dictionary, check bits set. -/
def zlibHeader : ByteArray := ⟨#[0x78, 0x01]⟩

/-- One stored block: its header byte (final or not), the length and its complement, low byte
first, and the data. -/
def storedBlock (final : Bool) (piece : ByteArray) : ByteArray :=
  ⟨#[if final then 1 else 0]⟩ ++ ⟨(Bytes.le16 piece.size).toArray⟩ ++
    ⟨(Bytes.le16 (storedLimit - piece.size)).toArray⟩ ++ piece

/-- Appends to `acc` the stored blocks holding the bytes from `pos` on. -/
def storedBlocks (data : ByteArray) (pos : Nat) (acc : ByteArray) : ByteArray :=
  if _h : data.size ≤ pos + storedLimit then acc ++ storedBlock true (data.extract pos data.size)
  else storedBlocks data (pos + storedLimit) (acc ++ storedBlock false (data.extract pos (pos + storedLimit)))
termination_by data.size - pos
decreasing_by unfold storedLimit at _h ⊢; omega

/-- A zlib stream of the data in stored blocks. -/
def zlibStored (data : ByteArray) : ByteArray :=
  storedBlocks data 0 zlibHeader ++ ⟨(Bytes.be32 (Adler32.of data)).toArray⟩

theorem storedBlock_size (final : Bool) (piece : ByteArray) :
    (storedBlock final piece).size = piece.size + 5 := by
  simp [storedBlock, ByteArray.size_append, Bytes.le16]
  omega

end Deflate

end Pixmap
