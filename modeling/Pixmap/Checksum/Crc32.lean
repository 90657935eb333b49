/-! The CRC-32 of PNG chunks: the reflected polynomial `0xEDB88320`, started at all ones and
inverted at the end. -/
namespace Pixmap

namespace Crc32

/-- One bit of the reflected division. -/
def stepBit (c : UInt32) : UInt32 :=
  if c &&& 1 = 1 then (0xEDB88320 : UInt32) ^^^ (c >>> 1) else c >>> 1

/-- The register after eight steps from a byte value. -/
def entry (n : Nat) : UInt32 := (List.range 8).foldl (fun c _ => stepBit c) n.toUInt32

def table : Array UInt32 := (Array.range 256).map entry

/-- Feeds bytes into a running register. -/
def update (c : UInt32) (bytes : ByteArray) : UInt32 :=
  bytes.foldl (fun c b => (table[((c ^^^ b.toUInt32) &&& 0xFF).toNat]?.getD 0) ^^^ (c >>> 8)) c

/-- The checksum of a byte string. -/
def of (bytes : ByteArray) : UInt32 := update 0xFFFFFFFF bytes ^^^ 0xFFFFFFFF

end Crc32

end Pixmap
