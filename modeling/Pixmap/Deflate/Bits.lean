/-! Bits of a byte string in DEFLATE order: bit `i` is bit `i % 8` of byte `i / 8`. -/
namespace Pixmap

namespace Deflate

/-- Bit `i` of the string, or `none` past its end. -/
def bitAt? (src : ByteArray) (i : Nat) : Option Bool :=
  if h : i / 8 < src.size then some ((src[i / 8].toNat >>> (i % 8)) % 2 = 1) else none

/-- The `n` bits from `pos` on as a number, the first bit least significant; `none` when the
string ends before. -/
def bitsAt? (src : ByteArray) (pos n : Nat) : Option Nat :=
  if pos + n ≤ 8 * src.size then
    some ((List.range n).foldr (fun k acc =>
      acc * 2 + (if (src[(pos + k) / 8]?.getD 0).toNat >>> ((pos + k) % 8) % 2 = 1 then 1 else 0)) 0)
  else none

/-- The `n` bits from `pos` on as a number, bits past the end of the string read as zero. -/
def bitsPadded (src : ByteArray) (pos n : Nat) : Nat :=
  (List.range n).foldr (fun k acc =>
    acc * 2 + (if (src[(pos + k) / 8]?.getD 0).toNat >>> ((pos + k) % 8) % 2 = 1 then 1 else 0)) 0

/-- Bits left in the string from `pos` on. -/
def bitsLeft (src : ByteArray) (pos : Nat) : Nat := 8 * src.size - pos

/-- The first byte boundary at or after `pos`. -/
def alignUp (pos : Nat) : Nat := (pos + 7) / 8 * 8

end Deflate

end Pixmap
