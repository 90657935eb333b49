/-! The Adler-32 checksum that closes a zlib stream: two sums modulo 65521. -/
namespace Pixmap

namespace Adler32

def modulus : Nat := 65521

/-- The checksum of a byte string, high sum in the upper half. -/
def of (bytes : ByteArray) : Nat :=
  let (a, b) := bytes.foldl (fun (a, b) x =>
    let a := (a + x.toNat) % modulus
    (a, (b + a) % modulus)) (1, 0)
  b * 65536 + a

end Adler32

end Pixmap
