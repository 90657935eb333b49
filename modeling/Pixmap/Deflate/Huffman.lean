import Pixmap.Deflate.Bits

/-! Canonical prefix codes as DEFLATE defines them, given by a length per symbol and read one bit
at a time; a usable code fills the code space exactly. -/
namespace Pixmap

namespace Deflate

/-- The longest code length. -/
def maxCodeLength : Nat := 15

/-- A canonical code: how many symbols have each length, and the symbols in code order. -/
structure Code where
  counts : Array Nat
  symbols : Array Nat
  deriving Inhabited

namespace Code

/-- The code whose symbol `s` has length `lengths[s]`; length zero means unused. -/
def ofLengths (lengths : Array Nat) : Code :=
  let counts := lengths.foldl (fun acc l => if l ≤ maxCodeLength then acc.modify l (· + 1) else acc)
    (Array.replicate (maxCodeLength + 1) 0)
  let symbols := (List.range maxCodeLength).foldl (fun acc k =>
    (List.range lengths.size).foldl (fun acc s => if lengths[s]?.getD 0 = k + 1 then acc.push s else acc)
      acc) #[]
  ⟨counts, symbols⟩

/-- Whether the used lengths fill the code space exactly, measured at the longest used length
(at least one): the sum of `2 ^ (longest - l)` over used lengths `l` is `2 ^ longest`. -/
def fillsSpace (lengths : Array Nat) : Bool :=
  let longest := max 1 (lengths.foldl max 0)
  let used := lengths.foldl (fun acc l =>
    if 0 < l ∧ l ≤ longest then acc + (1 <<< (longest - l)) else acc) 0
  used == 1 <<< longest

/-- Whether the lengths give a single code of one bit. -/
def isSingleBit (lengths : Array Nat) : Bool :=
  lengths.foldl max 0 == 1 && (lengths.filter (· == 1)).size == 1

/-- The outcome of reading one symbol. -/
inductive Read where
  /-- A symbol and the bit position after its code. -/
  | symbol (s : Nat) (next : Nat)
  /-- The bits match no code of the table. -/
  | invalid
  /-- The string ends inside the code. -/
  | needMore
  deriving Repr

/-- Reads one symbol at bit `pos`: after each further bit, the code read so far is compared
with the range of codes of that length. -/
def decode (c : Code) (src : ByteArray) (pos : Nat) : Read :=
  go 1 0 0 0
where
  go (len code first index : Nat) : Read :=
    if _h : len > maxCodeLength then .invalid
    else
      match bitAt? src (pos + len - 1) with
      | none => .needMore
      | some b =>
        let code := code + (if b then 1 else 0)
        let count := c.counts[len]?.getD 0
        if code < first + count then .symbol (c.symbols[index + (code - first)]?.getD 0) (pos + len)
        else go (len + 1) (2 * code) (2 * (first + count)) (index + count)
  termination_by maxCodeLength + 1 - len

/-- Reads one symbol at bit `pos` the way a table-driven decoder looks it up near the end of
its input: bits past the end read as zero. The symbol and the length of its code, or `none`
when the bits match no code. -/
def decodePadded (c : Code) (src : ByteArray) (pos : Nat) : Option (Nat × Nat) :=
  go 1 0 0 0
where
  go (len code first index : Nat) : Option (Nat × Nat) :=
    if _h : len > maxCodeLength then none
    else
      let b := (bitAt? src (pos + len - 1)).getD false
      let code := code + (if b then 1 else 0)
      let count := c.counts[len]?.getD 0
      if code < first + count then some (c.symbols[index + (code - first)]?.getD 0, len)
      else go (len + 1) (2 * code) (2 * (first + count)) (index + count)
  termination_by maxCodeLength + 1 - len

end Code

end Deflate

end Pixmap
