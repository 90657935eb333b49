import Pixmap.Stream.Reader

/-! Stream operations on top of a reader: reading to the end in growing steps, reading an exact
count, and seeking from the start, the cursor or the end. -/
namespace Pixmap

/-- Whence a seek counts. -/
inductive SeekFrom where
  | start (target : Nat)
  | current (offset : Int)
  | fromEnd (offset : Int)
  deriving DecidableEq, Repr

/-- The largest signed 64-bit offset. -/
def maxOffset : Nat := (1 <<< 63) - 1

namespace ByteReader

variable {ρ : Type} [ByteReader ρ]

/-- The growing reads after the probe: `len` bytes held in a buffer of capacity `cap`, reads
bounded by `limit`. -/
def readRest (acc : ByteArray) (cap limit : Nat) : (fuel : Nat) → ReadM ρ ByteArray
  | 0 => return acc
  | fuel + 1 => do
    let cap := if acc.size = cap then max (2 * cap) (cap + 32) else cap
    let want := min (cap - acc.size) limit
    let bytes ← ByteReader.read want
    if bytes.isEmpty then return acc
    let limit := if want ≥ limit ∧ bytes.size = want then 2 * limit else limit
    readRest (acc ++ bytes) cap limit fuel

/-- Everything up to the end of the source. -/
def readToEnd : ReadM ρ ByteArray := do
  let probe ← ByteReader.read 32
  if probe.isEmpty then return probe
  readRest probe (max probe.size 8) 8192 128

/-- Exactly `n` bytes, or the failure of a source that ends first. -/
def readExact (n : Nat) : ReadM ρ ByteArray :=
  go ByteArray.empty (n + 1)
where
  go (acc : ByteArray) : (fuel : Nat) → ReadM ρ ByteArray
    | 0 => throw IoError.readExactShort
    | fuel + 1 => do
      if acc.size ≥ n then return acc
      let bytes ← ByteReader.read (n - acc.size)
      if bytes.isEmpty then throw IoError.readExactShort
      go (acc ++ bytes) fuel

/-- Seeks as a general stream: from the start by the signed distance to the target, which must
fit a signed 64-bit word; from the cursor directly; never from the end. -/
def seekFrom (whence : SeekFrom) : ReadM ρ Nat := do
  match whence with
  | .current offset => ByteReader.seek offset
  | .fromEnd _ => throw ⟨.unsupported, "DataReader cannot seek from end"⟩
  | .start target =>
    let here := ByteReader.tell (← get)
    if target ≥ here then
      if target - here > maxOffset then throw ⟨.invalidInput, "seek offset out of range"⟩
      ByteReader.seek (target - here : Nat)
    else
      if here - target > maxOffset then throw ⟨.invalidInput, "seek offset out of range"⟩
      ByteReader.seek (-((here - target : Nat) : Int))

/-- The cursor, as a seek by zero reports it. -/
def streamPosition : ReadM ρ Nat := seekFrom (.current 0)

end ByteReader

end Pixmap
