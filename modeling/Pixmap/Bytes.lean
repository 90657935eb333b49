/-! Byte helpers: splitting a byte list into groups of a fixed size, which concatenate back
(`flatten_groups`), and big-endian words. -/
namespace Pixmap

/-- The words of 64 bits: arithmetic that saturates stops at `wordMax`. -/
def wordMax : Nat := (1 <<< 64) - 1

namespace Bytes

/-- Splits a list into consecutive groups of `n` elements; the last group may be shorter.
A group size of zero gives no groups. -/
def groups {α : Type} (n : Nat) (xs : List α) : List (List α) :=
  if n = 0 then [] else
  match xs with
  | [] => []
  | x :: rest => (x :: rest).take n :: groups n ((x :: rest).drop n)
termination_by xs.length
decreasing_by simp only [List.length_drop, List.length_cons]; omega

theorem groups_nil {α : Type} (n : Nat) : groups n ([] : List α) = [] := by
  unfold groups; split <;> rfl

theorem groups_of_pos {α : Type} {n : Nat} (hn : 0 < n) {xs : List α} (hx : xs ≠ []) :
    groups n xs = xs.take n :: groups n (xs.drop n) := by
  cases xs with
  | nil => exact absurd rfl hx
  | cons x rest =>
    rw [groups]
    simp [Nat.ne_of_gt hn]

theorem flatten_groups {α : Type} {n : Nat} (hn : 0 < n) (xs : List α) :
    (groups n xs).flatten = xs := by
  induction h : xs.length using Nat.strongRecOn generalizing xs with
  | ind m ih =>
    cases xs with
    | nil => simp [groups_nil]
    | cons x rest =>
      rw [groups_of_pos hn (List.cons_ne_nil x rest), List.flatten_cons,
        ih _ (by simp only [List.length_drop, List.length_cons, ← h]; omega) _ rfl,
        List.take_append_drop]

/-- The big-endian value of a list of bytes. -/
def beValue (bs : List UInt8) : Nat := bs.foldl (fun acc b => acc * 256 + b.toNat) 0

/-- The four big-endian bytes of a 32-bit value. -/
def be32 (v : Nat) : List UInt8 :=
  [((v >>> 24) % 256).toUInt8, ((v >>> 16) % 256).toUInt8, ((v >>> 8) % 256).toUInt8,
    (v % 256).toUInt8]

/-- The two bytes of a 16-bit value, low byte first. -/
def le16 (v : Nat) : List UInt8 := [(v % 256).toUInt8, (v / 256 % 256).toUInt8]

/-- A byte array built from an array has that array's length. -/
@[simp] theorem size_mk (xs : Array UInt8) : (ByteArray.mk xs).size = xs.size := rfl

end Bytes

end Pixmap
