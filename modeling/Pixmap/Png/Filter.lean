import Pixmap.Png.Header

/-! Row filters: each byte is a difference from a prediction of its left, upper and upper-left
neighbours, and removing the filter adds the prediction back. -/
namespace Pixmap

namespace Png

/-- The Paeth predictor: of `a`, `b` and `c`, the one closest to `a + b - c`, ties broken in
that order. -/
def paeth (a b c : Nat) : Nat :=
  let p : Int := a + b - c
  let pa := (p - a).natAbs
  let pb := (p - b).natAbs
  let pc := (p - c).natAbs
  if pa ≤ pb ∧ pa ≤ pc then a else if pb ≤ pc then b else c

/-- The prediction a filter type makes from `a`, `b` and `c`. -/
def predict (filter a b c : Nat) : Nat :=
  match filter with
  | 1 => a
  | 2 => b
  | 3 => (a + b) / 2
  | 4 => paeth a b c
  | _ => 0

/-- Removes the filter of one row, given the row above (empty for the first row of a pass)
and the byte distance of a pixel. Filter types above 4 are refused. -/
def unfilter (filter stride : Nat) (prev cur : ByteArray) : Except Problem ByteArray :=
  if filter > 4 then .error (.unknownFilterMethod filter)
  else .ok <| (List.range cur.size).foldl (fun out i =>
    let a := if i ≥ stride then (out[i - stride]?.getD 0).toNat else 0
    let b := (prev[i]?.getD 0).toNat
    let c := if i ≥ stride then (prev[i - stride]?.getD 0).toNat else 0
    out.push ((cur[i]?.getD 0) + (predict filter a b c).toUInt8)) ByteArray.empty

end Png

end Pixmap
