import Pixmap.Limits
import Pixmap.Image.Strided
import Pixmap.Proofs.Pixels

/-! The limit checks as a list of checks in order, the answer naming the first that fails
(`Limits.checkImage_exact`). -/
namespace Pixmap

namespace Limits

/-- The dimension checks of a size, in the order they run, each with whether the size passes
it. The pixel count saturates at `wordMax`. -/
def dimensionChecks (l : Limits) (width height : Nat) : List (LimitBreach × Bool) :=
  [(.width, within l.maxWidth width), (.height, within l.maxHeight height),
    (.pixels, within l.maxPixels (min (width * height) wordMax))]

/-- The checks of an image: its dimension checks, then its byte count, saturated at `wordMax`,
against the memory bound. -/
def imageChecks (l : Limits) (width height : Nat) (spec : ColorSpec) : List (LimitBreach × Bool) :=
  l.dimensionChecks width height ++
    [(.memory, within l.maxMemoryBytes (min (width * height * spec.bytesPerPixel) wordMax))]

/-- The first check of a list that fails. -/
def firstFailure (checks : List (LimitBreach × Bool)) : Option LimitBreach :=
  (checks.find? fun c => !c.2).map Prod.fst

/-- The library error for an image that breaks a bound: its sides, its layout and the bound. -/
def exceeded (width height : Nat) (spec : ColorSpec) (b : LimitBreach) : Error :=
  .limitExceeded (toString width ++ "x" ++ toString height ++ " " ++ spec.name ++ ": " ++ b.message)

variable {l : Limits} {w h : Nat} {s : ColorSpec}

theorem firstFailure_append (xs ys : List (LimitBreach × Bool)) :
    firstFailure (xs ++ ys) = (firstFailure xs).or (firstFailure ys) := by
  simp only [firstFailure, List.find?_append, Option.map_or]

/-- The dimension checks run in order and stop at the first that fails. -/
theorem checkDimensions_eq (l : Limits) (w h : Nat) :
    l.checkDimensions w h = (firstFailure (l.dimensionChecks w h)).elim (.ok ()) .error := by
  unfold checkDimensions dimensionChecks firstFailure
  by_cases h1 : within l.maxWidth w <;> by_cases h2 : within l.maxHeight h <;>
    by_cases h3 : within l.maxPixels (min (w * h) wordMax) <;> simp [h1, h2, h3]

/-- The memory check runs only once the dimension checks pass. -/
theorem breach_eq (l : Limits) (w h : Nat) (s : ColorSpec) :
    l.breach w h s = (firstFailure (l.imageChecks w h s)).elim (.ok ()) .error := by
  rw [breach, checkDimensions_eq, imageChecks, firstFailure_append]
  cases firstFailure (l.dimensionChecks w h) with
  | some b => rfl
  | none =>
    by_cases hm : within l.maxMemoryBytes (min (w * h * s.bytesPerPixel) wordMax) <;>
      simp [checkMemory, firstFailure, hm]

theorem checkImage_eq (l : Limits) (w h : Nat) (s : ColorSpec) :
    l.checkImage w h s = (firstFailure (l.imageChecks w h s)).elim (.ok ()) (.error ∘ exceeded w h s) := by
  rw [checkImage, breach_eq]
  cases firstFailure (l.imageChecks w h s) <;> rfl

example : (unbounded.withMaxMemory 400).checkImage 10 10 .rgba16 =
    .error (.limitExceeded "10x10 RGBA16: memory allocation exceeds limit") := by
  decide

/-- The pixel count of 32-bit sides fits a 64-bit word. -/
theorem pixels_le_wordMax (hw : w < Image.sideLimit) (hh : h < Image.sideLimit) : w * h ≤ wordMax := by
  have hprod : w * h ≤ (Image.sideLimit - 1) * (Image.sideLimit - 1) := Nat.mul_le_mul (by omega) (by omega)
  exact hprod.trans (by decide)

theorem within_mono {b : Option Nat} {v v' : Nat} (hv : within b v = true) (hle : v' ≤ v) :
    within b v' = true := by
  cases b with
  | none => rfl
  | some n =>
    simp only [within, decide_eq_true_eq] at hv ⊢
    omega

/-- A size that passes lets every smaller size pass, in any layout with no more bytes per
pixel. -/
theorem checkImage_mono (hl : l.checkImage w h s = .ok ()) {w' h' : Nat} {t : ColorSpec}
    (hw : w' ≤ w) (hh : h' ≤ h) (ht : t.bytesPerPixel ≤ s.bytesPerPixel) :
    l.checkImage w' h' t = .ok () := by
  rw [checkImage_eq_ok_iff, breach_eq_ok_iff] at hl ⊢
  obtain ⟨h1, h2, h3, h4⟩ := hl
  have hpix : w' * h' ≤ w * h := Nat.mul_le_mul hw hh
  have hbytes : w' * h' * t.bytesPerPixel ≤ w * h * s.bytesPerPixel := Nat.mul_le_mul hpix ht
  exact ⟨within_mono h1 hw, within_mono h2 hh, within_mono h3 (min_le_min_right _ hpix),
    within_mono h4 (min_le_min_right _ hbytes)⟩

/-- A memory bound of `wordMax` admits every byte count: only the dimension checks remain. -/
theorem checkImage_withMaxMemory_wordMax (l : Limits) (w h : Nat) (s : ColorSpec) :
    (l.withMaxMemory wordMax).checkImage w h s = .ok () ↔ l.checkDimensions w h = .ok () := by
  have hdim : (l.withMaxMemory wordMax).checkDimensions w h = l.checkDimensions w h := rfl
  rw [checkImage_eq_ok_iff, breach, hdim]
  cases l.checkDimensions w h with
  | error b => simp
  | ok u => simp [checkMemory, withMaxMemory, within]

/-- The limit check of an image with 32-bit sides. It passes exactly when the width, the
height, the exact pixel count and the byte count saturated at `wordMax` are within their
bounds; otherwise it reports the first check that fails, in the order width, height, pixel
count, memory. The dimension check of any sides runs the first three checks the same way, its
pixel count saturated; a memory bound of `wordMax` leaves only the dimension checks; and a
size that passes lets every smaller size pass, in every layout with no more bytes per pixel. -/
theorem checkImage_exact (l : Limits) {w h : Nat} (hw : w < Image.sideLimit) (hh : h < Image.sideLimit)
    (s : ColorSpec) :
    (l.checkImage w h s = .ok () ↔ within l.maxWidth w ∧ within l.maxHeight h ∧
        within l.maxPixels (w * h) ∧ within l.maxMemoryBytes (min (w * h * s.bytesPerPixel) wordMax)) ∧
      l.checkImage w h s = (firstFailure (l.imageChecks w h s)).elim (.ok ()) (.error ∘ exceeded w h s) ∧
      (∀ W H : Nat, l.checkDimensions W H = (firstFailure (l.dimensionChecks W H)).elim (.ok ()) .error) ∧
      ((l.withMaxMemory wordMax).checkImage w h s = .ok () ↔ l.checkDimensions w h = .ok ()) ∧
      (l.checkImage w h s = .ok () → ∀ (w' h' : Nat) (t : ColorSpec), w' ≤ w → h' ≤ h →
        t.bytesPerPixel ≤ s.bytesPerPixel → l.checkImage w' h' t = .ok ()) := by
  have hpix : min (w * h) wordMax = w * h := Nat.min_eq_left (pixels_le_wordMax hw hh)
  refine ⟨?_, checkImage_eq l w h s, checkDimensions_eq l, checkImage_withMaxMemory_wordMax l w h s,
    fun hl w' h' t hw' hh' ht => checkImage_mono hl hw' hh' ht⟩
  rw [checkImage_eq_ok_iff, breach_eq_ok_iff, hpix]

/-- The largest 32-bit sides in the widest layout, with no bounds at all. -/
theorem checkImage_exact_largest :
    4294967295 < Image.sideLimit ∧ 4294967295 < Image.sideLimit ∧
      ((({} : Limits).checkImage 4294967295 4294967295 .rgba16 = .ok () ↔
          within none 4294967295 ∧ within none 4294967295 ∧ within none (4294967295 * 4294967295) ∧
            within none (min (4294967295 * 4294967295 * ColorSpec.rgba16.bytesPerPixel) wordMax)) ∧
        ({} : Limits).checkImage 4294967295 4294967295 .rgba16 =
          (firstFailure (({} : Limits).imageChecks 4294967295 4294967295 .rgba16)).elim (.ok ())
            (.error ∘ exceeded 4294967295 4294967295 .rgba16) ∧
        (∀ W H : Nat, ({} : Limits).checkDimensions W H =
          (firstFailure (({} : Limits).dimensionChecks W H)).elim (.ok ()) .error) ∧
        ((({} : Limits).withMaxMemory wordMax).checkImage 4294967295 4294967295 .rgba16 = .ok () ↔
          ({} : Limits).checkDimensions 4294967295 4294967295 = .ok ()) ∧
        (({} : Limits).checkImage 4294967295 4294967295 .rgba16 = .ok () →
          ∀ (w' h' : Nat) (t : ColorSpec), w' ≤ 4294967295 → h' ≤ 4294967295 →
            t.bytesPerPixel ≤ ColorSpec.rgba16.bytesPerPixel → ({} : Limits).checkImage w' h' t = .ok ())) :=
  ⟨by decide, by decide, checkImage_exact {} (by decide) (by decide) .rgba16⟩

end Limits

end Pixmap
