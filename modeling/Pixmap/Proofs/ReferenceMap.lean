import Pixmap.Proofs.Conversion

/-! Conversion of pixel runs against a reference map on sample values
(`ColorSpec.convertPixels_reference`). -/
namespace Pixmap

namespace ChannelDepth

/-- A sample value carried from depth `a` to depth `b`: kept at the same depth, moved into the
high byte when widened, cut to its high byte when narrowed. -/
def carry : ChannelDepth → ChannelDepth → Nat → Nat
  | .bits8, .bits16, v => v <<< 8
  | .bits16, .bits8, v => v >>> 8
  | _, _, v => v

variable {s : List UInt8}

/-- Re-encoding the bytes of a sample is carrying its value and writing it at the new depth. -/
theorem recode_eq_carry (a b : ChannelDepth) (hs : s.length = a.bytes) :
    a.recode b s = b.sampleBytes (a.carry b (a.sampleValue s)) := by
  cases a <;> cases b
  · simp [recode, carry, sampleBytes_sampleValue hs]
  · -- widening: the value becomes the high byte over a zero low byte
    obtain ⟨v, rfl⟩ := List.length_eq_one_iff.1 hs
    have hv := v.toNat_lt
    simp [recode, carry, sampleBytes, sampleValue, Bytes.le16, Nat.shiftLeft_eq,
      Nat.mul_div_cancel _ (show 0 < 256 by decide), Nat.mod_eq_of_lt hv]
  · -- narrowing: the high byte is what is left after the shift
    obtain ⟨lo, hi, rfl⟩ := List.length_eq_two.1 hs
    have hlo := lo.toNat_lt
    have hhi := hi.toNat_lt
    simp only [recode, carry, sampleBytes, sampleValue, List.getD_cons_zero, List.getD_cons_succ,
      Nat.shiftRight_eq_div_pow]
    rw [show (lo.toNat + 256 * hi.toNat) / 2 ^ 8 = hi.toNat by omega]
    simp
  · simp [recode, carry, sampleBytes_sampleValue hs]

end ChannelDepth

namespace ColorSpec

/-- The values of a pixel's samples, channel by channel. -/
def sampleValues (s : ColorSpec) (px : List UInt8) : List Nat :=
  (Bytes.groups s.depth.bytes px).map s.depth.sampleValue

/-- The reference map on sample values: the first three channels carried in order, then the
alpha value carried when both layouts have alpha and opaque when only the target has it. -/
def referenceValues (s t : ColorSpec) (v : List Nat) : List Nat :=
  (v.take 3).map (s.depth.carry t.depth) ++
    if t.hasAlpha then [if s.hasAlpha then s.depth.carry t.depth (v.getD 3 0) else t.depth.maxValue]
    else []

/-- The reference pixel: the reference values of a pixel written at the target's depth. -/
def referencePixel (s t : ColorSpec) (px : List UInt8) : List UInt8 :=
  (s.referenceValues t (s.sampleValues px)).flatMap t.depth.sampleBytes

variable {s t : ColorSpec} {S : List (List UInt8)}

lemma convertSamples_eq_reference (hS : S.length = s.channels) (hg : ∀ g ∈ S, g.length = s.depth.bytes) :
    convertSamples s t S = (s.referenceValues t (S.map s.depth.sampleValue)).map t.depth.sampleBytes := by
  have hcarry : ∀ g ∈ S, s.depth.recode t.depth g =
      t.depth.sampleBytes (s.depth.carry t.depth (s.depth.sampleValue g)) :=
    fun g hmem => ChannelDepth.recode_eq_carry _ _ (hg g hmem)
  simp only [convertSamples, referenceValues, List.map_append, List.map_take, List.map_map]
  congr 1
  · exact congrArg (List.take 3) (List.map_congr_left hcarry)
  · cases ht : t.hasAlpha
    · rfl
    cases hs : s.hasAlpha
    · simp [ChannelDepth.sampleBytes_maxValue]
    have h4 : 3 < S.length := by
      obtain ⟨f, d⟩ := s
      cases f <;> simp_all [channels, hasAlpha, PixelFormat.channels, PixelFormat.hasAlpha]
    simp only [if_true, List.map_cons, List.map_nil, List.getD_eq_getElem?_getD,
      List.getElem?_map, List.getElem?_eq_getElem h4, Option.map_some, Option.getD_some]
    rw [hcarry _ (List.getElem_mem h4)]

/-- The table converts a pixel by the reference map. -/
theorem convertPixel_eq_referencePixel {px : List UInt8} (hpx : px.length = s.bytesPerPixel) :
    convertPixel s t px = referencePixel s t px := by
  obtain ⟨hlen, hall⟩ := samples_of_pixel hpx
  rw [convertPixel_eq, convertSamples_eq_reference hlen hall, referencePixel, sampleValues,
    List.flatMap_def]

lemma mem_colorLayouts : s ∈ [rgb8, rgb16, rgba8, rgba16] ↔ s.format ≠ .monochromatic := by
  obtain ⟨f, d⟩ := s
  cases f <;> cases d <;> decide

/-- Pixel `i` of a run converted pixel by pixel through the table is the reference map of pixel
`i` of the source. -/
lemma convertBytes_pixel (hst : convertible s t = true) {n : Nat} {src : List UInt8}
    (hsrc : src.length = n * s.bytesPerPixel) {i : Nat} (hi : i < n) :
    ((convertBytes s t src).drop (i * t.bytesPerPixel)).take t.bytesPerPixel =
      referencePixel s t ((src.drop (i * s.bytesPerPixel)).take s.bytesPerPixel) := by
  obtain ⟨hne, hs, ht⟩ := convertible_iff.1 hst
  have hG := Bytes.groups_eq_map_range s.bytesPerPixel_pos n src hsrc
  obtain ⟨hlen, hall⟩ := Bytes.groups_of_length_eq_mul s.bytesPerPixel_pos n src hsrc
  have hi' : i < ((Bytes.groups s.bytesPerPixel src).map (convertPixel s t)).length := by simpa [hlen]
  rw [convertBytes, if_neg hne, List.flatMap_def,
    drop_take_flatten_uniform (uniform_map fun p hp => length_convertPixel hs ht (hall p hp)) hi',
    List.getElem_map, convertPixel_eq_referencePixel (hall _ (List.getElem_mem _))]
  simp [hG]

/-- Converting a run of pixels into a destination. The checks run in order: a source that is not
whole pixels is refused, then a destination with no room for as many target pixels, then, for two
different layouts, a pair outside the table. A refusal returns no destination, so the caller's is
left as it was. The same layout copies the source into the front of the destination. Two different
layouts among RGB8, RGB16, RGBA8 and RGBA16 give the count of pixels and a destination whose pixel
`i` is the reference map of source pixel `i`, the rest of it untouched. -/
theorem convertPixels_reference (s t : ColorSpec) (src dst : ByteArray) :
    let n := src.size / s.bytesPerPixel
    let needed := n * t.bytesPerPixel
    (src.size % s.bytesPerPixel ≠ 0 →
      ∃ msg, convertPixels s t src dst = .error (.invalidInput msg)) ∧
    (src.size % s.bytesPerPixel = 0 → dst.size < needed →
      ∃ msg, convertPixels s t src dst = .error (.invalidInput msg)) ∧
    (src.size % s.bytesPerPixel = 0 → needed ≤ dst.size → s = t →
      convertPixels s t src dst = .ok (n, src ++ dst.extract src.size dst.size)) ∧
    (src.size % s.bytesPerPixel = 0 → needed ≤ dst.size → s ≠ t →
      (s ∉ [rgb8, rgb16, rgba8, rgba16] ∨ t ∉ [rgb8, rgb16, rgba8, rgba16]) →
      convertPixels s t src dst = .error (.unsupportedConversion s t)) ∧
    (src.size % s.bytesPerPixel = 0 → needed ≤ dst.size → s ≠ t →
      s ∈ [rgb8, rgb16, rgba8, rgba16] → t ∈ [rgb8, rgb16, rgba8, rgba16] →
      ∃ out, convertPixels s t src dst = .ok (n, out) ∧ out.size = dst.size ∧
        out.data.toList.drop needed = dst.data.toList.drop needed ∧
        ∀ i < n, (out.data.toList.drop (i * t.bytesPerPixel)).take t.bytesPerPixel =
          referencePixel s t ((src.data.toList.drop (i * s.bytesPerPixel)).take s.bytesPerPixel)) := by
  intro n needed
  have hsrc : src.size % s.bytesPerPixel = 0 → src.data.toList.length = n * s.bytesPerPixel :=
    fun h => by simp [n, Nat.div_mul_cancel (Nat.dvd_of_mod_eq_zero h)]
  refine ⟨fun h => by simp [convertPixels, h], fun h hd => by simp [convertPixels, h, hd, needed, n],
    fun h hd hst => ?_, fun h hd hst hout => ?_, fun h hd hst hs ht => ?_⟩
  · subst hst
    have hn : needed = src.size := by simpa [needed] using (hsrc h).symm
    have hd' : ¬ dst.size < src.size / s.bytesPerPixel * s.bytesPerPixel := Nat.not_lt.2 hd
    simp only [convertPixels]
    rw [if_neg (by simp [h]), if_neg hd', if_pos (by simp [canConvert]), convertBytes_self,
      ByteArray.toByteArray_toList, Nat.div_mul_cancel (Nat.dvd_of_mod_eq_zero h)]
  · have hc : canConvert s t = false := by
      rw [mem_colorLayouts, mem_colorLayouts] at hout
      simp [canConvert, hst, convertible, bne_iff_ne]
      tauto
    simp [convertPixels, h, Nat.not_lt.2 hd, hc, needed, n]
  · have hst' : convertible s t = true :=
      convertible_iff.2 ⟨hst, mem_colorLayouts.1 hs, mem_colorLayouts.1 ht⟩
    have hlen : (convertBytes s t src.data.toList).length = needed :=
      length_convertBytes (canConvert_iff.2 (.inr hst')) (hsrc h)
    refine ⟨(convertBytes s t src.data.toList).toByteArray ++ dst.extract needed dst.size,
      by simp [convertPixels, h, Nat.not_lt.2 hd, canConvert, hst', needed, n], ?_, ?_, ?_⟩
    · simp [← hlen] at hd ⊢
      omega
    · simp only [ByteArray.data_append, Array.toList_append, List.data_toByteArray,
        ByteArray.toList_extract, List.drop_left' hlen]
      exact List.take_of_length_le (by simp)
    · intro i hi
      have hend : i * t.bytesPerPixel + t.bytesPerPixel ≤ needed := slot_end_le hi
      simp only [ByteArray.data_append, Array.toList_append, List.data_toByteArray]
      rw [List.drop_append_of_le_length (by omega), List.take_append_of_le_length (by simp; omega)]
      exact convertBytes_pixel hst' (hsrc h) hi

end ColorSpec

end Pixmap
