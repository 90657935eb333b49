import Pixmap.Proofs.DecodedPixels

/-! Repacking the PNG decoder's expanded frame: reads stay inside the frame and each output channel
is its mapped source sample, low byte first (`PngCodec.repack_exact`). -/
namespace Pixmap

namespace Image

variable {w h : Nat} {s : ColorSpec} {b : ByteArray}

/-- A buffer of the layout's size is adopted as the image's buffer. -/
lemma ofBytes_of_size {n : Nat} (hn : s.bufferSize? w h = some n) (hb : b.size = n) :
    ∃ img, ofBytes w h s b = .ok img ∧ img.bytes = b := by
  subst hb
  refine ⟨_, ofBytes_of_bufferSize? hn, ?_⟩
  by_cases h0 : 0 < b.size
  · simp [bytes, h0]
  · -- an empty layout keeps no buffer, and the empty buffer is what it reads back as
    obtain rfl : b = .empty := by simpa using h0
    simp [bytes]

/-- A buffer of any other size is refused as invalid input. -/
lemma ofBytes_of_size_ne (hb : ∀ n, s.bufferSize? w h = some n → b.size ≠ n) :
    ∃ msg, ofBytes w h s b = .error (.invalidInput msg) := by
  unfold ofBytes
  cases hn : s.bufferSize? w h with
  | none => simp [checkedSize, hn]
  | some n => simp [checkedSize_eq_ok.2 hn, hb n hn]

end Image

namespace PngCodec

open Png

/-- Every colour type but a palette has a decoded layout whose channel map names samples of the
expanded pixel, one per channel of the layout. -/
theorem targetLayout_ok {c : ColorType} (hc : c ≠ .indexed) (f : PixelFormat) :
    ∃ F map, targetLayout c f = .ok (F, map) ∧ (∀ k ∈ map, k < c.samples) ∧ map.length = F.channels := by
  cases c <;> cases f <;> simp_all [targetLayout, ColorType.samples, PixelFormat.channels]

variable {depth : ChannelDepth} {samples : Nat} {map : List Nat} {width height lineSize : Nat}
  {frame : ByteArray}

lemma uniform_repacked_row {r : Nat} :
    ∀ l ∈ (List.range width).map (fun p => repackPixel depth map
        ((frame.data.toList.drop (r * lineSize + p * (samples * depth.bytes))).take (samples * depth.bytes))),
      l.length = map.length * depth.bytes :=
  uniform_map fun _ _ => length_repackPixel _ _ _

lemma uniform_repacked_rows (R : Nat) :
    ∀ l ∈ (List.range R).map (fun r => (List.range width).flatMap fun p =>
        repackPixel depth map
        ((frame.data.toList.drop (r * lineSize + p * (samples * depth.bytes))).take (samples * depth.bytes))),
      l.length = width * (map.length * depth.bytes) := by
  refine uniform_map fun r _ => ?_
  rw [List.flatMap_def, length_flatten_uniform _ uniform_repacked_row, List.length_map, List.length_range]

/-- Repacking gives the first `width` pixels of every row the frame holds in full, up to `height`
rows, each of the mapped channels. -/
theorem size_repack (hmap : ∀ c ∈ map, c < samples) :
    (repack depth samples map width height lineSize frame).size =
      min height (frame.size / lineSize) * (width * (map.length * depth.bytes)) := by
  rw [← ByteArray.size_data, ← Array.length_toList, toList_repack hmap, List.flatMap_def,
    length_flatten_uniform _ (uniform_repacked_rows _), List.length_map, List.length_range]

/-- Channel `k` of a repacked pixel is its mapped sample, the big-endian value written low byte
first. -/
theorem repackPixel_channel {q : List UInt8} (hq : ∀ c ∈ map, (c + 1) * depth.bytes ≤ q.length)
    {k : Nat} (hk : k < map.length) :
    ((repackPixel depth map q).drop (k * depth.bytes)).take depth.bytes =
      depth.sampleBytes (Bytes.beValue ((q.drop (map[k] * depth.bytes)).take depth.bytes)) := by
  have hc := hq _ (List.getElem_mem hk)
  unfold repackPixel
  rw [List.flatMap_def, drop_take_flatten_uniform (uniform_map (k := depth.bytes) fun c _ => by
    cases depth <;> rfl) (by simpa using hk), List.getElem_map]
  cases depth with
  | bits8 =>
    simp only [ChannelDepth.bytes, Nat.mul_one] at hc ⊢
    rw [List.getElem?_eq_getElem (by omega), List.take_one, List.head?_drop,
      List.getElem?_eq_getElem (by omega)]
    simp [ChannelDepth.sampleBytes, Bytes.beValue]
  | bits16 =>
    simp only [ChannelDepth.bytes] at hc ⊢
    have h0 : 2 * map[k] < q.length := by omega
    have h1 : 2 * map[k] + 1 < q.length := by omega
    have htwo : (q.drop (2 * map[k])).take 2 = [q[2 * map[k]], q[2 * map[k] + 1]] := by
      apply List.ext_getElem?
      rintro (_ | _ | i)
      · simp [List.getElem?_drop, List.getElem?_eq_getElem h0]
      · simp [List.getElem?_drop, List.getElem?_eq_getElem h1]
      · simp
    have hhi := (q[2 * map[k]]).toNat_lt
    have hlo := (q[2 * map[k] + 1]).toNat_lt
    have e1 : ((q[2 * map[k]]).toNat * 256 + (q[2 * map[k] + 1]).toNat) % 256 = (q[2 * map[k] + 1]).toNat := by
      omega
    have e2 : ((q[2 * map[k]]).toNat * 256 + (q[2 * map[k] + 1]).toNat) / 256 % 256 = (q[2 * map[k]]).toNat := by
      omega
    rw [Nat.mul_comm map[k] 2, htwo, List.getElem?_eq_getElem h1, List.getElem?_eq_getElem h0]
    simp [ChannelDepth.sampleBytes, Bytes.beValue, Bytes.le16, e1, e2]

/-- Pixel `p` of a row of at least `width` pixels ends inside the row. -/
lemma pixel_in_row (hline : width * (samples * depth.bytes) ≤ lineSize) {r p : Nat} (hp : p < width) :
    r * lineSize + p * (samples * depth.bytes) + samples * depth.bytes ≤ (r + 1) * lineSize := by
  have hslot := slot_end_le (k := samples * depth.bytes) hp
  rw [Nat.succ_mul]
  omega

/-- Every sample the repacking reads lies in its pixel's slice at the start of its row, and every
row it visits lies in the frame. -/
theorem repack_reads_inside (hmap : ∀ c ∈ map, c < samples)
    (hline : width * (samples * depth.bytes) ≤ lineSize) {r p c : Nat}
    (hr : r < min height (frame.size / lineSize)) (hp : p < width) (hc : c ∈ map) :
    r * lineSize + p * (samples * depth.bytes) + (c + 1) * depth.bytes ≤ (r + 1) * lineSize ∧
      (r + 1) * lineSize ≤ frame.size := by
  have hsample : (c + 1) * depth.bytes ≤ samples * depth.bytes := Nat.mul_le_mul_right _ (hmap c hc)
  have hpixel := pixel_in_row hline hp (r := r)
  have hrow : r < frame.size / lineSize := Nat.lt_of_lt_of_le hr (Nat.min_le_right _ _)
  have hL : 0 < lineSize := Nat.pos_of_ne_zero fun h => by simp [h] at hrow
  exact ⟨by omega, (Nat.le_div_iff_mul_le hL).1 hrow⟩

/-- Channel `k` of pixel `(x, y)` of the output is sample `map[k]` of source pixel `(x, y)`, its
big-endian value written low byte first. -/
theorem repack_channel (hmap : ∀ c ∈ map, c < samples) (hrows : height * lineSize ≤ frame.size)
    (hline : width * (samples * depth.bytes) ≤ lineSize) {x y k : Nat} (hx : x < width) (hy : y < height)
    (hk : k < map.length) :
    ((repack depth samples map width height lineSize frame).data.toList.drop
        (((y * width + x) * map.length + k) * depth.bytes)).take depth.bytes =
      depth.sampleBytes (Bytes.beValue ((frame.data.toList.drop
        (y * lineSize + x * (samples * depth.bytes) + map[k] * depth.bytes)).take depth.bytes)) := by
  have hsamples : map[k] < samples := hmap _ (List.getElem_mem hk)
  have hpixel : 0 < samples * depth.bytes := Nat.mul_pos (by omega) depth.bytes_pos
  have hL : 0 < lineSize := Nat.lt_of_lt_of_le (Nat.mul_pos (by omega) hpixel) hline
  have hR : min height (frame.size / lineSize) = height :=
    Nat.min_eq_left ((Nat.le_div_iff_mul_le hL).2 hrows)
  have hy' : y < min height (frame.size / lineSize) := by rw [hR]; exact hy
  have hq : ((frame.data.toList.drop (y * lineSize + x * (samples * depth.bytes))).take
      (samples * depth.bytes)).length = samples * depth.bytes := by
    have hin := repack_reads_inside hmap hline hy' hx (List.getElem_mem hk)
    have hend : y * lineSize + x * (samples * depth.bytes) + samples * depth.bytes ≤ frame.size :=
      (pixel_in_row hline hx).trans hin.2
    simp only [List.length_take, List.length_drop, Array.length_toList, ByteArray.size_data]
    omega
  have hchannel : k * depth.bytes + depth.bytes ≤ map.length * depth.bytes := slot_end_le hk
  have hsample : map[k] * depth.bytes + depth.bytes ≤ samples * depth.bytes := slot_end_le hsamples
  have hout : x * (map.length * depth.bytes) + map.length * depth.bytes ≤ width * (map.length * depth.bytes) :=
    slot_end_le hx
  -- output position: row `y`, then pixel `x` of the row, then channel `k` of the pixel
  rw [toList_repack hmap, hR, List.flatMap_def,
    show ((y * width + x) * map.length + k) * depth.bytes =
      y * (width * (map.length * depth.bytes)) + (x * (map.length * depth.bytes) + k * depth.bytes) by ring,
    drop_take_flatten_within (uniform_repacked_rows _) (by simpa using hy) (by omega),
    List.getElem_map, List.getElem_range, List.flatMap_def,
    drop_take_flatten_within uniform_repacked_row (by simpa using hx) hchannel,
    List.getElem_map, List.getElem_range,
    repackPixel_channel (fun c hc => by rw [hq]; exact Nat.mul_le_mul_right _ (hmap c hc)) hk,
    List.drop_take, List.take_take, List.drop_drop,
    Nat.min_eq_left (by omega)]

/-- What repacking a frame into `width` × `height` pixels of format `F` gives: the samples it reads
lie in their pixels, their pixels in their rows and the rows it visits in the frame. With all
`height` rows in the frame, the output has the layout's size, channel `k` of every pixel is its
mapped source sample and the image adopts the output whenever the layout's size fits; with fewer
rows, the image refuses it as invalid input. -/
structure Repacked (depth : ChannelDepth) (samples : Nat) (map : List Nat) (F : PixelFormat)
    (width height lineSize : Nat) (frame out : ByteArray) : Prop where
  reads_inside : ∀ r < min height (frame.size / lineSize), ∀ p < width, ∀ c ∈ map,
    r * lineSize + p * (samples * depth.bytes) + (c + 1) * depth.bytes ≤ (r + 1) * lineSize ∧
      (r + 1) * lineSize ≤ frame.size
  size : height * lineSize ≤ frame.size → out.size = width * height * F.channels * depth.bytes
  channel : height * lineSize ≤ frame.size → ∀ x < width, ∀ y < height, ∀ k (hk : k < map.length),
    (out.data.toList.drop (((y * width + x) * map.length + k) * depth.bytes)).take depth.bytes =
      depth.sampleBytes (Bytes.beValue ((frame.data.toList.drop
        (y * lineSize + x * (samples * depth.bytes) + map[k] * depth.bytes)).take depth.bytes))
  adopted : height * lineSize ≤ frame.size →
    ∀ n, (⟨F, depth⟩ : ColorSpec).bufferSize? width height = some n →
      ∃ img, Image.ofBytes width height ⟨F, depth⟩ out = .ok img ∧ img.bytes = out
  short : frame.size < height * lineSize →
    ∃ msg, Image.ofBytes width height ⟨F, depth⟩ out = .error (.invalidInput msg)

/-- A channel map of samples the pixel has, one per channel of `F`, repacks exactly, given rows of
at least a pixel row each. -/
theorem repacked_of_map {F : PixelFormat} (hw : 0 < width) (hmap : ∀ c ∈ map, c < samples)
    (hlen : map.length = F.channels) (hline : width * (samples * depth.bytes) ≤ lineSize) :
    Repacked depth samples map F width height lineSize frame
      (repack depth samples map width height lineSize frame) := by
  have hsamples : 0 < samples := by
    obtain ⟨c, hc⟩ := List.exists_mem_of_length_pos (hlen ▸ F.channels_pos)
    exact Nat.lt_of_le_of_lt (Nat.zero_le c) (hmap c hc)
  have hL : 0 < lineSize := Nat.lt_of_lt_of_le (Nat.mul_pos hw (Nat.mul_pos hsamples depth.bytes_pos)) hline
  have hrowSize : 0 < width * (map.length * depth.bytes) :=
    Nat.mul_pos hw (Nat.mul_pos (hlen ▸ F.channels_pos) depth.bytes_pos)
  have hsize : height * lineSize ≤ frame.size →
      (repack depth samples map width height lineSize frame).size = width * height * F.channels * depth.bytes := by
    intro hrows
    rw [size_repack hmap, Nat.min_eq_left ((Nat.le_div_iff_mul_le hL).2 hrows), hlen]
    ring
  refine ⟨fun r hr p hp c hc => repack_reads_inside hmap hline hr hp hc, hsize,
    fun hrows x hx y hy k hk => repack_channel hmap hrows hline hx hy hk, fun hrows n hn => ?_,
    fun hshort => ?_⟩
  · refine Image.ofBytes_of_size hn ?_
    rw [hsize hrows, (ColorSpec.bufferSize?_eq_some_iff.1 hn).1, ColorSpec.bytesPerPixel]
    ring
  · -- fewer whole rows than the image has, each of a positive number of bytes
    have hfew : min height (frame.size / lineSize) < height :=
      Nat.lt_of_le_of_lt (Nat.min_le_right _ _) ((Nat.div_lt_iff_lt_mul hL).2 hshort)
    refine Image.ofBytes_of_size_ne fun n hn => ?_
    rw [size_repack hmap, (ColorSpec.bufferSize?_eq_some_iff.1 hn).1, ColorSpec.bytesPerPixel]
    simp only [← hlen]
    refine Nat.ne_of_lt ?_
    calc min height (frame.size / lineSize) * (width * (map.length * depth.bytes))
        < height * (width * (map.length * depth.bytes)) := Nat.mul_lt_mul_of_pos_right hfew hrowSize
      _ = width * (map.length * depth.bytes) * height := Nat.mul_comm _ _

/-- Repacking the decoder's expanded frame is exact for every colour type but a palette, every
depth, every requested format and every frame: the decoded layout's channel map names samples the
pixel has, one per channel of the layout, and the frame repacks as `Repacked` says, given rows of
at least a pixel row each. -/
theorem repack_exact {c : ColorType} (hc : c ≠ .indexed) (depth : ChannelDepth) (T : ColorSpec)
    {width height lineSize : Nat} (hw : 0 < width) (hline : width * (c.samples * depth.bytes) ≤ lineSize)
    (frame : ByteArray) :
    ∃ F map, targetLayout c T.format = .ok (F, map) ∧ (∀ k ∈ map, k < c.samples) ∧
      map.length = F.channels ∧
      Repacked depth c.samples map F width height lineSize frame
        (repack depth c.samples map width height lineSize frame) := by
  obtain ⟨F, map, hT, hmap, hlen⟩ := targetLayout_ok hc T.format
  exact ⟨F, map, hT, hmap, hlen, repacked_of_map hw hmap hlen hline⟩

theorem repack_exact_rgb16 :
    ColorType.rgb ≠ .indexed ∧ 0 < 1 ∧ 1 * (ColorType.rgb.samples * ChannelDepth.bits16.bytes) ≤ 6 ∧
      ∃ F map, targetLayout .rgb ColorSpec.rgba8.format = .ok (F, map) ∧
        (∀ k ∈ map, k < ColorType.rgb.samples) ∧ map.length = F.channels ∧
        Repacked .bits16 ColorType.rgb.samples map F 1 1 6 ⟨#[1, 2, 3, 4, 5, 6]⟩
          (repack .bits16 ColorType.rgb.samples map 1 1 6 ⟨#[1, 2, 3, 4, 5, 6]⟩) :=
  ⟨by decide, by decide, by decide,
    repack_exact (by decide) .bits16 .rgba8 (by decide) (by decide) ⟨#[1, 2, 3, 4, 5, 6]⟩⟩

end PngCodec

end Pixmap
