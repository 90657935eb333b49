import Pixmap.Proofs.Shape

/-! Cropping: the rectangle is clamped to the image and its rows are copied from the source
(`crop_exact`); a crop of a crop is one crop (`crops_compose`). -/
namespace Pixmap

namespace Bytes

variable {α : Type} {w h x y cw ch : Nat} {P : List α}

/-- The rows of a rectangle inside the grid, each of `cw` entries. -/
lemma uniform_window_rows (hP : P.length = w * h) (hx : x + cw ≤ w) (hy : y + ch ≤ h) :
    ∀ r ∈ (List.range ch).map (fun i => (P.drop ((y + i) * w + x)).take cw), r.length = cw :=
  uniform_map fun _ hi => length_window_row hP hx hy (List.mem_range.1 hi)

/-- A run of at most `cw` entries of row `i` of a rectangle is the run at the same place of the
grid. -/
lemma window_drop_take (hP : P.length = w * h) (hx : x + cw ≤ w) (hy : y + ch ≤ h) {i x' cw' : Nat}
    (hi : i < ch) (hx' : x' + cw' ≤ cw) :
    ((window w x y cw ch P).drop (i * cw + x')).take cw' =
      (P.drop ((y + i) * w + (x + x'))).take cw' := by
  have hrows := uniform_window_rows hP hx hy
  have hrow : (window w x y cw ch P).drop (i * cw) = (P.drop ((y + i) * w + x)).take cw ++
      (window w x y cw ch P).drop ((i + 1) * cw) := by
    rw [window, List.flatMap_def, drop_flatten_uniform _ hrows, drop_flatten_uniform _ hrows,
      List.drop_eq_getElem_cons (by simpa using hi), List.flatten_cons]
    simp
  rw [← List.drop_drop, hrow,
    List.drop_append_of_le_length (by rw [length_window_row hP hx hy hi]; omega),
    List.take_append_of_le_length (by simp [length_window_row hP hx hy hi]; omega),
    List.drop_take, List.take_take, Nat.min_eq_left (by omega), List.drop_drop, Nat.add_assoc]

/-- A rectangle of a rectangle of a grid is a rectangle of the grid, its origin the sum of the
two origins. -/
theorem window_window (hP : P.length = w * h) (hx : x + cw ≤ w) (hy : y + ch ≤ h) {x' y' cw' ch' : Nat}
    (hx' : x' + cw' ≤ cw) (hy' : y' + ch' ≤ ch) :
    window cw x' y' cw' ch' (window w x y cw ch P) = window w (x + x') (y + y') cw' ch' P := by
  conv_lhs => rw [window]
  conv_rhs => rw [window]
  rw [List.flatMap_def, List.flatMap_def]
  congr 1
  refine List.map_congr_left fun i hi => ?_
  rw [window_drop_take hP hx hy (by have := List.mem_range.1 hi; omega) hx', Nat.add_assoc]

/-- The rectangle that covers the grid is the grid. -/
theorem window_full (hP : P.length = w * h) : window w 0 0 w h P = P := by
  rcases Nat.eq_zero_or_pos w with rfl | hw
  · obtain rfl : P = [] := List.eq_nil_of_length_eq_zero (by simpa using hP)
    simp [window]
  · have hg := groups_eq_map_range hw h P (by rw [hP, Nat.mul_comm])
    rw [window, List.flatMap_def]
    simp only [Nat.zero_add, Nat.add_zero]
    rw [← hg, flatten_groups hw]

end Bytes

namespace Image

variable {img : Image}

/-! ### One crop -/

/-- Every row a crop copies is read from a slice that ends inside the source buffer: the rows
lie above the bottom edge, and the clamped width ends at the right edge. -/
lemma WellFormed.crop_row_le (hw : img.WellFormed) {x y w h r : Nat} (hr : r < min h (img.height - y))
    (hc : 0 < min w (img.width - x)) :
    (y + r) * img.stride + x * img.spec.bytesPerPixel + min w (img.width - x) * img.spec.bytesPerPixel ≤
      img.bytes.size := by
  have hx : x + min w (img.width - x) ≤ img.width := by omega
  have hy : y + r + 1 ≤ img.height := by omega
  rw [hw.size_bytes, bufferSize, stride]
  calc (y + r) * (img.width * img.spec.bytesPerPixel) + x * img.spec.bytesPerPixel +
        min w (img.width - x) * img.spec.bytesPerPixel
      = (y + r) * (img.width * img.spec.bytesPerPixel) +
          (x + min w (img.width - x)) * img.spec.bytesPerPixel := by ring
    _ ≤ (y + r) * (img.width * img.spec.bytesPerPixel) + img.width * img.spec.bytesPerPixel := by gcongr
    _ = (y + r + 1) * (img.width * img.spec.bytesPerPixel) := by ring
    _ ≤ img.height * (img.width * img.spec.bytesPerPixel) := by gcongr
    _ = img.width * img.spec.bytesPerPixel * img.height := by ring

/-- Byte `k` of row `r` of a crop is the source byte `k` after the crop's origin in row `y + r`. -/
lemma WellFormed.getElem?_crop_bytes (hw : img.WellFormed) (x y w h : Nat) {r k : Nat}
    (hr : r < min h (img.height - y)) (hk : k < min w (img.width - x) * img.spec.bytesPerPixel) :
    (img.crop x y w h).bytes[r * (min w (img.width - x) * img.spec.bytesPerPixel) + k]? =
      img.bytes[(y + r) * img.stride + x * img.spec.bytesPerPixel + k]? := by
  have hcw : 0 < min w (img.width - x) := Nat.pos_of_mul_pos_right (Nat.zero_lt_of_lt hk)
  -- the crop's bytes are its rows of `cw * b` bytes, row `i` cut from the source at row `y + i`
  have hrows : ∀ row ∈ (List.range (min h (img.height - y))).map (fun i =>
      (img.bytes.data.toList.drop (((y + i) * img.width + x) * img.spec.bytesPerPixel)).take
        (min w (img.width - x) * img.spec.bytesPerPixel)),
      row.length = min w (img.width - x) * img.spec.bytesPerPixel := by
    refine uniform_map fun i hi => ?_
    have hle := hw.crop_row_le (List.mem_range.1 hi) hcw
    have e : ((y + i) * img.width + x) * img.spec.bytesPerPixel =
        (y + i) * img.stride + x * img.spec.bytesPerPixel := by
      simp only [stride]
      ring
    simp only [List.length_take, List.length_drop, Array.length_toList, ByteArray.size_data, e]
    omega
  have hblock : ∀ (L : List UInt8) (n : Nat), L[n * (min w (img.width - x) * img.spec.bytesPerPixel) + k]? =
      ((L.drop (n * (min w (img.width - x) * img.spec.bytesPerPixel))).take
        (min w (img.width - x) * img.spec.bytesPerPixel))[k]? := by
    intro L n
    rw [List.getElem?_take_of_lt hk, List.getElem?_drop]
  rw [hw.crop_eq, if_pos ⟨hcw, by omega⟩, bytes_mk, Option.getD_some, ← ByteArray.getElem?_toList,
    ← ByteArray.getElem?_toList, List.data_toByteArray, List.toList_toArray,
    Bytes.flatten_window hw.uniform_pixels, flatten_pixels, hblock, List.flatMap_def,
    drop_take_flatten_uniform hrows (by simpa using hr)]
  simp only [List.getElem_map, List.getElem_range, List.getElem?_take_of_lt hk, List.getElem?_drop]
  congr 1
  simp only [stride]
  ring

/-- What a crop of `img` at `(x, y)` of at most `w` by `h` pixels is: the layout is kept; the
sides are the requested ones clamped to what is left of the image past the origin; it holds pixels
exactly when both sides are positive; the buffer it is made with has the size the layout gives
those sides; the row slices it copies lie inside the source buffer; and byte `k` of row `r` is
the source byte `k` after the origin in row `y + r`, rows being `stride` bytes apart. -/
structure Cropped (img : Image) (x y w h : Nat) (out : Image) : Prop where
  spec : out.spec = img.spec
  width : out.width = min w (img.width - x)
  height : out.height = min h (img.height - y)
  isValid_iff : out.isValid = true ↔ 0 < out.width ∧ 0 < out.height
  sized : img.spec.bufferSize? out.width out.height =
    some (out.width * img.spec.bytesPerPixel * out.height)
  rows_inside : ∀ r < out.height, 0 < out.width →
    (y + r) * img.stride + x * img.spec.bytesPerPixel + out.width * img.spec.bytesPerPixel ≤
      img.bytes.size
  bytes : ∀ r < out.height, ∀ k < out.width * img.spec.bytesPerPixel,
    out.bytes[r * (out.width * img.spec.bytesPerPixel) + k]? =
      img.bytes[(y + r) * img.stride + x * img.spec.bytesPerPixel + k]?

/-- Cropping a well-formed image is clamped and exact, for every origin and every size, origins
past the edges included. -/
theorem WellFormed.crop_exact (hw : img.WellFormed) (x y w h : Nat) :
    img.Cropped x y w h (img.crop x y w h) where
  spec := crop_spec ..
  width := crop_width ..
  height := crop_height ..
  isValid_iff := (hw.crop x y w h).isValid_iff_sides
  sized := by
    rw [crop_width, crop_height]
    exact bufferSize?_crop hw.bufferSize?_eq x y w h
  rows_inside r hr hc := by
    rw [crop_width] at hc ⊢
    rw [crop_height] at hr
    exact hw.crop_row_le hr hc
  bytes r hr k hk := by
    rw [crop_width] at hk ⊢
    rw [crop_height] at hr
    exact hw.getElem?_crop_bytes x y w h hr hk

theorem crop_exact_corner :
    (⟨3, 2, .rgb8, some ⟨#[1, 2, 3, 4, 5, 6, 7, 8, 9, 10, 11, 12, 13, 14, 15, 16, 17, 18]⟩⟩ : Image).WellFormed ∧
      (⟨3, 2, .rgb8, some ⟨#[1, 2, 3, 4, 5, 6, 7, 8, 9, 10, 11, 12, 13, 14, 15, 16, 17, 18]⟩⟩ : Image).Cropped
        1 1 5 5 ((⟨3, 2, .rgb8, some ⟨#[1, 2, 3, 4, 5, 6, 7, 8, 9, 10, 11, 12, 13, 14, 15, 16, 17, 18]⟩⟩ :
          Image).crop 1 1 5 5) :=
  have hw : (⟨3, 2, .rgb8, some ⟨#[1, 2, 3, 4, 5, 6, 7, 8, 9, 10, 11, 12, 13, 14, 15, 16, 17, 18]⟩⟩ :
      Image).WellFormed := ⟨18, by decide, by decide⟩
  ⟨hw, WellFormed.crop_exact hw 1 1 5 5⟩

/-! ### Crops of crops -/

/-- Along one side, clamping a request at `x₂` against a span already clamped at `x₁` is
clamping the request, cut to the first span, against the side. -/
lemma clamp_clamp (n x₁ w₁ x₂ w₂ : Nat) :
    min w₂ (min w₁ (n - x₁) - x₂) = min (min w₂ (w₁ - x₂)) (n - (x₁ + x₂)) := by
  rw [← Nat.sub_min_sub_right, Nat.sub_sub, Nat.min_assoc]

/-- Along one side, a nonempty span clamped twice lies in the first span, which lies in the
side. -/
lemma clamp_nested {n x₁ w₁ x₂ w₂ : Nat} (hpos : 0 < min (min w₂ (w₁ - x₂)) (n - (x₁ + x₂))) :
    x₁ + min w₁ (n - x₁) ≤ n ∧ x₂ + min (min w₂ (w₁ - x₂)) (n - (x₁ + x₂)) ≤ min w₁ (n - x₁) := by
  omega

/-- A crop of a crop is one crop of the image: the origins add up, and the second request is
clamped against the first before the image clamps it. -/
theorem WellFormed.crop_crop (hw : img.WellFormed) (x₁ y₁ w₁ h₁ x₂ y₂ w₂ h₂ : Nat) :
    (img.crop x₁ y₁ w₁ h₁).crop x₂ y₂ w₂ h₂ =
      img.crop (x₁ + x₂) (y₁ + y₂) (min w₂ (w₁ - x₂)) (min h₂ (h₁ - y₂)) := by
  have hw₁ := hw.crop x₁ y₁ w₁ h₁
  have hcw := clamp_clamp img.width x₁ w₁ x₂ w₂
  have hch := clamp_clamp img.height y₁ h₁ y₂ h₂
  refine (hw₁.crop x₂ y₂ w₂ h₂).ext (hw.crop _ _ _ _) (by rw [crop_width, crop_width, crop_width]; exact hcw)
    (by rw [crop_height, crop_height, crop_height]; exact hch) (by simp) ?_
  rw [hw₁.pixels_crop, hw.pixels_crop, hw.pixels_crop, crop_width, crop_height, hcw, hch]
  by_cases hne : 0 < min (min w₂ (w₁ - x₂)) (img.width - (x₁ + x₂)) ∧
      0 < min (min h₂ (h₁ - y₂)) (img.height - (y₁ + y₂))
  · obtain ⟨hx, hx'⟩ := clamp_nested hne.1
    obtain ⟨hy, hy'⟩ := clamp_nested hne.2
    exact Bytes.window_window hw.length_pixels hx hy hx' hy'
  · -- an empty second crop has no pixels on either side
    have hempty : min (min w₂ (w₁ - x₂)) (img.width - (x₁ + x₂)) = 0 ∨
        min (min h₂ (h₁ - y₂)) (img.height - (y₁ + y₂)) = 0 := by
      rw [not_and_or, Nat.not_lt, Nat.not_lt, Nat.le_zero, Nat.le_zero] at hne
      exact hne
    rw [Bytes.window_eq_nil _ hempty, Bytes.window_eq_nil _ hempty]

/-- The crop of the whole image is the image. -/
theorem WellFormed.crop_full (hw : img.WellFormed) : img.crop 0 0 img.width img.height = img := by
  refine (hw.crop 0 0 img.width img.height).ext hw (by simp) (by simp) (by simp) ?_
  rw [hw.pixels_crop, Nat.sub_zero, Nat.sub_zero, Nat.min_self, Nat.min_self,
    Bytes.window_full hw.length_pixels]

/-- Crops compose, and the crop of the whole image is the image. -/
theorem WellFormed.crops_compose (hw : img.WellFormed) (x₁ y₁ w₁ h₁ x₂ y₂ w₂ h₂ : Nat) :
    (img.crop x₁ y₁ w₁ h₁).crop x₂ y₂ w₂ h₂ =
        img.crop (x₁ + x₂) (y₁ + y₂) (min w₂ (w₁ - x₂)) (min h₂ (h₁ - y₂)) ∧
      img.crop 0 0 img.width img.height = img :=
  ⟨hw.crop_crop x₁ y₁ w₁ h₁ x₂ y₂ w₂ h₂, hw.crop_full⟩

theorem crops_compose_corner :
    (⟨3, 2, .rgb8, some ⟨#[1, 2, 3, 4, 5, 6, 7, 8, 9, 10, 11, 12, 13, 14, 15, 16, 17, 18]⟩⟩ : Image).WellFormed ∧
      ((⟨3, 2, .rgb8, some ⟨#[1, 2, 3, 4, 5, 6, 7, 8, 9, 10, 11, 12, 13, 14, 15, 16, 17, 18]⟩⟩ : Image).crop
          1 0 5 2).crop 1 1 1 4 =
        (⟨3, 2, .rgb8, some ⟨#[1, 2, 3, 4, 5, 6, 7, 8, 9, 10, 11, 12, 13, 14, 15, 16, 17, 18]⟩⟩ : Image).crop
          (1 + 1) (0 + 1) (min 1 (5 - 1)) (min 4 (2 - 1)) ∧
      (⟨3, 2, .rgb8, some ⟨#[1, 2, 3, 4, 5, 6, 7, 8, 9, 10, 11, 12, 13, 14, 15, 16, 17, 18]⟩⟩ : Image).crop
          0 0 3 2 =
        (⟨3, 2, .rgb8, some ⟨#[1, 2, 3, 4, 5, 6, 7, 8, 9, 10, 11, 12, 13, 14, 15, 16, 17, 18]⟩⟩ : Image) :=
  have hw : (⟨3, 2, .rgb8, some ⟨#[1, 2, 3, 4, 5, 6, 7, 8, 9, 10, 11, 12, 13, 14, 15, 16, 17, 18]⟩⟩ :
      Image).WellFormed := ⟨18, by decide, by decide⟩
  ⟨hw, WellFormed.crops_compose hw 1 0 5 2 1 1 1 4⟩

end Image

end Pixmap
