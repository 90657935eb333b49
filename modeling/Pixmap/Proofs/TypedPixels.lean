import Pixmap.Proofs.Shape

/-! Images from and to typed 8-bit pixels: packing a strided source and borrowing it back gives
its own pixels, row by row (`Image.typed_interop`). -/
namespace Pixmap

namespace Bytes

variable {α : Type} {n : Nat}

/-- Group `i` of a list cut into groups of `n`, when it lies whole inside the list. -/
theorem getElem?_groups (hn : 0 < n) :
    ∀ (i : Nat) (L : List α), i * n + n ≤ L.length → (groups n L)[i]? = some ((L.drop (i * n)).take n)
  | 0, L, h => by
    rw [groups_of_pos hn (List.ne_nil_of_length_pos (by omega))]
    simp
  | i + 1, L, h => by
    have hrest : i * n + n ≤ (L.drop n).length := by
      rw [List.length_drop]
      rw [Nat.succ_mul] at h
      omega
    rw [groups_of_pos hn (List.ne_nil_of_length_pos (by omega)), List.getElem?_cons_succ,
      getElem?_groups hn i (L.drop n) hrest, List.drop_drop, Nat.succ_mul, Nat.add_comm n]

end Bytes

namespace Image

/-- A source of typed pixels of `spec` as a borrowed typed view presents it: `height` rows
`stride` pixels apart, each of its first `width` pixels, all inside a buffer that fits the
address space. -/
structure StridedSource (spec : ColorSpec) (width height stride : Nat) (buf : ByteArray) : Prop where
  width_le : width ≤ stride
  rows_inside : 0 < height → (stride * (height - 1) + width) * spec.bytesPerPixel ≤ buf.size
  fits : buf.size < addressSpace

/-- The pixels of a typed buffer, each the channel bytes of one pixel. -/
def typedPixels (spec : ColorSpec) (buf : ByteArray) : List (List UInt8) :=
  Bytes.groups spec.bytesPerPixel buf.data.toList

/-- What packing a strided source gives: an image of the sides and layout asked for, well formed,
whose pixel `(x, y)` is pixel `y * stride + x` of the source. -/
structure Packed (s : ColorSpec) (W H stride : Nat) (buf : ByteArray) (img : Image) : Prop where
  width : img.width = W
  height : img.height = H
  spec : img.spec = s
  wellFormed : img.WellFormed
  pixel : ∀ x < W, ∀ y < H, img.pixels[y * W + x]? = (typedPixels s buf)[y * stride + x]?

/-- What borrowing an image as typed pixels of `s` gives: its own buffer, exactly
`width * height` whole pixels, pixel `(x, y)` the `bpp` bytes at `(y * width + x) * bpp`. -/
structure TypedView (img : Image) (s : ColorSpec) (px : ByteArray) : Prop where
  bytes : px = img.bytes
  size : px.size = img.width * img.height * s.bytesPerPixel
  pixel : ∀ x < img.width, ∀ y < img.height, (typedPixels s px)[y * img.width + x]? =
    some ((px.data.toList.drop ((y * img.width + x) * s.bytesPerPixel)).take s.bytesPerPixel)

variable {spec : ColorSpec} {W H stride : Nat} {buf : ByteArray} {img : Image}

theorem ofStrided_of_wide (hw : sideLimit ≤ W) :
    ofStrided spec W H stride buf = .error (.invalidInput ("dimension " ++ toString W ++ " exceeds u32")) := by
  simp only [ofStrided, dimension, if_neg (Nat.not_lt.2 hw)]
  rfl

theorem ofStrided_of_tall (hw : W < sideLimit) (hh : sideLimit ≤ H) :
    ofStrided spec W H stride buf = .error (.invalidInput ("dimension " ++ toString H ++ " exceeds u32")) := by
  simp only [ofStrided, dimension, if_pos hw, if_neg (Nat.not_lt.2 hh)]
  rfl

theorem ofStrided_of_lt (hw : W < sideLimit) (hh : H < sideLimit) :
    ofStrided spec W H stride buf = ofBytes W H spec (packRows spec W H stride buf) := by
  simp only [ofStrided, dimension, if_pos hw, if_pos hh]
  rfl

/-- The packed rows are the source's rows, each the `width * bpp` bytes at `r * stride * bpp`. -/
theorem toList_packRows (spec : ColorSpec) (W H stride : Nat) (buf : ByteArray) :
    (packRows spec W H stride buf).data.toList = (List.range H).flatMap fun r =>
      (buf.data.toList.drop (r * stride * spec.bytesPerPixel)).take (W * spec.bytesPerPixel) := by
  have hfold : packRows spec W H stride buf = ((List.range H).map fun r =>
      buf.extract (r * stride * spec.bytesPerPixel) ((r * stride + W) * spec.bytesPerPixel)).foldl
        (· ++ ·) ByteArray.empty := by
    rw [List.foldl_map]
    rfl
  rw [hfold, foldl_append_toList]
  simp only [ByteArray.data_empty, Array.toList_empty, List.nil_append, List.flatMap_def, List.map_map]
  congr 1
  refine List.map_congr_left fun r _ => ?_
  simp only [Function.comp_apply, ByteArray.toList_extract, Nat.add_mul, Nat.add_sub_cancel_left]

/-- Cell `(x, y)` of a row-major grid of `W` by `H` cells of `k` entries ends inside the grid. -/
theorem cell_end_le {k x y : Nat} (hx : x < W) (hy : y < H) : (y * W + x) * k + k ≤ W * k * H := by
  have hcol := slot_end_le (k := k) hx
  have hrow := slot_end_le (k := W * k) hy
  have e : (y * W + x) * k = y * (W * k) + x * k := by ring
  rw [e, Nat.mul_comm (W * k) H]
  omega

namespace StridedSource

variable (hsrc : StridedSource spec W H stride buf)
include hsrc

/-- Every source row ends inside the buffer. -/
theorem row_end_le {r : Nat} (hr : r < H) :
    r * stride * spec.bytesPerPixel + W * spec.bytesPerPixel ≤ buf.size := by
  have hlast : r * stride + W ≤ stride * (H - 1) + W := by
    have : r * stride ≤ (H - 1) * stride := Nat.mul_le_mul_right _ (by omega)
    rw [Nat.mul_comm stride]
    omega
  calc r * stride * spec.bytesPerPixel + W * spec.bytesPerPixel
      = (r * stride + W) * spec.bytesPerPixel := (Nat.add_mul _ _ _).symm
    _ ≤ (stride * (H - 1) + W) * spec.bytesPerPixel := Nat.mul_le_mul_right _ hlast
    _ ≤ buf.size := hsrc.rows_inside (by omega)

/-- Source pixel `y * stride + x` of a row lies whole inside the buffer. -/
theorem pixel_end_le {x y : Nat} (hx : x < W) (hy : y < H) :
    (y * stride + x) * spec.bytesPerPixel + spec.bytesPerPixel ≤ buf.size := by
  have hrow := hsrc.row_end_le hy
  have hpix := slot_end_le (k := spec.bytesPerPixel) hx
  rw [Nat.add_mul]
  omega

/-- The packed rows fill the layout of the sides exactly. -/
theorem size_packRows : (packRows spec W H stride buf).size = W * spec.bytesPerPixel * H := by
  have hrows : ∀ row ∈ (List.range H).map (fun r =>
      (buf.data.toList.drop (r * stride * spec.bytesPerPixel)).take (W * spec.bytesPerPixel)),
      row.length = W * spec.bytesPerPixel :=
    uniform_map fun r hr => by
      have := hsrc.row_end_le (List.mem_range.1 hr)
      simp only [List.length_take, List.length_drop, Array.length_toList, ByteArray.size_data]
      omega
  rw [← ByteArray.size_data, ← Array.length_toList, toList_packRows, List.flatMap_def,
    length_flatten_uniform _ hrows, List.length_map, List.length_range, Nat.mul_comm]

/-- The sides of a source with a 32-bit width fit the address space. -/
theorem bufferSize? (hw : W < sideLimit) :
    spec.bufferSize? W H = some (W * spec.bytesPerPixel * H) := by
  have hb := spec.bytesPerPixel_le
  have hrow : W * spec.bytesPerPixel < addressSpace :=
    calc W * spec.bytesPerPixel ≤ W * 8 := Nat.mul_le_mul_left _ hb
      _ < addressSpace := by unfold sideLimit at hw; unfold addressSpace; omega
  refine ColorSpec.bufferSize?_eq_some_iff.2 ⟨rfl, hrow, ?_⟩
  rcases Nat.eq_zero_or_pos H with rfl | hH
  · simpa using Nat.lt_of_le_of_lt (Nat.zero_le _) hrow
  · -- the whole image is no larger than the rows it is cut from
    have hlast := hsrc.row_end_le (Nat.sub_lt hH Nat.one_pos)
    have hle : W * spec.bytesPerPixel * H ≤ (H - 1) * stride * spec.bytesPerPixel + W * spec.bytesPerPixel := by
      have hws : W * (H - 1) ≤ stride * (H - 1) := Nat.mul_le_mul_right _ hsrc.width_le
      calc W * spec.bytesPerPixel * H = (W * (H - 1) + W) * spec.bytesPerPixel := by
            rw [Nat.mul_sub_one, Nat.sub_add_cancel (Nat.le_mul_of_pos_right W hH)]; ring
        _ ≤ (stride * (H - 1) + W) * spec.bytesPerPixel := Nat.mul_le_mul_right _ (by omega)
        _ = (H - 1) * stride * spec.bytesPerPixel + W * spec.bytesPerPixel := by ring
    exact Nat.lt_of_le_of_lt (hle.trans hlast) hsrc.fits

/-- Packed byte runs read back the source: the `bpp` bytes of packed pixel `(x, y)` are those
of source pixel `y * stride + x`. -/
theorem pixel_packRows {x y : Nat} (hx : x < W) (hy : y < H) :
    ((packRows spec W H stride buf).data.toList.drop ((y * W + x) * spec.bytesPerPixel)).take
        spec.bytesPerPixel =
      (buf.data.toList.drop ((y * stride + x) * spec.bytesPerPixel)).take spec.bytesPerPixel := by
  have hrows : ∀ row ∈ (List.range H).map (fun r =>
      (buf.data.toList.drop (r * stride * spec.bytesPerPixel)).take (W * spec.bytesPerPixel)),
      row.length = W * spec.bytesPerPixel :=
    uniform_map fun r hr => by
      have := hsrc.row_end_le (List.mem_range.1 hr)
      simp only [List.length_take, List.length_drop, Array.length_toList, ByteArray.size_data]
      omega
  have hpix := slot_end_le (k := spec.bytesPerPixel) hx
  have hoff : (y * W + x) * spec.bytesPerPixel = y * (W * spec.bytesPerPixel) + x * spec.bytesPerPixel := by
    ring
  rw [toList_packRows, List.flatMap_def, hoff,
    drop_take_flatten_within hrows (by simpa using hy) hpix]
  simp only [List.getElem_map, List.getElem_range, List.drop_take, List.take_take, List.drop_drop]
  rw [Nat.min_eq_left (by omega)]
  congr 2
  ring

/-- A source with 32-bit sides packs into the image that adopts its packed rows. -/
theorem ofStrided_eq (hw : W < sideLimit) (hh : H < sideLimit) :
    ofStrided spec W H stride buf =
      .ok ⟨W, H, spec, if 0 < W * spec.bytesPerPixel * H then some (packRows spec W H stride buf) else none⟩ := by
  rw [ofStrided_of_lt hw hh,
    ofBytes_of_bufferSize? (by rw [hsrc.size_packRows]; exact hsrc.bufferSize? hw), hsrc.size_packRows]

/-- A source with 32-bit sides packs into an image of those sides and its layout, whose pixel
`(x, y)` is source pixel `y * stride + x`. -/
theorem packed (hw : W < sideLimit) (hh : H < sideLimit) :
    Packed spec W H stride buf
      ⟨W, H, spec, if 0 < W * spec.bytesPerPixel * H then some (packRows spec W H stride buf) else none⟩ where
  width := rfl
  height := rfl
  spec := rfl
  wellFormed := wellFormed_of_ofStrided (hsrc.ofStrided_eq hw hh)
  pixel x hx y hy := by
    have hb := spec.bytesPerPixel_pos
    have hpos : 0 < W * spec.bytesPerPixel * H := Nat.mul_pos (Nat.mul_pos (by omega) hb) (by omega)
    have hin : (y * W + x) * spec.bytesPerPixel + spec.bytesPerPixel ≤
        (packRows spec W H stride buf).data.toList.length := by
      rw [Array.length_toList, ByteArray.size_data, hsrc.size_packRows]
      exact cell_end_le hx hy
    rw [pixels, typedPixels, bytes_mk, if_pos hpos, Option.getD_some, Bytes.getElem?_groups hb _ _ hin,
      Bytes.getElem?_groups hb _ _ (by simpa using hsrc.pixel_end_le hx hy), hsrc.pixel_packRows hx hy]

end StridedSource

/-- Borrowing as typed pixels fails exactly for another layout or an image without buffer. -/
theorem pixelsAs?_eq_none_iff {s : ColorSpec} : img.pixelsAs? s = none ↔ img.spec ≠ s ∨ img.isValid = false := by
  unfold pixelsAs?
  by_cases hs : img.spec = s <;> cases img.isValid <;> simp [hs]

/-- A well-formed image borrowed as typed pixels is its buffer of `width * height` whole pixels,
pixel `(x, y)` at `(y * width + x) * bpp`. -/
theorem WellFormed.typedView (hw : img.WellFormed) {s : ColorSpec} {px : ByteArray}
    (h : img.pixelsAs? s = some px) : TypedView img s px := by
  unfold pixelsAs? at h
  split at h
  · rename_i hsv
    obtain rfl := hsv.1
    cases h
    have hsize : img.bytes.size = img.width * img.height * img.spec.bytesPerPixel := by
      rw [← ByteArray.size_data, ← Array.length_toList, hw.length_bytes]
    refine ⟨rfl, hsize, fun x hx y hy => ?_⟩
    rw [typedPixels, Bytes.getElem?_groups img.spec.bytesPerPixel_pos]
    rw [Array.length_toList, ByteArray.size_data, hsize, Nat.mul_right_comm]
    exact cell_end_le hx hy
  · cases h

end Image

/-- Images from and to typed pixels. Packing a typed source refuses a width beyond 32 bits, and
then a height beyond 32 bits, as invalid input naming the side. Otherwise, for a source whose
rows lie in its buffer, it returns an image of the source's sides and layout, well formed, whose
pixel `(x, y)` is source pixel `y * stride + x`, the padding pixels skipped. Borrowing a
well-formed image as typed pixels of a layout fails exactly for another layout or an image
without buffer, and otherwise gives its buffer of `width * height` whole pixels with pixel
`(x, y)` at `(y * width + x) * bpp`; so a packed source borrowed back, which fails exactly for a
side of zero, has the source's pixels, row by row. -/
theorem Image.typed_interop :
    (∀ (s : ColorSpec) (W H stride : Nat) (buf : ByteArray), Image.sideLimit ≤ W →
      Image.ofStrided s W H stride buf = .error (.invalidInput ("dimension " ++ toString W ++ " exceeds u32"))) ∧
    (∀ (s : ColorSpec) (W H stride : Nat) (buf : ByteArray), W < Image.sideLimit → Image.sideLimit ≤ H →
      Image.ofStrided s W H stride buf = .error (.invalidInput ("dimension " ++ toString H ++ " exceeds u32"))) ∧
    (∀ (s : ColorSpec) (W H stride : Nat) (buf : ByteArray), Image.StridedSource s W H stride buf →
      W < Image.sideLimit → H < Image.sideLimit →
      ∃ img, Image.ofStrided s W H stride buf = .ok img ∧ Image.Packed s W H stride buf img ∧
        (img.pixelsAs? s = none ↔ W = 0 ∨ H = 0) ∧
        ∀ px, img.pixelsAs? s = some px → ∀ x < W, ∀ y < H,
          (Image.typedPixels s px)[y * W + x]? = (Image.typedPixels s buf)[y * stride + x]?) ∧
    (∀ (img : Image) (s : ColorSpec), img.WellFormed →
      (img.pixelsAs? s = none ↔ img.spec ≠ s ∨ img.isValid = false) ∧
      ∀ px, img.pixelsAs? s = some px → Image.TypedView img s px) := by
  refine ⟨fun s W H stride buf hw => Image.ofStrided_of_wide hw,
    fun s W H stride buf hw hh => Image.ofStrided_of_tall hw hh, fun s W H stride buf hsrc hw hh => ?_,
    fun img s hw => ⟨Image.pixelsAs?_eq_none_iff, fun px h => hw.typedView h⟩⟩
  have hpack := hsrc.packed hw hh
  refine ⟨_, hsrc.ofStrided_eq hw hh, hpack, ?_, fun px h x hx y hy => ?_⟩
  · -- the packed image holds pixels exactly when both sides are positive
    rw [Image.pixelsAs?_eq_none_iff, Bool.eq_false_iff]
    simp only [ne_eq, hpack.wellFormed.isValid_iff_sides, not_true_eq_false, false_or]
    omega
  · -- the borrowed buffer is the packed one, read through the same pixels
    have hview := hpack.wellFormed.typedView h
    rw [hview.bytes, ← hpack.pixel x hx y hy, Image.pixels, hpack.spec, ← hpack.width]
    rfl

/-- Two rows of two RGBA pixels, three pixels apart, and a one-pixel RGBA image. -/
theorem Image.typed_interop_padded :
    Image.StridedSource .rgba8 2 2 3 (⟨#[1, 1, 1, 1, 2, 2, 2, 2, 0, 0, 0, 0, 3, 3, 3, 3, 4, 4, 4, 4, 0, 0, 0, 0]⟩ : ByteArray) ∧ 2 < Image.sideLimit ∧ 2 < Image.sideLimit ∧
      (∃ img, Image.ofStrided .rgba8 2 2 3 (⟨#[1, 1, 1, 1, 2, 2, 2, 2, 0, 0, 0, 0, 3, 3, 3, 3, 4, 4, 4, 4, 0, 0, 0, 0]⟩ : ByteArray) = .ok img ∧ Image.Packed .rgba8 2 2 3 (⟨#[1, 1, 1, 1, 2, 2, 2, 2, 0, 0, 0, 0, 3, 3, 3, 3, 4, 4, 4, 4, 0, 0, 0, 0]⟩ : ByteArray) img ∧
        (img.pixelsAs? .rgba8 = none ↔ 2 = 0 ∨ 2 = 0) ∧
        ∀ px, img.pixelsAs? .rgba8 = some px → ∀ x < 2, ∀ y < 2,
          (Image.typedPixels .rgba8 px)[y * 2 + x]? = (Image.typedPixels .rgba8 (⟨#[1, 1, 1, 1, 2, 2, 2, 2, 0, 0, 0, 0, 3, 3, 3, 3, 4, 4, 4, 4, 0, 0, 0, 0]⟩ : ByteArray))[y * 3 + x]?) ∧
    (⟨1, 1, .rgba8, some ⟨#[9, 8, 7, 6]⟩⟩ : Image).WellFormed ∧
      (((⟨1, 1, .rgba8, some ⟨#[9, 8, 7, 6]⟩⟩ : Image).pixelsAs? .rgb8 = none ↔ (⟨1, 1, .rgba8, some ⟨#[9, 8, 7, 6]⟩⟩ : Image).spec ≠ .rgb8 ∨ (⟨1, 1, .rgba8, some ⟨#[9, 8, 7, 6]⟩⟩ : Image).isValid = false) ∧
        ∀ px, (⟨1, 1, .rgba8, some ⟨#[9, 8, 7, 6]⟩⟩ : Image).pixelsAs? .rgb8 = some px → Image.TypedView (⟨1, 1, .rgba8, some ⟨#[9, 8, 7, 6]⟩⟩ : Image) .rgb8 px) :=
  have hsrc : Image.StridedSource .rgba8 2 2 3 (⟨#[1, 1, 1, 1, 2, 2, 2, 2, 0, 0, 0, 0, 3, 3, 3, 3, 4, 4, 4, 4, 0, 0, 0, 0]⟩ : ByteArray) := ⟨by decide, fun _ => by decide, by decide⟩
  have hw : (⟨1, 1, .rgba8, some ⟨#[9, 8, 7, 6]⟩⟩ : Image).WellFormed := ⟨4, by decide, by decide⟩
  ⟨hsrc, by decide, by decide, typed_interop.2.2.1 _ 2 2 3 _ hsrc (by decide) (by decide), hw,
    typed_interop.2.2.2 _ .rgb8 hw⟩

end Pixmap
