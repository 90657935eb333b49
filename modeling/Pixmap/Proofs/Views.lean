import Pixmap.Proofs.Shape

/-! Views and images agree: a view's rows concatenate to its bytes, and copying and viewing go back
and forth (`ImageView.agrees_with_images`). -/
namespace Pixmap

namespace ImageView

variable {v : ImageView} {w h : Nat} {s : ColorSpec} {d : ByteArray}

/-- A view whose bytes have exactly its layout's size, which fits the address space. -/
def Sized (v : ImageView) : Prop := v.spec.bufferSize? v.width v.height = some v.data.size

theorem new?_eq_ok_iff : new? w h s d = .ok v ↔ s.bufferSize? w h = some d.size ∧ v = ⟨w, h, s, d⟩ := by
  unfold new? Image.checkedSize
  cases hb : s.bufferSize? w h with
  | none => simp
  | some n =>
    by_cases hn : d.size = n
    · subst hn
      simp [eq_comm]
    · simp [hn, Ne.symm hn]

theorem Sized.size_eq (hv : v.Sized) : v.data.size = v.stride * v.height :=
  (ColorSpec.bufferSize?_eq_some_iff.1 hv).1

theorem Sized.size_lt (hv : v.Sized) : v.data.size < addressSpace := by
  obtain ⟨hn, -, hlt⟩ := ColorSpec.bufferSize?_eq_some_iff.1 hv
  rw [hn]
  exact hlt

/-- Every row of a sized view ends inside its bytes, so computing its end never leaves the
address space. -/
theorem Sized.row_end_le (hv : v.Sized) {y : Nat} (hy : y < v.height) :
    y * v.stride + v.stride ≤ v.data.size := by
  rw [hv.size_eq, Nat.mul_comm v.stride v.height]
  exact slot_end_le hy

/-- Row `y` of a sized view: the `stride` bytes at `y * stride` when `y` is a row and the view
has bytes, and nothing otherwise. -/
theorem row?_of_sized (hv : v.Sized) (y : Nat) :
    v.row? y = if y < v.height ∧ 0 < v.data.size then
      some (v.data.extract (y * v.stride) ((y + 1) * v.stride)) else none := by
  unfold row?
  by_cases hrow : y < v.height ∧ 0 < v.data.size
  · have hend := hv.row_end_le hrow.1
    have hne : ¬ (y ≥ v.height || v.data.isEmpty) = true := by
      simp only [ByteArray.isEmpty, Bool.or_eq_true, decide_eq_true_eq, beq_iff_eq, not_or]
      omega
    rw [if_neg hne, if_pos hend, if_pos hrow, Nat.succ_mul]
  · have hout : (y ≥ v.height || v.data.isEmpty) = true := by
      simp only [ByteArray.isEmpty, Bool.or_eq_true, decide_eq_true_eq, beq_iff_eq]
      omega
    rw [if_pos hout, if_neg hrow]

/-- The rows of a sized view, in order, concatenate to its bytes. -/
theorem Sized.rows_concat (hv : v.Sized) :
    ((List.range v.height).filterMap v.row?).foldl (· ++ ·) ByteArray.empty = v.data := by
  by_cases hpos : 0 < v.data.size
  · -- every row is present: the bytes are `height` slices of `stride` bytes
    have hstride : 0 < v.stride := by
      rw [hv.size_eq] at hpos
      exact Nat.pos_of_mul_pos_right hpos
    have hrows : (List.range v.height).filterMap v.row? =
        (List.range v.height).map fun y => v.data.extract (y * v.stride) ((y + 1) * v.stride) := by
      rw [List.filterMap_eq_map_iff_forall_eq_some.2 (fun y hy => by
        rw [row?_of_sized hv, if_pos ⟨List.mem_range.1 hy, hpos⟩])]
    have hlen : v.data.data.toList.length = v.height * v.stride := by
      rw [Array.length_toList, ByteArray.size_data, hv.size_eq, Nat.mul_comm]
    apply ByteArray.ext
    rw [← Array.toList_inj, hrows, Image.foldl_append_toList, List.map_map]
    simp only [ByteArray.data_empty, Array.toList_empty, List.nil_append, Function.comp_def,
      ByteArray.toList_extract, Nat.succ_mul, Nat.add_sub_cancel_left]
    rw [← Bytes.groups_eq_map_range hstride v.height _ hlen, Bytes.flatten_groups hstride]
  · -- no bytes, no rows
    have hrows : (List.range v.height).filterMap v.row? = [] :=
      List.filterMap_eq_nil_iff.2 fun y _ => by rw [row?_of_sized hv, if_neg (fun h => hpos h.2)]
    rw [hrows, List.foldl_nil]
    exact ByteArray.ext (Array.eq_empty_of_size_eq_zero (by simpa using hpos)).symm

/-- A sized view copied into an image is the image adopting its bytes. -/
theorem Sized.ofBytes_eq (hv : v.Sized) : Image.ofBytes v.width v.height v.spec v.data = .ok v.toImage := by
  rw [Image.ofBytes_of_bufferSize? hv]
  by_cases h0 : v.data.size = 0 <;> simp [toImage, ByteArray.isEmpty, h0, Nat.pos_of_ne_zero]

/-- A view copied into an image and seen again is the view. -/
theorem view_toImage (v : ImageView) : v.toImage.view = v := by
  obtain ⟨w, h, s, d⟩ := v
  by_cases h0 : d.size = 0
  · obtain rfl : d = ByteArray.empty := ByteArray.ext (Array.eq_empty_of_size_eq_zero (by simpa using h0))
    rfl
  · simp [toImage, Image.view, ByteArray.isEmpty, h0]

end ImageView

namespace Image

variable {img : Image}

theorem WellFormed.view_sized (hw : img.WellFormed) : img.view.Sized :=
  hw.bufferSize?_eq

/-- Row `y` of a well-formed image: the `stride` bytes at `y * stride` of its buffer when it holds
pixels and `y` is a row, and nothing otherwise. -/
theorem WellFormed.row?_eq (hw : img.WellFormed) (y : Nat) :
    img.row? y = if img.isValid = true ∧ y < img.height then
      some (img.bytes.extract (y * img.stride) ((y + 1) * img.stride)) else none := by
  have hcond : y < img.view.height ∧ 0 < img.view.data.size ↔ img.isValid = true ∧ y < img.height := by
    rw [(wellFormed_iff.1 hw).2]
    exact and_comm
  rw [row?, ImageView.row?_of_sized hw.view_sized]
  simp only [hcond]
  rfl

end Image

/-- Views agree with images. A view over bytes is made exactly when the bytes have the layout's
size. Such a view is those sides, layout and bytes; its row `y` is the `stride` bytes at
`y * stride` when `y` is a row and there are bytes, and nothing otherwise, so its rows
concatenate to the bytes; the bytes fit the address space and no row ends past them; copying it
gives the image that adopting the bytes gives, and seeing that image again gives the view. A
well-formed image seen through its view copies back to itself, and its rows are the `stride`-byte
slices of its buffer when it holds pixels. -/
theorem ImageView.agrees_with_images :
    (∀ (w h : Nat) (s : ColorSpec) (d : ByteArray),
      (∃ v, ImageView.new? w h s d = .ok v) ↔ s.bufferSize? w h = some d.size) ∧
    (∀ (w h : Nat) (s : ColorSpec) (d : ByteArray) (v : ImageView), ImageView.new? w h s d = .ok v →
      v = ⟨w, h, s, d⟩ ∧
      (∀ y, v.row? y = if y < h ∧ 0 < d.size then some (d.extract (y * v.stride) ((y + 1) * v.stride))
        else none) ∧
      ((List.range h).filterMap v.row?).foldl (· ++ ·) ByteArray.empty = d ∧
      d.size < addressSpace ∧ (∀ y < h, y * v.stride + v.stride ≤ d.size) ∧
      Image.ofBytes w h s d = .ok v.toImage ∧ v.toImage.view = v) ∧
    (∀ img : Image, img.WellFormed → img.view.toImage = img ∧
      ∀ y, img.row? y = if img.isValid = true ∧ y < img.height then
        some (img.bytes.extract (y * img.stride) ((y + 1) * img.stride)) else none) := by
  refine ⟨fun w h s d => ⟨fun ⟨v, hv⟩ => (new?_eq_ok_iff.1 hv).1, fun hs => ⟨_, new?_eq_ok_iff.2 ⟨hs, rfl⟩⟩⟩,
    fun w h s d v hv => ?_, fun img hw => ⟨hw.toImage_view, hw.row?_eq⟩⟩
  obtain ⟨hs, rfl⟩ := new?_eq_ok_iff.1 hv
  have hsized : (⟨w, h, s, d⟩ : ImageView).Sized := hs
  exact ⟨rfl, row?_of_sized hsized, hsized.rows_concat, hsized.size_lt, fun y hy => hsized.row_end_le hy,
    hsized.ofBytes_eq, view_toImage _⟩

/-- A 2×2 gray view over four bytes, and the image of the same bytes. -/
theorem ImageView.agrees_with_images_gray :
    (∃ v, ImageView.new? 2 2 .gray8 (⟨#[7, 9, 11, 13]⟩ : ByteArray) = .ok v ∧
      (v = ⟨2, 2, .gray8, (⟨#[7, 9, 11, 13]⟩ : ByteArray)⟩ ∧
        (∀ y, v.row? y = if y < 2 ∧ 0 < (⟨#[7, 9, 11, 13]⟩ : ByteArray).size then
          some ((⟨#[7, 9, 11, 13]⟩ : ByteArray).extract (y * v.stride) ((y + 1) * v.stride)) else none) ∧
        ((List.range 2).filterMap v.row?).foldl (· ++ ·) ByteArray.empty = (⟨#[7, 9, 11, 13]⟩ : ByteArray) ∧
        (⟨#[7, 9, 11, 13]⟩ : ByteArray).size < addressSpace ∧ (∀ y < 2, y * v.stride + v.stride ≤ (⟨#[7, 9, 11, 13]⟩ : ByteArray).size) ∧
        Image.ofBytes 2 2 .gray8 (⟨#[7, 9, 11, 13]⟩ : ByteArray) = .ok v.toImage ∧ v.toImage.view = v)) ∧
    ∃ img, Image.ofBytes 2 2 .gray8 (⟨#[7, 9, 11, 13]⟩ : ByteArray) = .ok img ∧ img.WellFormed ∧
      (img.view.toImage = img ∧
        ∀ y, img.row? y = if img.isValid = true ∧ y < img.height then
          some (img.bytes.extract (y * img.stride) ((y + 1) * img.stride)) else none) :=
  have hv : ImageView.new? 2 2 .gray8 (⟨#[7, 9, 11, 13]⟩ : ByteArray) = .ok _ := rfl
  have hmade : Image.ofBytes 2 2 .gray8 (⟨#[7, 9, 11, 13]⟩ : ByteArray) = .ok _ := rfl
  have hw := Image.wellFormed_of_ofBytes hmade
  ⟨⟨_, hv, agrees_with_images.2.1 2 2 .gray8 _ _ hv⟩, _, hmade, hw, agrees_with_images.2.2 _ hw⟩

end Pixmap
