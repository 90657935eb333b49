import Pixmap.Image.View
import Pixmap.Image.Strided
import Pixmap.Proofs.Pixels

/-! The shape of images: a well-formed image is a row-major grid of pixels of its layout
(`Image.pixels`), and every operation keeps the shape. -/
namespace Pixmap

@[simp] lemma ByteArray.toByteArray_toList (b : ByteArray) : b.data.toList.toByteArray = b :=
  ByteArray.ext (by simp)

theorem ByteArray.getElem?_toList (a : ByteArray) (i : Nat) : a.data.toList[i]? = a[i]? := by
  rw [Array.getElem?_toList]
  rfl

theorem ByteArray.toList_extract (a : ByteArray) (i j : Nat) :
    (a.extract i j).data.toList = (a.data.toList.drop i).take (j - i) := by
  simp [ByteArray.data_extract, Array.toList_extract]

/-- A pair of the table is never a layout and itself. -/
theorem ColorSpec.ne_of_convertible {s t : ColorSpec} (h : ColorSpec.convertible s t = true) : t ≠ s :=
  fun hts => (ColorSpec.convertible_iff.1 h).1 hts.symm

namespace Image

variable {img out : Image} {w h : Nat} {s t : ColorSpec}

/-- The pixels of the buffer, row by row. -/
def pixels (img : Image) : List (List UInt8) :=
  Bytes.groups img.spec.bytesPerPixel img.bytes.data.toList

lemma flatten_pixels (img : Image) : img.pixels.flatten = img.bytes.data.toList :=
  Bytes.flatten_groups img.spec.bytesPerPixel_pos _

@[simp] lemma bytes_mk (w h : Nat) (s : ColorSpec) (d : Option ByteArray) :
    (⟨w, h, s, d⟩ : Image).bytes = d.getD ByteArray.empty := rfl

lemma wellFormed_iff :
    img.WellFormed ↔ img.spec.bufferSize? img.width img.height = some img.bytes.size ∧
      (img.isValid = true ↔ 0 < img.bytes.size) := by
  obtain ⟨w, h, s, d⟩ := img
  cases d with
  | none => simp [WellFormed, isValid]
  | some b =>
    simp only [WellFormed, isValid, bytes_mk, Option.getD_some, Option.isSome_some, true_iff]
    constructor
    · rintro ⟨n, hn, hn0, rfl⟩
      exact ⟨hn, Nat.pos_of_ne_zero hn0⟩
    · rintro ⟨hn, hpos⟩
      exact ⟨b.size, hn, Nat.pos_iff_ne_zero.1 hpos, rfl⟩

lemma WellFormed.bufferSize?_eq (hw : img.WellFormed) :
    img.spec.bufferSize? img.width img.height = some img.bytes.size :=
  (wellFormed_iff.1 hw).1

lemma WellFormed.size_bytes (hw : img.WellFormed) : img.bytes.size = img.bufferSize :=
  (ColorSpec.bufferSize?_eq_some_iff.1 hw.bufferSize?_eq).1

lemma WellFormed.stride_lt (hw : img.WellFormed) : img.stride < addressSpace :=
  (ColorSpec.bufferSize?_eq_some_iff.1 hw.bufferSize?_eq).2.1

lemma WellFormed.bufferSize_lt (hw : img.WellFormed) : img.bufferSize < addressSpace :=
  (ColorSpec.bufferSize?_eq_some_iff.1 hw.bufferSize?_eq).2.2

lemma WellFormed.isValid_iff (hw : img.WellFormed) : img.isValid = true ↔ 0 < img.bufferSize := by
  rw [← hw.size_bytes]
  exact (wellFormed_iff.1 hw).2

lemma WellFormed.isValid_iff_sides (hw : img.WellFormed) :
    img.isValid = true ↔ 0 < img.width ∧ 0 < img.height := by
  have hb := img.spec.bytesPerPixel_pos
  rw [hw.isValid_iff, bufferSize, stride]
  simp only [Nat.pos_iff_ne_zero, ne_eq, Nat.mul_eq_zero, not_or]
  omega

lemma WellFormed.length_bytes (hw : img.WellFormed) :
    img.bytes.data.toList.length = img.width * img.height * img.spec.bytesPerPixel := by
  rw [Array.length_toList, ByteArray.size_data, hw.size_bytes, bufferSize, stride,
    Nat.mul_right_comm]

lemma WellFormed.length_pixels (hw : img.WellFormed) : img.pixels.length = img.width * img.height :=
  Bytes.length_groups img.spec.bytesPerPixel_pos hw.length_bytes

lemma WellFormed.uniform_pixels (hw : img.WellFormed) :
    ∀ p ∈ img.pixels, p.length = img.spec.bytesPerPixel :=
  Bytes.length_of_mem_groups img.spec.bytesPerPixel_pos hw.length_bytes

/-- Two well-formed images with the same sides, layout and pixels are equal. -/
theorem WellFormed.ext {a b : Image} (ha : a.WellFormed) (hb : b.WellFormed) (hw : a.width = b.width)
    (hh : a.height = b.height) (hs : a.spec = b.spec) (hp : a.pixels = b.pixels) : a = b := by
  have hbytes : a.bytes = b.bytes := ByteArray.ext (Array.toList_inj.1 (by
    rw [← flatten_pixels, ← flatten_pixels, hp]))
  obtain ⟨wa, ha', sa, da⟩ := a
  obtain ⟨wb, hb', sb, db⟩ := b
  simp only at hw hh hs
  subst hw hh hs
  have hva := (wellFormed_iff.1 ha).2
  have hvb := (wellFormed_iff.1 hb).2
  simp only [bytes_mk, isValid] at hbytes hva hvb
  cases da <;> cases db <;> simp_all

/-! ### Making images -/

lemma bufferSize?_zero_left (s : ColorSpec) : s.bufferSize? 0 0 = some 0 := by
  simp [ColorSpec.bufferSize?_eq_some_iff, addressSpace]

lemma checkedSize_eq_ok {n : Nat} : checkedSize w h s = .ok n ↔ s.bufferSize? w h = some n := by
  unfold checkedSize
  split <;> simp_all

lemma tryWithSpec_eq_ok {n : Nat} (hn : s.bufferSize? w h = some n) :
    tryWithSpec w h s = .ok (zeroed w h s n) := by
  simp [tryWithSpec, checkedSize_eq_ok.2 hn, Except.map]

lemma wellFormed_zeroed {n : Nat} (hn : s.bufferSize? w h = some n) : (zeroed w h s n).WellFormed := by
  refine ⟨n, hn, ?_⟩
  by_cases hpos : n > 0
  · simp [zeroed, hpos]
    omega
  · simp [zeroed, hpos]
    omega

lemma wellFormed_empty : empty.WellFormed := ⟨0, bufferSize?_zero_left _, rfl⟩

lemma wellFormed_of_tryWithSpec (hm : tryWithSpec w h s = .ok img) : img.WellFormed := by
  unfold tryWithSpec at hm
  cases hc : checkedSize w h s with
  | error e => simp [hc, Except.map] at hm
  | ok n =>
    simp only [hc, Except.map, Except.ok.injEq] at hm
    subst hm
    exact wellFormed_zeroed (checkedSize_eq_ok.1 hc)

lemma wellFormed_of_withSpec (hm : withSpec w h s = .ok img) : img.WellFormed := by
  unfold withSpec at hm
  split at hm
  · cases hm
    exact wellFormed_of_tryWithSpec ‹_›
  · cases hm

lemma wellFormed_of_new (hm : new w h = .ok img) : img.WellFormed := wellFormed_of_withSpec hm

lemma wellFormed_of_ofBytes {b : ByteArray} (hm : ofBytes w h s b = .ok img) : img.WellFormed := by
  unfold ofBytes at hm
  split at hm
  · cases hm
  · rename_i n hn
    split at hm
    · cases hm
    · rename_i hsize
      cases hm
      refine ⟨n, checkedSize_eq_ok.1 hn, ?_⟩
      have hb : b.size = n := by simpa using hsize
      by_cases hpos : n > 0 <;> simp [hpos] <;> omega

/-- A buffer of exactly the layout's size is adopted; an empty one leaves the image without
buffer. -/
lemma ofBytes_of_bufferSize? {b : ByteArray} (hn : s.bufferSize? w h = some b.size) :
    ofBytes w h s b = .ok ⟨w, h, s, if 0 < b.size then some b else none⟩ := by
  simp [ofBytes, checkedSize_eq_ok.2 hn]

lemma wellFormed_of_ofStrided {stride : Nat} {buf : ByteArray}
    (hm : ofStrided s w h stride buf = .ok img) : img.WellFormed := by
  unfold ofStrided dimension at hm
  split_ifs at hm
  · exact wellFormed_of_ofBytes hm
  all_goals cases hm

lemma wellFormed_take_fst (hw : img.WellFormed) : img.take.1.WellFormed := hw

lemma wellFormed_take_snd (img : Image) : img.take.2.WellFormed :=
  ⟨0, bufferSize?_zero_left _, rfl⟩

lemma WellFormed.writeAt (hw : img.WellFormed) (offset : Nat) (src : ByteArray) :
    (img.writeAt offset src).2.WellFormed := by
  unfold Image.writeAt
  split
  · exact hw
  · rename_i buf hbuf
    split
    · rename_i hoff
      have hsize : (buf.extract 0 offset ++ src.extract 0 (min src.size (buf.size - offset)) ++
          buf.extract (offset + min src.size (buf.size - offset)) buf.size).size = buf.size := by
        simp only [ByteArray.size_append, ByteArray.size_extract]
        omega
      obtain ⟨hn, hv⟩ := wellFormed_iff.1 hw
      simp only [bytes, hbuf, Option.getD_some] at hn hv
      refine wellFormed_iff.2 ⟨?_, ?_⟩
      · simpa [bytes, hsize] using hn
      · simpa [bytes, isValid, hsize, hbuf] using hv
    · exact hw

lemma wellFormed_of_new? {d : ByteArray} {v : ImageView} (hm : ImageView.new? w h s d = .ok v) :
    v.toImage.WellFormed := by
  unfold ImageView.new? at hm
  split at hm
  · cases hm
  · rename_i n hn
    split at hm
    · cases hm
    · rename_i hsize
      cases hm
      have hd : d.size = n := by simpa using hsize
      refine wellFormed_iff.2 ⟨?_, ?_⟩
      · by_cases he : d.isEmpty <;> simp_all [ImageView.toImage, ByteArray.isEmpty, checkedSize_eq_ok]
      · by_cases he : d.isEmpty <;> simp_all [ImageView.toImage, ByteArray.isEmpty, isValid]
        omega

/-- An image seen through its view and copied back is the image itself. -/
lemma WellFormed.toImage_view (hw : img.WellFormed) : img.view.toImage = img := by
  obtain ⟨w, h, s, d⟩ := img
  have hv := (wellFormed_iff.1 hw).2
  cases d with
  | none => rfl
  | some b =>
    simp only [isValid, bytes_mk, Option.getD_some, Option.isSome_some, true_iff] at hv
    simp [view, ImageView.toImage, ByteArray.isEmpty, bytes, Nat.ne_of_gt hv]

/-! ### Cropping -/

/-- A rectangle no larger than a buffer that fits the address space fits it too. -/
lemma bufferSize?_of_le {n w' h' : Nat} (hn : s.bufferSize? w h = some n) (hw : w' ≤ w) (hh : h' ≤ h) :
    s.bufferSize? w' h' = some (w' * s.bytesPerPixel * h') := by
  obtain ⟨rfl, hrow, hsize⟩ := ColorSpec.bufferSize?_eq_some_iff.1 hn
  have hrow' : w' * s.bytesPerPixel ≤ w * s.bytesPerPixel := Nat.mul_le_mul_right _ hw
  have hsize' : w' * s.bytesPerPixel * h' ≤ w * s.bytesPerPixel * h := Nat.mul_le_mul hrow' hh
  exact ColorSpec.bufferSize?_eq_some_iff.2 ⟨rfl, by omega, by omega⟩

/-- The rectangle a crop keeps fits wherever the whole image fits. -/
lemma bufferSize?_crop {n : Nat} (hn : s.bufferSize? w h = some n) (x y cw ch : Nat) :
    s.bufferSize? (min cw (w - x)) (min ch (h - y)) =
      some (min cw (w - x) * s.bytesPerPixel * min ch (h - y)) :=
  bufferSize?_of_le hn (by omega) (by omega)

lemma foldl_append_toList (L : List ByteArray) (acc : ByteArray) :
    (L.foldl (· ++ ·) acc).data.toList = acc.data.toList ++ (L.map fun b => b.data.toList).flatten := by
  induction L generalizing acc with
  | nil => simp
  | cons b L ih => simp [ih, List.append_assoc]

@[simp] lemma crop_width (img : Image) (x y cw ch : Nat) :
    (img.crop x y cw ch).width = min cw (img.width - x) := by
  unfold crop
  dsimp only
  split <;> rfl

@[simp] lemma crop_height (img : Image) (x y cw ch : Nat) :
    (img.crop x y cw ch).height = min ch (img.height - y) := by
  unfold crop
  dsimp only
  split <;> rfl

@[simp] lemma crop_spec (img : Image) (x y cw ch : Nat) : (img.crop x y cw ch).spec = img.spec := by
  unfold crop
  dsimp only
  split <;> rfl

/-- Cropping a well-formed image copies the rectangle of its pixels; a rectangle without pixels
gives an image without buffer. -/
theorem WellFormed.crop_eq (hw : img.WellFormed) (x y cw ch : Nat) :
    img.crop x y cw ch = ⟨min cw (img.width - x), min ch (img.height - y), img.spec,
      if 0 < min cw (img.width - x) ∧ 0 < min ch (img.height - y) then
        some (Bytes.window img.width x y (min cw (img.width - x)) (min ch (img.height - y))
          img.pixels).flatten.toByteArray
      else none⟩ := by
  have hb := img.spec.bytesPerPixel_pos
  unfold crop
  dsimp only
  by_cases hc : 0 < min cw (img.width - x) ∧ 0 < min ch (img.height - y)
  · obtain ⟨src, hsrc⟩ := Option.isSome_iff_exists.1 (hw.isValid_iff_sides.2 ⟨by omega, by omega⟩)
    have hpos : 0 < min cw (img.width - x) * img.spec.bytesPerPixel * min ch (img.height - y) :=
      Nat.mul_pos (Nat.mul_pos hc.1 hb) hc.2
    simp only [hsrc, zeroed, if_pos hpos, hc, and_self, if_true]
    congr 2
    apply ByteArray.ext
    rw [← Array.toList_inj, foldl_append_toList, List.data_toByteArray, List.toList_toArray,
      Bytes.flatten_window hw.uniform_pixels, flatten_pixels]
    simp only [bytes, hsrc, Option.getD_some, ByteArray.data_empty, Array.toList_empty,
      List.nil_append, List.map_map, List.flatMap_def]
    congr 1
    refine List.map_congr_left fun i _ => ?_
    simp only [Function.comp_apply, ByteArray.data_extract, Array.toList_extract,
      List.extract_eq_take_drop, stride, Nat.add_sub_cancel_left, Nat.add_mul, Nat.mul_assoc]
  · have hz : ¬ 0 < min cw (img.width - x) * img.spec.bytesPerPixel * min ch (img.height - y) := by
      intro hpos
      apply hc
      constructor <;> refine Nat.pos_of_ne_zero fun h0 => ?_ <;> simp [h0] at hpos
    simp only [zeroed, if_neg hz, hc, if_false]
    split
    next hnone => cases hnone
    next => rfl

theorem WellFormed.crop (hw : img.WellFormed) (x y cw ch : Nat) : (img.crop x y cw ch).WellFormed := by
  have hb := img.spec.bytesPerPixel_pos
  have hsize := bufferSize?_crop hw.bufferSize?_eq x y cw ch
  rw [hw.crop_eq]
  refine wellFormed_iff.2 ?_
  by_cases hc : 0 < min cw (img.width - x) ∧ 0 < min ch (img.height - y)
  · -- the rectangle holds `ch' * cw'` pixels of the source, each of its pixel size
    have hlen := Bytes.length_window hw.length_pixels
      (show x + min cw (img.width - x) ≤ img.width by omega)
      (show y + min ch (img.height - y) ≤ img.height by omega)
    simp only [hc, and_self, if_true, bytes_mk, Option.getD_some, List.size_toByteArray,
      length_flatten_uniform _ (fun p hp => hw.uniform_pixels p (Bytes.mem_window hp)), hlen, isValid,
      Option.isSome_some, true_iff, hsize]
    refine ⟨congrArg some (by rw [Nat.mul_right_comm, Nat.mul_comm (min ch _)]), ?_⟩
    exact Nat.mul_pos (Nat.mul_pos hc.2 hc.1) hb
  · have hz : min cw (img.width - x) * img.spec.bytesPerPixel * min ch (img.height - y) = 0 := by
      rcases Nat.eq_zero_or_pos (min cw (img.width - x)) with h0 | h0
      · simp [h0]
      · rcases Nat.eq_zero_or_pos (min ch (img.height - y)) with h1 | h1
        · simp [h1]
        · exact absurd ⟨h0, h1⟩ hc
    rw [if_neg hc]
    simp [hsize, hz, isValid]

/-- The pixels of a crop are the rectangle of the source's pixels. -/
theorem WellFormed.pixels_crop (hw : img.WellFormed) (x y cw ch : Nat) :
    (img.crop x y cw ch).pixels =
      Bytes.window img.width x y (min cw (img.width - x)) (min ch (img.height - y)) img.pixels := by
  rw [hw.crop_eq, pixels]
  by_cases hc : 0 < min cw (img.width - x) ∧ 0 < min ch (img.height - y)
  · simp only [hc, and_self, if_true, bytes_mk, Option.getD_some, List.data_toByteArray,
      List.toList_toArray]
    exact Bytes.groups_flatten img.spec.bytesPerPixel_pos _
      (fun p hp => hw.uniform_pixels p (Bytes.mem_window hp))
  · rw [if_neg hc, Bytes.window_eq_nil _ (by omega)]
    simp [Bytes.groups_nil]

/-! ### Conversion -/

/-- A layout of `t` for the sides of a well-formed image has a positive size exactly when the
image holds pixels. -/
lemma WellFormed.pos_iff_isValid (hw : img.WellFormed) {n : Nat}
    (hn : t.bufferSize? img.width img.height = some n) : 0 < n ↔ img.isValid = true := by
  obtain ⟨rfl, -, -⟩ := ColorSpec.bufferSize?_eq_some_iff.1 hn
  have hb := t.bytesPerPixel_pos
  rw [hw.isValid_iff_sides]
  simp only [Nat.pos_iff_ne_zero, ne_eq, Nat.mul_eq_zero, not_or]
  omega

lemma convert_of_not_canConvert (hc : img.spec.canConvert t = false) :
    img.convert t = .error (.unsupportedConversion img.spec t) := by
  have hst : t ≠ img.spec := fun h => by simp [h, ColorSpec.canConvert] at hc
  have hct : ColorSpec.convertible img.spec t = false := by
    simpa [ColorSpec.canConvert, hst.symm] using hc
  simp [convert, hst, hct]

lemma convert_of_bufferSize?_eq_none (hct : ColorSpec.convertible img.spec t = true)
    (hn : t.bufferSize? img.width img.height = none) :
    img.convert t = .error (.invalidInput (toString img.width ++ "x" ++ toString img.height ++ " " ++
      t.name ++ " image size overflows")) := by
  have hst := ColorSpec.ne_of_convertible hct
  simp [convert, hst, hct, tryWithSpec, checkedSize, hn, Except.map]

/-- Converting a well-formed image through the table converts its buffer, when the target's size
fits the address space. The same layout gives the image back. -/
theorem WellFormed.convert_of_canConvert (hw : img.WellFormed) (hc : img.spec.canConvert t = true)
    {n : Nat} (hn : t.bufferSize? img.width img.height = some n) :
    img.convert t = .ok ⟨img.width, img.height, t,
      img.data.map fun src => (ColorSpec.convertBytes img.spec t src.data.toList).toByteArray⟩ := by
  rcases ColorSpec.canConvert_iff.1 hc with rfl | hct
  · simp [convert]
  have hst := ColorSpec.ne_of_convertible hct
  have hpos := hw.pos_iff_isValid hn
  simp only [convert, if_neg hst, hct, Bool.not_true, Bool.false_eq_true, if_false,
    tryWithSpec_eq_ok hn, zeroed]
  cases hd : img.data with
  | none =>
    have hz : ¬ n > 0 := by simp [isValid, hd] at hpos; omega
    simp [hz]
  | some src =>
    have hp : n > 0 := hpos.2 (by simp [isValid, hd])
    simp [hp]

theorem WellFormed.convert (hw : img.WellFormed) (hm : img.convert t = .ok out) : out.WellFormed := by
  cases hc : img.spec.canConvert t
  · rw [convert_of_not_canConvert hc] at hm
    cases hm
  cases hn : t.bufferSize? img.width img.height with
  | none =>
    rcases ColorSpec.canConvert_iff.1 hc with rfl | hct
    · rw [hw.bufferSize?_eq] at hn
      cases hn
    rw [convert_of_bufferSize?_eq_none hct hn] at hm
    cases hm
  | some n =>
    rw [hw.convert_of_canConvert hc hn] at hm
    cases hm
    have hpos := hw.pos_iff_isValid hn
    obtain ⟨rfl, -, -⟩ := ColorSpec.bufferSize?_eq_some_iff.1 hn
    refine wellFormed_iff.2 ?_
    cases hd : img.data with
    | none =>
      have hz : img.width * t.bytesPerPixel * img.height = 0 := by
        simp only [isValid, hd, Option.isSome_none, Bool.false_eq_true, iff_false] at hpos
        omega
      simp [hz, isValid, hn]
    | some src =>
      have hsrc : src.data.toList.length = img.width * img.height * img.spec.bytesPerPixel := by
        simpa [bytes, hd] using hw.length_bytes
      have hlen := ColorSpec.length_convertBytes hc hsrc
      have hsize : img.width * img.height * t.bytesPerPixel = img.width * t.bytesPerPixel * img.height :=
        Nat.mul_right_comm _ _ _
      have hp : 0 < img.width * t.bytesPerPixel * img.height := hpos.2 (by simp [isValid, hd])
      simp only [Option.map_some, bytes_mk, Option.getD_some, List.size_toByteArray, hlen, hsize,
        isValid, Option.isSome_some, true_iff]
      exact ⟨hn, hp⟩

end Image

end Pixmap
