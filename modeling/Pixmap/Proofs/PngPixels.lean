import Pixmap.Proofs.StoredRows

/-! The pixel bytes through the encoder's rows and the decoder's expansion: the decoded buffer is
each source pixel turned, expanded and repacked (`toList_repack_decoded`). -/
namespace Pixmap

/-- A fold that appends a block for every element builds the blocks one after another. -/
theorem toList_foldl_append {α : Type} {g : ByteArray → α → ByteArray} {f : α → List UInt8} :
    ∀ (l : List α), (∀ out, ∀ a ∈ l, (g out a).data.toList = out.data.toList ++ f a) →
      ∀ init : ByteArray, (l.foldl g init).data.toList = init.data.toList ++ l.flatMap f
  | [], _, init => by simp
  | a :: l, hg, init => by
    rw [List.foldl_cons, toList_foldl_append l fun out b hb => hg out b (by simp [hb]), hg _ a (by simp),
      List.flatMap_cons, List.append_assoc]

theorem flatMap_range_length {α β : Type} [Inhabited α] (f : α → List β) :
    ∀ Q : List α, (List.range Q.length).flatMap (fun p => f (Q[p]?.getD default)) = Q.flatMap f
  | [] => rfl
  | q :: Q => by
    rw [List.length_cons, List.range_succ_eq_map, List.flatMap_cons, List.flatMap_map, List.flatMap_cons]
    simp only [List.getElem?_cons_succ, List.getElem?_cons_zero, Option.getD_some]
    rw [flatMap_range_length f Q]

namespace Bytes

variable {α : Type} {n : Nat}

theorem groups_append (hn : 0 < n) {b : List α} : ∀ (k : Nat) (a : List α), a.length = k * n →
    groups n (a ++ b) = groups n a ++ groups n b
  | 0, a, h => by
    rw [List.eq_nil_of_length_eq_zero (l := a) (by simpa using h)]
    simp [groups_nil]
  | k + 1, a, h => by
    have hne : a ≠ [] := List.ne_nil_of_length_pos (by rw [h]; exact Nat.mul_pos (Nat.succ_pos k) hn)
    have hlen : n ≤ a.length := by rw [h, Nat.succ_mul]; omega
    rw [groups_of_pos hn (by simp [hne]), groups_of_pos hn hne, List.take_append_of_le_length hlen,
      List.drop_append_of_le_length hlen, groups_append hn k (a.drop n) (by rw [List.length_drop, h, Nat.succ_mul]; omega),
      List.cons_append]

/-- Groups of `n` do not cross the joins of lists whose lengths are multiples of `n`. -/
theorem groups_flatten_dvd (hn : 0 < n) : ∀ (L : List (List α)), (∀ l ∈ L, n ∣ l.length) →
    groups n L.flatten = L.flatMap (groups n)
  | [], _ => by simp [groups_nil]
  | l :: L, hL => by
    obtain ⟨k, hk⟩ := hL l (by simp)
    rw [List.flatten_cons, groups_append hn k l (by rw [hk, Nat.mul_comm]), List.flatMap_cons,
      groups_flatten_dvd hn L fun l' hl' => hL l' (by simp [hl'])]

end Bytes

namespace Png

/-- 16-bit samples turned around, low byte first to high byte first or back. -/
def swapPairs (l : List UInt8) : List UInt8 := (Bytes.groups 2 l).flatMap List.reverse

theorem swapPairs_flatten {L : List (List UInt8)} (hL : ∀ l ∈ L, 2 ∣ l.length) :
    swapPairs L.flatten = L.flatMap swapPairs := by
  rw [swapPairs, Bytes.groups_flatten_dvd (by decide) L hL, List.flatMap_assoc]
  rfl

theorem highBytes_flatten {L : List (List UInt8)} (hL : ∀ l ∈ L, 2 ∣ l.length) :
    highBytes L.flatten = L.flatMap highBytes := by
  rw [highBytes, Bytes.groups_flatten_dvd (by decide) L hL, List.map_flatMap]
  rfl

/-- A row as the encoder stores it: at 16 bits each sample is turned high byte first. -/
def encodedRow (spec : ColorSpec) (stride : Nat) (row : ByteArray) : List UInt8 :=
  match spec.depth with
  | .bits8 => row.data.toList
  | .bits16 => (List.range (stride / 2)).flatMap fun k => [row[2 * k + 1]?.getD 0, row[2 * k]?.getD 0]

theorem toList_foldl_swap (row : ByteArray) (l : List Nat) (init : ByteArray) :
    (l.foldl (fun out k => (out.push (row[2 * k + 1]?.getD 0)).push (row[2 * k]?.getD 0)) init).data.toList =
      init.data.toList ++ l.flatMap fun k => [row[2 * k + 1]?.getD 0, row[2 * k]?.getD 0] :=
  toList_foldl_append l (fun out k _ => by simp) init

/-- Rows of `s` bytes read off a buffer of `h` such rows put back together give the buffer. -/
theorem flatten_rows {px : ByteArray} {h s : Nat} (hs : 0 < s) (hpx : px.size = h * s) :
    ((List.range h).map fun r => (px.extract (r * s) (r * s + s)).data.toList).flatten = px.data.toList := by
  have hlen : px.data.toList.length = h * s := by simpa using hpx
  conv_rhs => rw [← Bytes.flatten_groups hs px.data.toList, Bytes.groups_eq_map_range hs h _ hlen]
  congr 1
  refine List.map_congr_left fun r _ => ?_
  rw [ByteArray.toList_extract, Nat.add_sub_cancel_left]

theorem encodedRow_bits16 {spec : ColorSpec} (hd : spec.depth = .bits16) {row : ByteArray} {stride : Nat}
    (hrow : row.size = stride) (heven : 2 ∣ stride) :
    encodedRow spec stride row = swapPairs row.data.toList := by
  obtain ⟨m, rfl⟩ := heven
  have hlen : row.data.toList.length = m * 2 := by simp [hrow, Nat.mul_comm]
  rw [encodedRow, hd, swapPairs, Bytes.groups_eq_map_range (by decide) m _ hlen, List.flatMap_map,
    Nat.mul_div_cancel_left _ (by decide)]
  refine List.flatMap_congr fun i hi => ?_
  have hi : i < m := List.mem_range.1 hi
  have h1 : 2 * i + 1 < row.data.toList.length := by omega
  rw [← ByteArray.getElem?_toList, ← ByteArray.getElem?_toList,
    List.drop_eq_getElem_cons (by omega : i * 2 < row.data.toList.length),
    List.drop_eq_getElem_cons (by omega : i * 2 + 1 < row.data.toList.length),
    List.getElem?_eq_getElem h1, List.getElem?_eq_getElem (by omega : 2 * i < row.data.toList.length)]
  simp [Nat.mul_comm]

/-- Bytes made of rows of `len` bytes, each behind a zero, hold those rows unfiltered. -/
theorem unfiltered_of_toList {S : ByteArray} {R : List ByteArray} {len : Nat}
    (hR : ∀ row ∈ R, row.size = len) (hS : S.data.toList = R.flatMap fun row => 0 :: row.data.toList) :
    Unfiltered S R len := by
  have hblocks : ∀ l ∈ R.map (fun row => 0 :: row.data.toList), l.length = len + 1 :=
    uniform_map fun row hrow => by simp [hR row hrow]
  rw [List.flatMap_def] at hS
  have hdrop : ∀ r (hr : r < R.length), S.data.toList.drop (r * (len + 1)) =
      0 :: R[r].data.toList ++ ((R.map fun row => 0 :: row.data.toList).drop (r + 1)).flatten := by
    intro r hr
    rw [hS, drop_flatten_uniform _ hblocks, List.drop_eq_getElem_cons (by simpa using hr)]
    simp
  refine ⟨?_, fun r hr => ?_, fun r hr => ?_⟩
  · have h := congrArg List.length hS
    rw [length_flatten_uniform _ hblocks, List.length_map] at h
    simpa using h
  · rw [← ByteArray.getElem?_toList, ← List.head?_drop, hdrop r hr]
    rfl
  · apply ByteArray.ext
    apply Array.toList_inj.1
    rw [ByteArray.toList_extract, Nat.add_sub_cancel_left,
      ← List.drop_drop, hdrop r hr, List.cons_append, List.drop_succ_cons, List.drop_zero,
      List.take_left' (by simp [hR _ (List.getElem_mem hr)])]

/-- Samples as the encoder stores them: at 16 bits high byte first. -/
def storedSamples (spec : ColorSpec) (l : List UInt8) : List UInt8 :=
  match spec.depth with
  | .bits8 => l
  | .bits16 => swapPairs l

/-- Samples as the decoder expands them: at 16 bits cut to the high byte when 8 bits are asked for. -/
def keptSamples (strip16 : Bool) (spec : ColorSpec) (l : List UInt8) : List UInt8 :=
  if spec.depth = .bits16 ∧ strip16 = true then highBytes l else l

theorem two_dvd_bytesPerPixel {spec : ColorSpec} (hd : spec.depth = .bits16) : 2 ∣ spec.bytesPerPixel := by
  rw [ColorSpec.bytesPerPixel, hd]
  exact Dvd.intro_left _ rfl

theorem length_swapPairs {l : List UInt8} {k : Nat} (hl : l.length = k * 2) : (swapPairs l).length = k * 2 := by
  rw [swapPairs, List.flatMap_def, length_flatten_uniform (k := 2) _ (uniform_map fun g hg => by
    rw [List.length_reverse, Bytes.length_of_mem_groups (by decide) hl g hg]), List.length_map,
    Bytes.length_groups (by decide) hl]

theorem length_highBytes {l : List UInt8} {k : Nat} (hl : l.length = k * 2) : (highBytes l).length = k := by
  rw [highBytes, List.length_map, Bytes.length_groups (by decide) hl]

theorem length_storedSamples (spec : ColorSpec) {l : List UInt8} (hl : spec.depth = .bits16 → 2 ∣ l.length) :
    (storedSamples spec l).length = l.length := by
  unfold storedSamples
  split
  · rfl
  · next hd =>
    obtain ⟨k, hk⟩ := hl hd
    rw [length_swapPairs (k := k) (by rw [hk, Nat.mul_comm]), hk, Nat.mul_comm]

theorem storedSamples_flatten (spec : ColorSpec) {L : List (List UInt8)}
    (hL : ∀ l ∈ L, spec.depth = .bits16 → 2 ∣ l.length) :
    storedSamples spec L.flatten = L.flatMap (storedSamples spec) := by
  unfold storedSamples
  split
  · simp
  · next hd => exact swapPairs_flatten fun l hl => hL l hl hd

theorem keptSamples_flatten (strip16 : Bool) (spec : ColorSpec) {L : List (List UInt8)}
    (hL : ∀ l ∈ L, spec.depth = .bits16 → 2 ∣ l.length) :
    keptSamples strip16 spec L.flatten = L.flatMap (keptSamples strip16 spec) := by
  unfold keptSamples
  by_cases hc : spec.depth = .bits16 ∧ strip16 = true
  · simp only [hc, and_self, if_true]
    exact highBytes_flatten fun l hl => hL l hl hc.1
  · simp [hc]

theorem pixelsOf_eq_groups {raw : ByteArray} {n w : Nat} (hn : 0 < n) (hraw : raw.size = w * n) :
    pixelsOf raw n w = Bytes.groups n raw.data.toList := by
  rw [Bytes.groups_eq_map_range hn w _ (by simpa using hraw), pixelsOf]
  refine List.map_congr_left fun i _ => ?_
  rw [ByteArray.toList_extract, Nat.add_sub_cancel_left]

theorem encodedRow_eq {spec : ColorSpec} {row : ByteArray} {stride : Nat} (hrow : row.size = stride)
    (heven : spec.depth = .bits16 → 2 ∣ stride) :
    encodedRow spec stride row = storedSamples spec row.data.toList := by
  cases hd : spec.depth with
  | bits8 => simp [encodedRow, storedSamples, hd]
  | bits16 => rw [encodedRow_bits16 hd hrow (heven hd), storedSamples, hd]

/-- The rows the encoder stores for the buffer `px` of an image of sides `w`, `h` and layout
`spec`. -/
def encodedRows (spec : ColorSpec) (w h : Nat) (px : ByteArray) : List ByteArray :=
  (List.range h).map fun r => (encodedRow spec (w * spec.bytesPerPixel)
    (px.extract (r * (w * spec.bytesPerPixel)) (r * (w * spec.bytesPerPixel) + w * spec.bytesPerPixel))).toByteArray

section Encoded

variable {spec : ColorSpec} {w h : Nat} {px : ByteArray}

theorem toList_encodedRow (hpx : px.size = h * (w * spec.bytesPerPixel)) {r : Nat} (hr : r < h) :
    encodedRow spec (w * spec.bytesPerPixel)
        (px.extract (r * (w * spec.bytesPerPixel)) (r * (w * spec.bytesPerPixel) + w * spec.bytesPerPixel)) =
      storedSamples spec (px.extract (r * (w * spec.bytesPerPixel))
        (r * (w * spec.bytesPerPixel) + w * spec.bytesPerPixel)).data.toList := by
  have hend : r * (w * spec.bytesPerPixel) + w * spec.bytesPerPixel ≤ px.size := hpx ▸ slot_end_le hr
  refine encodedRow_eq (by simp only [ByteArray.size_extract]; omega) fun hd => ?_
  exact Dvd.dvd.mul_left (two_dvd_bytesPerPixel hd) w

theorem size_encodedRows (hpx : px.size = h * (w * spec.bytesPerPixel)) :
    ∀ row ∈ encodedRows spec w h px, row.size = w * spec.bytesPerPixel := by
  intro row hrow
  obtain ⟨r, hr, rfl⟩ := List.mem_map.1 hrow
  have hr := List.mem_range.1 hr
  have hend : r * (w * spec.bytesPerPixel) + w * spec.bytesPerPixel ≤ px.size := hpx ▸ slot_end_le hr
  rw [List.size_toByteArray, toList_encodedRow hpx hr, length_storedSamples]
  · simp only [Array.length_toList, ByteArray.size_data, ByteArray.size_extract]
    omega
  · intro hd
    simp only [Array.length_toList, ByteArray.size_data, ByteArray.size_extract]
    rw [show min (r * (w * spec.bytesPerPixel) + w * spec.bytesPerPixel) px.size - r * (w * spec.bytesPerPixel) =
      w * spec.bytesPerPixel by omega]
    exact Dvd.dvd.mul_left (two_dvd_bytesPerPixel hd) w

/-- The data the codec hands the encoder is the image's buffer as the encoder stores it. -/
theorem toList_wireData {img : Image} (heven : img.spec.depth = .bits16 → 2 ∣ img.bytes.size) :
    (PngCodec.wireData img).data.toList = storedSamples img.spec img.bytes.data.toList := by
  rw [← encodedRow_eq rfl heven]
  cases hd : img.spec.depth with
  | bits8 => simp only [PngCodec.wireData, encodedRow, hd]
  | bits16 =>
    simp only [PngCodec.wireData, encodedRow, hd, toList_foldl_swap]
    rfl

/-- Row `r` of the data the codec hands the encoder is row `r` of the image as the encoder
stores it. -/
theorem extract_wireData {img : Image} (hw : 0 < img.width)
    (hpx : img.bytes.size = img.height * (img.width * img.spec.bytesPerPixel)) {r : Nat} (hr : r < img.height) :
    ((PngCodec.wireData img).extract (r * (img.width * img.spec.bytesPerPixel))
        (r * (img.width * img.spec.bytesPerPixel) + img.width * img.spec.bytesPerPixel)).data.toList =
      encodedRow img.spec (img.width * img.spec.bytesPerPixel)
        (img.bytes.extract (r * (img.width * img.spec.bytesPerPixel))
          (r * (img.width * img.spec.bytesPerPixel) + img.width * img.spec.bytesPerPixel)) := by
  have hs : 0 < img.width * img.spec.bytesPerPixel := Nat.mul_pos hw img.spec.bytesPerPixel_pos
  have heven : img.spec.depth = .bits16 → 2 ∣ img.width * img.spec.bytesPerPixel := fun hd =>
    Dvd.dvd.mul_left (two_dvd_bytesPerPixel hd) _
  have hrows : ∀ l ∈ (List.range img.height).map (fun r => (img.bytes.extract (r * (img.width * img.spec.bytesPerPixel))
      (r * (img.width * img.spec.bytesPerPixel) + img.width * img.spec.bytesPerPixel)).data.toList),
      l.length = img.width * img.spec.bytesPerPixel := by
    intro l hl
    obtain ⟨r, hr, rfl⟩ := List.mem_map.1 hl
    have hend := hpx ▸ slot_end_le (k := img.width * img.spec.bytesPerPixel) (List.mem_range.1 hr)
    simp only [Array.length_toList, ByteArray.size_data, ByteArray.size_extract]
    omega
  have hstored : ∀ l ∈ ((List.range img.height).map (fun r => (img.bytes.extract (r * (img.width * img.spec.bytesPerPixel))
      (r * (img.width * img.spec.bytesPerPixel) + img.width * img.spec.bytesPerPixel)).data.toList)).map
        (storedSamples img.spec), l.length = img.width * img.spec.bytesPerPixel := by
    intro l hl
    obtain ⟨l', hl', rfl⟩ := List.mem_map.1 hl
    rw [length_storedSamples _ fun hd => hrows l' hl' ▸ heven hd, hrows l' hl']
  have hbuf : img.spec.depth = .bits16 → 2 ∣ img.bytes.size := fun hd => by
    rw [hpx]
    exact Dvd.dvd.mul_left (heven hd) _
  rw [ByteArray.toList_extract, toList_wireData hbuf, ← flatten_rows hs hpx,
    storedSamples_flatten _ fun l hl hd => hrows l hl ▸ heven hd, List.flatMap_def,
    Nat.add_sub_cancel_left, drop_take_flatten_uniform hstored (by simpa using hr)]
  simp only [List.getElem_map, List.getElem_range]
  rw [toList_encodedRow hpx hr]

theorem stride_settings (config : CodecConfig) (img : Image) :
    ((PngCodec.settings config img).width * (PngCodec.settings config img).color.samples *
        (PngCodec.settings config img).depth.bits + 7) / 8 =
      img.width * img.spec.bytesPerPixel := by
  obtain ⟨w, h, ⟨f, d⟩, data⟩ := img
  cases f <;> cases d <;> simp only [PngCodec.settings, ColorType.ofFormat, BitDepth.ofChannelDepth,
    ColorType.samples, BitDepth.bits, ColorSpec.bytesPerPixel, PixelFormat.channels, ChannelDepth.bytes] <;> omega

/-- The rows the encoder writes for an image: each behind a zero, its samples stored. -/
theorem toList_scanlines (config : CodecConfig) {img : Image} (hw : 0 < img.width)
    (hpx : img.bytes.size = img.height * (img.width * img.spec.bytesPerPixel)) :
    (scanlines (PngCodec.settings config img)).data.toList = (List.range img.height).flatMap fun r =>
      0 :: encodedRow img.spec (img.width * img.spec.bytesPerPixel)
        (img.bytes.extract (r * (img.width * img.spec.bytesPerPixel))
          (r * (img.width * img.spec.bytesPerPixel) + img.width * img.spec.bytesPerPixel)) := by
  unfold scanlines
  dsimp only
  rw [stride_settings, toList_foldl_append]
  · rfl
  intro out r hr
  have hrow := extract_wireData hw hpx (List.mem_range.1 hr)
  simp only [ByteArray.data_append, Array.toList_append, ByteArray.data_push, Array.toList_push]
  rw [List.append_assoc, List.singleton_append]
  exact congrArg (fun l => out.data.toList ++ 0 :: l) hrow

/-- The encoder's image data holds its rows unfiltered. -/
theorem unfiltered_scanlines (config : CodecConfig) {img : Image} (hw : 0 < img.width)
    (hpx : img.bytes.size = img.height * (img.width * img.spec.bytesPerPixel)) :
    Unfiltered (scanlines (PngCodec.settings config img)) (encodedRows img.spec img.width img.height img.bytes)
      (img.width * img.spec.bytesPerPixel) := by
  refine unfiltered_of_toList (size_encodedRows hpx) ?_
  rw [toList_scanlines config hw hpx, encodedRows, List.flatMap_map]
  simp

end Encoded

theorem flatten_pixelsOf {raw : ByteArray} {n w : Nat} (hn : 0 < n) (hraw : raw.size = w * n) :
    (pixelsOf raw n w).flatten = raw.data.toList := by
  rw [pixelsOf_eq_groups hn hraw, Bytes.flatten_groups hn]

theorem flatMap_pixelsOf_high {raw : ByteArray} {n w : Nat} (hn : 0 < n) (heven : 2 ∣ n)
    (hraw : raw.size = w * n) : (pixelsOf raw n w).flatMap highBytes = highBytes raw.data.toList := by
  have hlen : raw.data.toList.length = w * n := by simpa using hraw
  rw [← highBytes_flatten fun l hl => ?_, flatten_pixelsOf hn hraw]
  rw [pixelsOf_eq_groups hn hraw] at hl
  rw [Bytes.length_of_mem_groups hn hlen l hl]
  exact heven

theorem rowBytes_encoded (w h w' : Nat) (spec : ColorSpec) :
    (encodedHeader w h spec).rowBytes w' = w' * spec.bytesPerPixel := by
  obtain ⟨f, d⟩ := spec
  cases f <;> cases d <;> simp [Header.rowBytes, Header.bitsPerPixel, encodedHeader, ColorType.ofFormat,
    BitDepth.ofChannelDepth, BitDepth.bits, ColorType.samples, ColorSpec.bytesPerPixel, PixelFormat.channels,
    ChannelDepth.bytes] <;> omega

theorem expandRow_encoded (strip16 : Bool) {w h : Nat} {spec : ColorSpec} {raw : ByteArray}
    (hraw : raw.size = w * spec.bytesPerPixel) :
    (({ header := encodedHeader w h spec } : Info).expandRow strip16 raw w).data.toList =
      keptSamples strip16 spec raw.data.toList := by
  have hrow := rowBytes_encoded w h w spec
  obtain ⟨f, d⟩ := spec
  cases f <;> cases d <;>
    simp only [ColorSpec.bytesPerPixel, PixelFormat.channels, ChannelDepth.bytes] at hraw hrow <;>
    simp [Info.expandRow, Info.expandSamples, encodedHeader, ColorType.ofFormat, BitDepth.ofChannelDepth,
      BitDepth.bits, keptSamples] at hrow ⊢
  case monochromatic.bits8 => exact flatten_pixelsOf (n := 1) (by decide) (by rw [hraw, Nat.mul_one])
  case rgb.bits8 => exact flatten_pixelsOf (by decide) hraw
  case monochromatic.bits16 | rgb.bits16 =>
    split
    · exact flatMap_pixelsOf_high (by decide) (by decide) hraw
    · simpa using flatten_pixelsOf (by decide) hraw
  case rgba.bits8 => omega
  case rgba.bits16 => rw [hrow, List.take_of_length_le (by simp [hraw])]

section Frame

variable {spec : ColorSpec} {w h : Nat} {px : ByteArray}

/-- The rows of `px` as stored, joined, are the samples of `px` turned as the encoder turns them. -/
theorem flatMap_encodedRows (hpx : px.size = h * (w * spec.bytesPerPixel)) (f : List UInt8 → List UInt8) :
    (encodedRows spec w h px).flatMap (fun row => f row.data.toList) =
      (List.range h).flatMap fun r => f (storedSamples spec
        (px.extract (r * (w * spec.bytesPerPixel)) (r * (w * spec.bytesPerPixel) + w * spec.bytesPerPixel)).data.toList) := by
  rw [encodedRows, List.flatMap_map]
  refine List.flatMap_congr fun r hr => ?_
  rw [List.data_toByteArray, List.toList_toArray, toList_encodedRow hpx (List.mem_range.1 hr)]

theorem toList_assemble_encoded (strip16 : Bool) (hw : 0 < w) (hpx : px.size = h * (w * spec.bytesPerPixel)) :
    (assemble { header := encodedHeader w h spec } strip16 (encodedRows spec w h px)).data.toList =
      keptSamples strip16 spec (storedSamples spec px.data.toList) := by
  have hs : 0 < w * spec.bytesPerPixel := Nat.mul_pos hw spec.bytesPerPixel_pos
  have hrows : ∀ l ∈ (List.range h).map (fun r => (px.extract (r * (w * spec.bytesPerPixel))
      (r * (w * spec.bytesPerPixel) + w * spec.bytesPerPixel)).data.toList),
      spec.depth = .bits16 → 2 ∣ l.length := by
    intro l hl hd
    obtain ⟨r, hr, rfl⟩ := List.mem_map.1 hl
    have hend : r * (w * spec.bytesPerPixel) + w * spec.bytesPerPixel ≤ px.size :=
      hpx ▸ slot_end_le (List.mem_range.1 hr)
    simp only [Array.length_toList, ByteArray.size_data, ByteArray.size_extract]
    rw [show min (r * (w * spec.bytesPerPixel) + w * spec.bytesPerPixel) px.size - r * (w * spec.bytesPerPixel) =
      w * spec.bytesPerPixel by omega]
    exact Dvd.dvd.mul_left (two_dvd_bytesPerPixel hd) w
  have hstored : ∀ l ∈ ((List.range h).map (fun r => (px.extract (r * (w * spec.bytesPerPixel))
      (r * (w * spec.bytesPerPixel) + w * spec.bytesPerPixel)).data.toList)).map (storedSamples spec),
      spec.depth = .bits16 → 2 ∣ l.length := by
    intro l hl hd
    obtain ⟨l', hl', rfl⟩ := List.mem_map.1 hl
    rw [length_storedSamples spec fun _ => hrows l' hl' hd]
    exact hrows l' hl' hd
  have hplain : (encodedHeader w h spec).interlaced = false := rfl
  have hwidth : (encodedHeader w h spec).width = w := rfl
  simp only [assemble, hplain, hwidth, Bool.not_false, if_true]
  rw [toList_foldl_append _ (fun out row hrow => by
      rw [ByteArray.data_append, Array.toList_append,
        expandRow_encoded strip16 (size_encodedRows hpx row hrow)]),
    flatMap_encodedRows hpx, ByteArray.data_empty, Array.toList_empty, List.nil_append]
  -- the turns and cuts act sample by sample, so they pass over the joins of the rows
  calc (List.range h).flatMap (fun r => keptSamples strip16 spec (storedSamples spec
          (px.extract (r * (w * spec.bytesPerPixel)) (r * (w * spec.bytesPerPixel) + w * spec.bytesPerPixel)).data.toList))
      = (((List.range h).map fun r => (px.extract (r * (w * spec.bytesPerPixel))
          (r * (w * spec.bytesPerPixel) + w * spec.bytesPerPixel)).data.toList).map
            (storedSamples spec)).flatMap (keptSamples strip16 spec) := by
        rw [List.map_map, List.flatMap_map]
        rfl
    _ = keptSamples strip16 spec (storedSamples spec ((List.range h).map fun r => (px.extract (r * (w * spec.bytesPerPixel))
          (r * (w * spec.bytesPerPixel) + w * spec.bytesPerPixel)).data.toList).flatten) := by
        rw [← keptSamples_flatten strip16 spec hstored, storedSamples_flatten spec hrows, List.flatMap_def]
    _ = keptSamples strip16 spec (storedSamples spec px.data.toList) := by rw [flatten_rows hs hpx]

end Frame

/-- One expanded pixel repacked: the samples the channel map names, low byte first at 16 bits. -/
def repackPixel (depth : ChannelDepth) (channelMap : List Nat) (q : List UInt8) : List UInt8 :=
  channelMap.flatMap fun c => match depth with
    | .bits8 => [q[c]?.getD 0]
    | .bits16 => [q[2 * c + 1]?.getD 0, q[2 * c]?.getD 0]

/-- The layout the decoder gives the pixels of an image of layout `spec` when `T` is asked for:
gray stays gray only for a gray request and is otherwise spread to RGB, and 16-bit samples are
cut to 8 bits for an 8-bit request. -/
def decodedSpec (spec T : ColorSpec) : ColorSpec :=
  ⟨if spec.format = .monochromatic ∧ T.format ≠ .monochromatic then .rgb else spec.format,
    if T.depth = .bits8 then .bits8 else spec.depth⟩

/-- Which expanded sample each decoded channel takes. -/
def decodedChannels (spec T : ColorSpec) : List Nat :=
  match spec.format, T.format with
  | .monochromatic, .monochromatic => [0]
  | .monochromatic, _ => [0, 0, 0]
  | .rgb, _ => [0, 1, 2]
  | .rgba, _ => [0, 1, 2, 3]

/-- A pixel of layout `spec` as the decoder gives it back when `T` is asked for. -/
def decodedPixel (spec T : ColorSpec) (p : List UInt8) : List UInt8 :=
  repackPixel (decodedSpec spec T).depth (decodedChannels spec T)
    (keptSamples (decide (T.depth = .bits8)) spec (storedSamples spec p))

/-- Repacking reads the first `width` pixels of each row it reaches, pixel `p` of row `r` at
`r * lineSize + p * (samples * depth.bytes)`, and repacks each on its own. -/
theorem toList_repack {depth : ChannelDepth} {samples : Nat} {channelMap : List Nat}
    {width height lineSize : Nat} {frame : ByteArray} (hmap : ∀ c ∈ channelMap, c < samples) :
    (PngCodec.repack depth samples channelMap width height lineSize frame).data.toList =
      (List.range (min height (frame.size / lineSize))).flatMap fun r => (List.range width).flatMap fun p =>
        repackPixel depth channelMap
          ((frame.data.toList.drop (r * lineSize + p * (samples * depth.bytes))).take (samples * depth.bytes)) := by
  have hbyte : ∀ start j, j < samples * depth.bytes →
      ((frame.data.toList.drop start).take (samples * depth.bytes))[j]? = frame[start + j]? := by
    intro start j hj
    rw [List.getElem?_take_of_lt hj, List.getElem?_drop, ByteArray.getElem?_toList]
  unfold PngCodec.repack
  dsimp only
  rw [toList_foldl_append]
  · rfl
  intro out r _
  rw [toList_foldl_append]
  intro out p _
  rw [toList_foldl_append]
  · rfl
  intro out c hc
  have hc := hmap c hc
  cases depth with
  | bits8 =>
    simp only [ChannelDepth.bytes, Nat.mul_one] at hbyte ⊢
    rw [hbyte _ c hc]
    simp
  | bits16 =>
    simp only [ChannelDepth.bytes] at hbyte ⊢
    rw [hbyte _ (2 * c + 1) (by omega), hbyte _ (2 * c) (by omega),
      show r * lineSize + p * (samples * 2) + c * 2 + 1 = r * lineSize + p * (samples * 2) + (2 * c + 1) by ring,
      show r * lineSize + p * (samples * 2) + c * 2 = r * lineSize + p * (samples * 2) + 2 * c by ring]
    simp

/-- Rows of `w` entries, read row by row, are the entries in order. -/
theorem flatMap_range_grid {β : Type} (f : Nat → List β) (w : Nat) :
    ∀ h, ((List.range h).flatMap fun r => (List.range w).flatMap fun p => f (r * w + p)) =
      (List.range (h * w)).flatMap f
  | 0 => by simp
  | h + 1 => by
    rw [List.range_succ, List.flatMap_append, flatMap_range_grid f w h, Nat.succ_mul, List.range_add,
      List.flatMap_append, List.flatMap_map, List.flatMap_singleton]

/-- A frame of `height` rows of `width` pixels, without padding, is repacked pixel by pixel. -/
theorem toList_repack_rows {depth : ChannelDepth} {samples : Nat} {channelMap : List Nat}
    {width height : Nat} {frame : ByteArray} {Q : List (List UInt8)} (hw : 0 < width) (hpos : 0 < samples)
    (hQ : ∀ q ∈ Q, q.length = samples * depth.bytes) (hlen : Q.length = height * width)
    (hmap : ∀ c ∈ channelMap, c < samples) (hframe : frame.data.toList = Q.flatten) :
    (PngCodec.repack depth samples channelMap width height (width * (samples * depth.bytes)) frame).data.toList =
      Q.flatMap (repackPixel depth channelMap) := by
  have hk : 0 < samples * depth.bytes := Nat.mul_pos hpos depth.bytes_pos
  have hrows : min height (frame.size / (width * (samples * depth.bytes))) = height := by
    have h := congrArg List.length hframe
    rw [length_flatten_uniform _ hQ, Array.length_toList, ByteArray.size_data, hlen] at h
    rw [h, Nat.mul_assoc, Nat.mul_div_cancel _ (Nat.mul_pos hw hk), Nat.min_self]
  have hpixel : ∀ r ∈ List.range height, ∀ p ∈ List.range width,
      (frame.data.toList.drop (r * (width * (samples * depth.bytes)) + p * (samples * depth.bytes))).take
        (samples * depth.bytes) = Q[r * width + p]?.getD default := by
    intro r hr p hp
    have hi : r * width + p < Q.length := by
      rw [hlen]
      have := List.mem_range.1 hr
      have := List.mem_range.1 hp
      nlinarith
    rw [hframe, show r * (width * (samples * depth.bytes)) + p * (samples * depth.bytes) =
      (r * width + p) * (samples * depth.bytes) by ring, drop_take_flatten_uniform hQ hi,
      List.getElem?_eq_getElem hi, Option.getD_some]
  have hgrid : ((List.range height).flatMap fun r => (List.range width).flatMap fun p =>
      repackPixel depth channelMap ((frame.data.toList.drop (r * (width * (samples * depth.bytes)) +
        p * (samples * depth.bytes))).take (samples * depth.bytes))) =
      (List.range height).flatMap fun r => (List.range width).flatMap fun p =>
        repackPixel depth channelMap (Q[r * width + p]?.getD default) := by
    simp only [List.flatMap_def]
    congr 1
    refine List.map_congr_left fun r hr => ?_
    congr 1
    exact List.map_congr_left fun p hp => by rw [hpixel r hr p hp]
  rw [toList_repack hmap, hrows, hgrid]
  refine (flatMap_range_grid (fun i => repackPixel depth channelMap (Q[i]?.getD default)) width height).trans ?_
  rw [← hlen]
  exact flatMap_range_length (repackPixel depth channelMap) Q

section Decoded

variable {w h : Nat} {spec T : ColorSpec}

theorem outputColor_encoded :
    ({ header := encodedHeader w h spec } : Info).outputColor (decide (T.depth = .bits8)) =
      (ColorType.ofFormat spec.format, BitDepth.ofChannelDepth (decodedSpec spec T).depth) := by
  obtain ⟨f, d⟩ := spec
  obtain ⟨g, e⟩ := T
  cases f <;> cases d <;> cases e <;> rfl

theorem channelDepth_ofChannelDepth (d : ChannelDepth) : PngCodec.channelDepth (BitDepth.ofChannelDepth d) = .ok d := by
  cases d <;> rfl

theorem targetLayout_encoded :
    PngCodec.targetLayout (ColorType.ofFormat spec.format) T.format =
      .ok ((decodedSpec spec T).format, decodedChannels spec T) := by
  obtain ⟨f, d⟩ := spec
  obtain ⟨g, e⟩ := T
  cases f <;> cases g <;> rfl

theorem samples_ofFormat (f : PixelFormat) : (ColorType.ofFormat f).samples = f.channels := by
  cases f <;> rfl

theorem decodedChannels_lt : ∀ c ∈ decodedChannels spec T, c < spec.channels := by
  obtain ⟨f, d⟩ := spec
  obtain ⟨g, e⟩ := T
  cases f <;> cases g <;> simp [decodedChannels, ColorSpec.channels, PixelFormat.channels]

/-- An expanded pixel has the decoded layout's channels at the decoded depth. -/
theorem length_expanded {p : List UInt8} (hp : p.length = spec.bytesPerPixel) :
    (keptSamples (decide (T.depth = .bits8)) spec (storedSamples spec p)).length =
      spec.channels * (decodedSpec spec T).depth.bytes := by
  have hstored : (storedSamples spec p).length = spec.channels * spec.depth.bytes := by
    rw [length_storedSamples spec fun hd => by rw [hp]; exact two_dvd_bytesPerPixel hd, hp]
    rfl
  obtain ⟨f, d⟩ := spec
  obtain ⟨g, e⟩ := T
  cases d <;> cases e <;> simp [keptSamples, decodedSpec, ChannelDepth.bytes] at hstored ⊢
  · exact hstored
  · exact hstored
  · exact length_highBytes hstored
  · exact hstored

/-- The decoder's pixels are the source's pixels each turned, expanded and repacked. -/
theorem toList_repack_decoded {width height : Nat} (hw : 0 < width) {P : List (List UInt8)}
    (hP : ∀ p ∈ P, p.length = spec.bytesPerPixel) (hlen : P.length = height * width) {frame : ByteArray}
    (hframe : frame.data.toList = keptSamples (decide (T.depth = .bits8)) spec (storedSamples spec P.flatten)) :
    (PngCodec.repack (decodedSpec spec T).depth (ColorType.ofFormat spec.format).samples (decodedChannels spec T)
        width height (width * (spec.channels * (decodedSpec spec T).depth.bytes)) frame).data.toList =
      P.flatMap (decodedPixel spec T) := by
  have heven : ∀ p ∈ P, spec.depth = .bits16 → 2 ∣ p.length := fun p hp hd => by
    rw [hP p hp]
    exact two_dvd_bytesPerPixel hd
  have heven' : ∀ q ∈ P.map (storedSamples spec), spec.depth = .bits16 → 2 ∣ q.length := by
    intro q hq hd
    obtain ⟨p, hp, rfl⟩ := List.mem_map.1 hq
    rw [length_storedSamples spec (heven p hp)]
    exact heven p hp hd
  rw [storedSamples_flatten spec heven, List.flatMap_def, keptSamples_flatten _ spec heven', List.flatMap_map] at hframe
  rw [samples_ofFormat, show spec.channels = spec.format.channels from rfl,
    toList_repack_rows (Q := P.map fun p => keptSamples (decide (T.depth = .bits8)) spec (storedSamples spec p))
      hw spec.format.channels_pos (uniform_map fun p hp => length_expanded (hP p hp))
      (by rw [List.length_map, hlen]) decodedChannels_lt (by rw [hframe, List.flatMap_def]), List.flatMap_map]
  rfl

end Decoded

end Png

end Pixmap
