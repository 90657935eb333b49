import Pixmap.Proofs.PngPixels

/-! Images whose pixels are another image's pixels mapped into a layout (`Image.mapPixels`), and
the image a PNG file decodes to before its last conversion (`Image.pngDecoded`). -/
namespace Pixmap

namespace Image

variable {img : Image} {t T : ColorSpec} {f g : List UInt8 → List UInt8}

/-- The image with the same sides whose pixels are those of `img`, each mapped into `t`. -/
def mapPixels (img : Image) (t : ColorSpec) (f : List UInt8 → List UInt8) : Image :=
  ⟨img.width, img.height, t, img.data.map fun _ => (img.pixels.flatMap f).toByteArray⟩

@[simp] theorem width_mapPixels : (img.mapPixels t f).width = img.width := rfl

@[simp] theorem height_mapPixels : (img.mapPixels t f).height = img.height := rfl

@[simp] theorem spec_mapPixels : (img.mapPixels t f).spec = t := rfl

@[simp] theorem isValid_mapPixels : (img.mapPixels t f).isValid = img.isValid := by
  simp [mapPixels, isValid]

/-- The mapped buffer holds the mapped pixels one after another; without a buffer there are no
pixels to map. -/
theorem toList_bytes_mapPixels : (img.mapPixels t f).bytes.data.toList = img.pixels.flatMap f := by
  unfold mapPixels
  cases hd : img.data with
  | none =>
    have hnil : img.pixels = [] := by
      simp [pixels, bytes, hd, Bytes.groups_nil]
    simp [hnil]
  | some b => simp

theorem mapPixels_congr (h : ∀ p ∈ img.pixels, f p = g p) : img.mapPixels t f = img.mapPixels t g := by
  simp only [mapPixels, List.flatMap_congr h]

theorem WellFormed.length_flatMap (hw : img.WellFormed) (hf : ∀ p ∈ img.pixels, (f p).length = t.bytesPerPixel) :
    (img.pixels.flatMap f).length = img.width * t.bytesPerPixel * img.height := by
  rw [List.flatMap_def, length_flatten_uniform _ (uniform_map hf), List.length_map, hw.length_pixels]
  ring

/-- Mapping every pixel of a well-formed image into a layout whose size fits gives a well-formed
image. -/
theorem WellFormed.mapPixels (hw : img.WellFormed) (hf : ∀ p ∈ img.pixels, (f p).length = t.bytesPerPixel)
    {n : Nat} (hn : t.bufferSize? img.width img.height = some n) : (img.mapPixels t f).WellFormed := by
  have hsize : (img.mapPixels t f).bytes.size = n := by
    rw [← ByteArray.size_data, ← Array.length_toList, toList_bytes_mapPixels, hw.length_flatMap hf]
    exact ((ColorSpec.bufferSize?_eq_some_iff.1 hn).1).symm
  refine wellFormed_iff.2 ⟨by rw [hsize]; exact hn, ?_⟩
  rw [isValid_mapPixels, hsize, ← hw.pos_iff_isValid hn]

/-- A map that keeps every pixel of a well-formed image in its layout gives the image back. -/
theorem WellFormed.mapPixels_self (hw : img.WellFormed) (hkeep : ∀ p ∈ img.pixels, f p = p) :
    img.mapPixels img.spec f = img := by
  have hbytes : img.pixels.flatMap f = img.bytes.data.toList := by
    rw [List.flatMap_congr hkeep, List.flatMap_id', flatten_pixels]
  obtain ⟨w, h, s, d⟩ := img
  cases d with
  | none => rfl
  | some b =>
    show (⟨w, h, s, some (List.flatMap f _).toByteArray⟩ : Image) = _
    rw [hbytes, bytes_mk, Option.getD_some, ByteArray.toByteArray_toList]

end Image

namespace ColorSpec

variable {s t T : ColorSpec} {f : List UInt8 → List UInt8}

/-- Two colour layouts convert into each other: they are the same, or the table holds the pair. -/
theorem canConvert_of_color (hs : s.format ≠ .monochromatic) (ht : t.format ≠ .monochromatic) :
    s.canConvert t = true := by
  by_cases hst : s = t
  · simp [canConvert, hst]
  · exact canConvert_iff.2 (.inr (convertible_iff.2 ⟨hst, hs, ht⟩))

/-- A layout and a gray layout of another format do not convert. -/
theorem canConvert_to_gray (hs : s.format ≠ .monochromatic) (ht : t.format = .monochromatic) :
    s.canConvert t = false := by
  have hst : s ≠ t := fun h => hs (h ▸ ht)
  cases hc : s.canConvert t
  · rfl
  · rcases canConvert_iff.1 hc with h | h
    · exact absurd h hst
    · exact absurd ht (convertible_iff.1 h).2.2

/-- Converting whole pixels one after another converts each on its own. -/
theorem convertBytes_flatMap {P : List (List UInt8)} (hf : ∀ p ∈ P, (f p).length = s.bytesPerPixel) :
    convertBytes s t (P.flatMap f) = P.flatMap fun p => convertBytes s t (f p) := by
  by_cases hst : s = t
  · subst hst
    simp
  · have hone : ∀ p ∈ P, convertBytes s t (f p) = convertPixel s t (f p) := fun p hp => by
      have h := convertBytes_flatten (t := t) hst (P := [f p]) (by simpa using hf p hp)
      simpa using h
    rw [List.flatMap_def, convertBytes_flatten hst (uniform_map hf), List.flatMap_congr hone, List.flatMap_def,
      List.map_map]
    rfl

/-- Every layout fits rows and sides whose eight-byte pixels fit the address space. -/
theorem bufferSize?_of_small {w h : Nat} (hh : 0 < h) (hsize : w * 8 * h < addressSpace) (s : ColorSpec) :
    s.bufferSize? w h = some (w * s.bytesPerPixel * h) := by
  have hle : w * s.bytesPerPixel * h ≤ w * 8 * h := Nat.mul_le_mul_right h (Nat.mul_le_mul_left w s.bytesPerPixel_le)
  have hrow := Nat.le_mul_of_pos_right (w * s.bytesPerPixel) hh
  exact bufferSize?_eq_some_iff.2 ⟨rfl, by omega, by omega⟩

end ColorSpec

namespace Image

variable {img : Image} {t T : ColorSpec} {f : List UInt8 → List UInt8}

/-- Converting an image of mapped pixels maps each pixel on through the table. -/
theorem WellFormed.convert_mapPixels (hw : img.WellFormed) (hf : ∀ p ∈ img.pixels, (f p).length = t.bytesPerPixel)
    (hh : 0 < img.height) (hsize : img.width * 8 * img.height < addressSpace) (hc : t.canConvert T = true) :
    (img.mapPixels t f).convert T = .ok (img.mapPixels T fun p => ColorSpec.convertBytes t T (f p)) := by
  have hm := hw.mapPixels hf (ColorSpec.bufferSize?_of_small hh hsize t)
  rw [hm.convert_of_canConvert hc (ColorSpec.bufferSize?_of_small hh hsize T)]
  unfold Image.mapPixels
  simp only [Option.map_map, Function.comp_def, List.data_toByteArray, List.toList_toArray,
    ColorSpec.convertBytes_flatMap hf]

/-- The mapped pixels of a valid image, one after another, are taken by `ofBytes` as the mapped
image. -/
theorem WellFormed.ofBytes_mapPixels (hw : img.WellFormed) (hv : img.isValid = true)
    (hf : ∀ p ∈ img.pixels, (f p).length = t.bytesPerPixel) (hsize : img.width * 8 * img.height < addressSpace) :
    ofBytes img.width img.height t (img.pixels.flatMap f).toByteArray = .ok (img.mapPixels t f) := by
  have hsides := hw.isValid_iff_sides.1 hv
  have hlen : (img.pixels.flatMap f).toByteArray.size = img.width * t.bytesPerPixel * img.height := by
    rw [List.size_toByteArray, hw.length_flatMap hf]
  have hpos : 0 < img.width * t.bytesPerPixel * img.height :=
    Nat.mul_pos (Nat.mul_pos hsides.1 t.bytesPerPixel_pos) hsides.2
  obtain ⟨b, hb⟩ := Option.isSome_iff_exists.1 hv
  rw [ofBytes_of_bufferSize? (by rw [hlen]; exact ColorSpec.bufferSize?_of_small hsides.2 hsize t), hlen,
    if_pos hpos]
  simp only [Image.mapPixels, hb, Option.map_some]

end Image

namespace ColorSpec

/-- The colour layout of `s`: gray spread to RGB at the same depth, colour as it is. -/
def spreadGray (s : ColorSpec) : ColorSpec := if s.format = .monochromatic then ⟨.rgb, s.depth⟩ else s

/-- A pixel of layout `s` in `s.spreadGray`: a gray value copied into the three channels. -/
def spreadPixel (s : ColorSpec) (p : List UInt8) : List UInt8 :=
  if s.format = .monochromatic then p ++ p ++ p else p

theorem spreadGray_format_ne (s : ColorSpec) : s.spreadGray.format ≠ .monochromatic := by
  unfold spreadGray
  split
  · simp
  · assumption

theorem length_spreadPixel {s : ColorSpec} {p : List UInt8} (hp : p.length = s.bytesPerPixel) :
    (s.spreadPixel p).length = s.spreadGray.bytesPerPixel := by
  obtain ⟨f, d⟩ := s
  cases f with
  | monochromatic =>
    simp only [spreadPixel, spreadGray, if_true, List.length_append, hp, bytesPerPixel, PixelFormat.channels]
    omega
  | rgb | rgba => simpa [spreadPixel, spreadGray] using hp

end ColorSpec

namespace Png

variable {s T : ColorSpec} {p : List UInt8}

theorem length_repackPixel (depth : ChannelDepth) (channelMap : List Nat) (q : List UInt8) :
    (repackPixel depth channelMap q).length = channelMap.length * depth.bytes := by
  unfold repackPixel
  rw [List.flatMap_def, length_flatten_uniform _ (uniform_map (k := depth.bytes) fun c _ => by cases depth <;> rfl),
    List.length_map]

theorem length_decodedPixel (s T : ColorSpec) (p : List UInt8) :
    (decodedPixel s T p).length = (decodedSpec s T).bytesPerPixel := by
  rw [decodedPixel, length_repackPixel, ColorSpec.bytesPerPixel]
  obtain ⟨f, d⟩ := s
  obtain ⟨g, e⟩ := T
  cases f <;> cases g <;> rfl

theorem decodedSpec_format_ne (hT : T.format ≠ .monochromatic) : (decodedSpec s T).format ≠ .monochromatic := by
  unfold decodedSpec
  split
  · simp
  · next h => exact fun hs => h ⟨hs, hT⟩

theorem decodedSpec_format_of_gray (hT : T.format = .monochromatic) : (decodedSpec s T).format = s.format := by
  simp [decodedSpec, hT]

@[simp] theorem decodedSpec_self (s : ColorSpec) : decodedSpec s s = s := by
  obtain ⟨f, d⟩ := s
  cases f <;> cases d <;> rfl

/-- A list of a known length is the list of its entries. -/
theorem exists_eq_ofFn {n : Nat} (hp : p.length = n) : ∃ q : Fin n → UInt8, p = List.ofFn q := by
  subst hp
  exact ⟨p.get, (List.ofFn_get p).symm⟩

/-- Asked for the layout it was stored in, the decoder gives every pixel back. -/
theorem decodedPixel_self (hp : p.length = s.bytesPerPixel) : decodedPixel s s p = p := by
  obtain ⟨f, d⟩ := s
  cases f <;> cases d <;>
  · simp only [ColorSpec.bytesPerPixel, PixelFormat.channels, ChannelDepth.bytes] at hp
    obtain ⟨q, rfl⟩ := exists_eq_ofFn hp
    simp [List.ofFn_succ, decodedSpec, decodedPixel, repackPixel, keptSamples, storedSamples, swapPairs,
      decodedChannels, Bytes.groups]

/-- Asked for 8 bits, the decoder keeps the high byte of a 16-bit gray value. -/
theorem decodedPixel_gray16_gray8 (hp : p.length = 2) :
    decodedPixel .gray16 .gray8 p = ChannelDepth.recode .bits16 .bits8 p := by
  obtain ⟨q, rfl⟩ := exists_eq_ofFn hp
  simp [List.ofFn_succ, decodedSpec, decodedPixel, repackPixel, keptSamples, storedSamples, swapPairs,
    highBytes, decodedChannels, Bytes.groups, ChannelDepth.recode, ColorSpec.gray16, ColorSpec.gray8]

/-- Asked for a colour layout, the decoder's pixels convert as the source's pixels do once gray is
spread to RGB. -/
theorem convertBytes_decodedPixel (hT : T.format ≠ .monochromatic) (hp : p.length = s.bytesPerPixel) :
    ColorSpec.convertBytes (decodedSpec s T) T (decodedPixel s T p) =
      ColorSpec.convertBytes s.spreadGray T (s.spreadPixel p) := by
  obtain ⟨f, d⟩ := s
  obtain ⟨g, e⟩ := T
  cases g with
  | monochromatic => exact absurd rfl hT
  | rgb | rgba =>
    cases f <;> cases d <;> cases e <;>
    · simp only [ColorSpec.bytesPerPixel, PixelFormat.channels, ChannelDepth.bytes] at hp
      obtain ⟨q, rfl⟩ := exists_eq_ofFn hp
      simp [List.ofFn_succ, ColorSpec.convertBytes, decodedSpec, decodedPixel, repackPixel, keptSamples,
        storedSamples, swapPairs, highBytes, decodedChannels, ColorSpec.convertPixel, Bytes.groups,
        ChannelDepth.recode, ColorSpec.spreadGray, ColorSpec.spreadPixel, ColorSpec.bytesPerPixel,
        PixelFormat.channels, ChannelDepth.bytes, ColorSpec.hasAlpha, PixelFormat.hasAlpha,
        ChannelDepth.opaqueSample]

end Png

namespace Image

/-- The image with gray spread to RGB at the same depth; a colour image as it is. -/
def spreadGray (img : Image) : Image := img.mapPixels img.spec.spreadGray img.spec.spreadPixel

/-- The image a PNG file of `img` decodes to when `T` is asked for, before it is brought into
`T`: the layout the decoder picks, each pixel as the decoder gives it back. -/
def pngDecoded (img : Image) (T : ColorSpec) : Image :=
  img.mapPixels (Png.decodedSpec img.spec T) (Png.decodedPixel img.spec T)

variable {img : Image} {T : ColorSpec}

/-- Asked for its own layout, the decoder gives the image back. -/
theorem WellFormed.pngDecoded_self (hw : img.WellFormed) : img.pngDecoded img.spec = img := by
  rw [pngDecoded, Png.decodedSpec_self]
  exact hw.mapPixels_self fun p hp => Png.decodedPixel_self (hw.uniform_pixels p hp)

/-- Asked for a colour layout, the decoded image converts as the source does once gray is spread
to RGB. -/
theorem WellFormed.pngDecoded_convert_of_color (hw : img.WellFormed) (hh : 0 < img.height)
    (hsize : img.width * 8 * img.height < addressSpace) (hT : T.format ≠ .monochromatic) :
    (img.pngDecoded T).convert T = img.spreadGray.convert T := by
  rw [pngDecoded, spreadGray,
    hw.convert_mapPixels (fun p _ => Png.length_decodedPixel _ _ p) hh hsize
      (ColorSpec.canConvert_of_color (Png.decodedSpec_format_ne hT) hT),
    hw.convert_mapPixels (fun p hp => ColorSpec.length_spreadPixel (hw.uniform_pixels p hp)) hh hsize
      (ColorSpec.canConvert_of_color (ColorSpec.spreadGray_format_ne _) hT)]
  exact congrArg Except.ok (mapPixels_congr fun p hp => Png.convertBytes_decodedPixel hT (hw.uniform_pixels p hp))

/-- A colour image asked for in gray decodes into a colour layout, which does not convert to gray. -/
theorem pngDecoded_convert_to_gray (hs : img.spec.format ≠ .monochromatic) (hT : T.format = .monochromatic) :
    (img.pngDecoded T).convert T = .error (.unsupportedConversion (Png.decodedSpec img.spec T) T) := by
  have hdec : (Png.decodedSpec img.spec T).format ≠ .monochromatic := by
    rw [Png.decodedSpec_format_of_gray hT]
    exact hs
  exact convert_of_not_canConvert (ColorSpec.canConvert_to_gray hdec hT)

/-- A 16-bit gray image asked for at 8 bits decodes to the high byte of every value. -/
theorem WellFormed.pngDecoded_gray16_gray8 (hw : img.WellFormed) (hs : img.spec = .gray16) :
    img.pngDecoded .gray8 = img.mapPixels .gray8 (ChannelDepth.recode .bits16 .bits8) := by
  rw [pngDecoded, hs]
  refine mapPixels_congr fun p hp => Png.decodedPixel_gray16_gray8 ?_
  rw [hw.uniform_pixels p hp, hs]
  rfl

/-- An 8-bit gray image asked for at 16 bits decodes at 8 bits, which does not convert to 16. -/
theorem pngDecoded_gray8_gray16 (hs : img.spec = .gray8) :
    (img.pngDecoded .gray16).convert .gray16 = .error (.unsupportedConversion .gray8 .gray16) := by
  have hdec : Png.decodedSpec img.spec .gray16 = .gray8 := by rw [hs]; rfl
  rw [← hdec]
  refine convert_of_not_canConvert ?_
  show (Png.decodedSpec img.spec .gray16).canConvert .gray16 = false
  rw [hdec]
  rfl

end Image

end Pixmap
