import Pixmap.Proofs.Reachable

/-! Conversion of images: it converts the buffer pixel by pixel (`Image.convert_spec`), a trip and
back loses only what the other layout cannot hold, and it commutes with cropping. -/
namespace Pixmap

namespace Image

variable {img out : Image} {t : ColorSpec}

@[simp] lemma convert_self (img : Image) : img.convert img.spec = .ok img := by
  simp [convert]

lemma convertBytes_nil (s t : ColorSpec) : ColorSpec.convertBytes s t [] = [] := by
  unfold ColorSpec.convertBytes
  split
  · rfl
  · simp [Bytes.groups_nil]

/-- The buffer of a well-formed image is what `convertPixels` writes into a destination of exactly
the target's size, and the count it returns is the image's number of pixels. -/
lemma WellFormed.convertPixels_bytes (hw : img.WellFormed) (hc : img.spec.canConvert t = true)
    {dst : ByteArray} (hdst : t.bufferSize? img.width img.height = some dst.size) :
    ColorSpec.convertPixels img.spec t img.bytes dst =
      .ok (img.width * img.height,
        (ColorSpec.convertBytes img.spec t img.bytes.data.toList).toByteArray) := by
  have hb := img.spec.bytesPerPixel_pos
  have hsize : img.bytes.size = img.width * img.height * img.spec.bytesPerPixel := by
    simpa using hw.length_bytes
  obtain ⟨hdst, -, -⟩ := ColorSpec.bufferSize?_eq_some_iff.1 hdst
  have hroom : img.width * img.height * t.bytesPerPixel = dst.size := by
    rw [hdst, Nat.mul_right_comm]
  simp [ColorSpec.convertPixels, hsize, Nat.mul_div_cancel _ hb, ← hroom, hc]

/-- Conversion of images is the conversion of pixel runs lifted to images. A pair outside the
table fails with exactly the unsupported-conversion error; a pair in it whose target size fits
converts the buffer as `convertPixels` does, keeping sides and validity; the same layout gives
the image back; and the decoders' `intoSpec` returns what `convert` returns, leaving the stream
untouched. -/
theorem convert_spec (img : Image) (hw : img.WellFormed) (t : ColorSpec) :
    (img.convert t = .error (.unsupportedConversion img.spec t) ↔ img.spec.canConvert t = false) ∧
    (img.spec.canConvert t = true → (t.bufferSize? img.width img.height).isSome →
      ∃ out, img.convert t = .ok out ∧ out.width = img.width ∧ out.height = img.height ∧
        out.spec = t ∧ out.isValid = img.isValid ∧
        ∀ dst : ByteArray, t.bufferSize? img.width img.height = some dst.size →
          ColorSpec.convertPixels img.spec t img.bytes dst = .ok (img.width * img.height, out.bytes)) ∧
    img.convert img.spec = .ok img ∧
    ∀ {σ : Type} (st : σ) (j : Array Record),
      ((intoSpec img t : CodecM σ Image).runOn st j).1 = (img.convert t, st) := by
  refine ⟨?_, ?_, convert_self img, ?_⟩
  · constructor
    · intro he
      cases hc : img.spec.canConvert t
      · rfl
      rcases ColorSpec.canConvert_iff.1 hc with rfl | hct
      · simp at he
      cases hn : t.bufferSize? img.width img.height with
      | none => simp [convert_of_bufferSize?_eq_none hct hn] at he
      | some n => simp [hw.convert_of_canConvert hc hn] at he
    · exact convert_of_not_canConvert
  · intro hc hn
    obtain ⟨n, hn⟩ := Option.isSome_iff_exists.1 hn
    refine ⟨_, hw.convert_of_canConvert hc hn, rfl, rfl, rfl, by simp [isValid], ?_⟩
    intro dst hdst
    rw [hw.convertPixels_bytes hc hdst]
    cases hd : img.data with
    | none => simp [bytes, hd, convertBytes_nil]
    | some src => simp [bytes, hd]
  · intro σ st j
    unfold intoSpec
    split
    · rename_i h
      subst h
      simp only [convert_self]
      rfl
    · rw [runOn_liftM_bind, convertLogged_run, runOn_ofExcept]

/-- A 3×2 RGB8 image converted to RGBA16. -/
theorem convert_spec_rgba16 :
    ∃ img, Image.ofBytes 3 2 .rgb8 ⟨#[1, 2, 3, 4, 5, 6, 7, 8, 9, 10, 11, 12, 13, 14, 15, 16, 17, 18]⟩ = .ok img ∧ img.WellFormed ∧
      ((img.convert .rgba16 = .error (.unsupportedConversion img.spec .rgba16) ↔
          img.spec.canConvert .rgba16 = false) ∧
        (img.spec.canConvert .rgba16 = true → (ColorSpec.rgba16.bufferSize? img.width img.height).isSome →
          ∃ out, img.convert .rgba16 = .ok out ∧ out.width = img.width ∧ out.height = img.height ∧
            out.spec = .rgba16 ∧ out.isValid = img.isValid ∧
            ∀ dst : ByteArray, ColorSpec.rgba16.bufferSize? img.width img.height = some dst.size →
              ColorSpec.convertPixels img.spec .rgba16 img.bytes dst = .ok (img.width * img.height, out.bytes)) ∧
        img.convert img.spec = .ok img ∧
        ∀ {σ : Type} (st : σ) (j : Array Record),
          ((intoSpec img .rgba16 : CodecM σ Image).runOn st j).1 = (img.convert .rgba16, st)) :=
  have hmade : Image.ofBytes 3 2 .rgb8 ⟨#[1, 2, 3, 4, 5, 6, 7, 8, 9, 10, 11, 12, 13, 14, 15, 16, 17, 18]⟩ = .ok _ := rfl
  have hw := wellFormed_of_ofBytes hmade
  ⟨_, hmade, hw, convert_spec _ hw .rgba16⟩

end Image

/-! ### Samples and round trips -/

namespace ChannelDepth

/-- The value of a sample, its bytes read low byte first. -/
def sampleValue : ChannelDepth → List UInt8 → Nat
  | .bits8, s => (s.getD 0 0).toNat
  | .bits16, s => (s.getD 0 0).toNat + 256 * (s.getD 1 0).toNat

/-- The bytes of a sample value, low byte first. -/
def sampleBytes : ChannelDepth → Nat → List UInt8
  | .bits8, v => [v.toUInt8]
  | .bits16, v => Bytes.le16 v

lemma land_ff00 {lo hi : Nat} (hlo : lo < 256) (hhi : hi < 256) :
    (lo + 256 * hi) &&& 0xFF00 = 256 * hi := by
  have hm : (0xFF00 : Nat) = 2 ^ 8 * (2 ^ 8 - 1) := rfl
  have hs : (256 : Nat) = 2 ^ 8 := rfl
  rw [hm, Nat.add_comm, hs]
  apply Nat.eq_of_testBit_eq
  intro j
  rw [Nat.testBit_and, Nat.testBit_two_pow_mul_add _ (by omega), Nat.testBit_two_pow_mul,
    Nat.testBit_two_pow_mul, Nat.testBit_two_pow_sub_one]
  -- the low byte meets the zero bits of the mask, the high byte its one bits
  by_cases hj : j < 8
  · simp [hj, show ¬ 8 ≤ j from by omega]
  · have hk : hi.testBit (j - 8) = (hi.testBit (j - 8) && decide (j - 8 < 8)) := by
      by_cases hk : j - 8 < 8
      · simp [hk]
      · have hlt : hi < 2 ^ (j - 8) :=
          Nat.lt_of_lt_of_le (show hi < 2 ^ 8 from hhi) (Nat.pow_le_pow_right (by omega) (by omega))
        simp only [hk, decide_false, Bool.and_false]
        exact Nat.testBit_lt_two_pow hlt
    simp [hj, show 8 ≤ j from by omega, ← hk]

variable {d : ChannelDepth} {s : List UInt8}

lemma sampleBytes_sampleValue (hs : s.length = d.bytes) : d.sampleBytes (d.sampleValue s) = s := by
  cases d with
  | bits8 =>
    match s, hs with
    | [x], _ => simp [sampleBytes, sampleValue]
  | bits16 =>
    match s, hs with
    | [lo, hi], _ =>
      have := lo.toNat_lt
      have := hi.toNat_lt
      simp only [sampleBytes, sampleValue, Bytes.le16, List.getD_cons_zero, List.getD_cons_succ]
      rw [Nat.add_mul_mod_self_left, Nat.mod_eq_of_lt lo.toNat_lt,
        show (lo.toNat + 256 * hi.toNat) / 256 = hi.toNat by omega, Nat.mod_eq_of_lt hi.toNat_lt]
      simp

lemma sampleBytes_maxValue (d : ChannelDepth) : d.sampleBytes d.maxValue = d.opaqueSample := by
  cases d <;> rfl

/-- A sample re-encoded at depth `b` and back: only 16 bits through 8 changes it, keeping the high
byte. -/
lemma recode_recode (a b : ChannelDepth) (hs : s.length = a.bytes) :
    b.recode a (a.recode b s) =
      a.sampleBytes (if a = .bits16 ∧ b = .bits8 then a.sampleValue s &&& 0xFF00 else a.sampleValue s) := by
  cases a <;> cases b
  · simp [recode, sampleBytes_sampleValue hs]
  · obtain ⟨x, rfl⟩ := List.length_eq_one_iff.1 hs
    simp [recode, sampleBytes, sampleValue]
  · obtain ⟨lo, hi, rfl⟩ := List.length_eq_two.1 hs
    simp only [recode, sampleBytes, sampleValue, List.getD_cons_zero, List.getD_cons_succ,
      and_self, if_true, land_ff00 lo.toNat_lt hi.toNat_lt, Bytes.le16]
    rw [Nat.mul_mod_right, Nat.mul_div_cancel_left _ (by omega), Nat.mod_eq_of_lt hi.toNat_lt]
    simp
  · simp [recode, sampleBytes_sampleValue hs]

end ChannelDepth

namespace ColorSpec

/-- What a sample of channel `c` holding `v` in layout `a` comes back as after a trip through
layout `b`: an alpha sample through a layout without alpha comes back opaque, a 16-bit sample
through 8 bits keeps its high byte, and every other sample comes back as it was. -/
def tripValue (a b : ColorSpec) (c v : Nat) : Nat :=
  if a.hasAlpha = true ∧ b.hasAlpha = false ∧ c = 3 then a.depth.maxValue
  else if a.depth = .bits16 ∧ b.depth = .bits8 then v &&& 0xFF00
  else v

/-- A pixel of `s` with each sample of channel `c` and value `v` replaced by `f c v`. -/
def mapSamples (s : ColorSpec) (f : Nat → Nat → Nat) (px : List UInt8) : List UInt8 :=
  ((Bytes.groups s.depth.bytes px).mapIdx fun c smp =>
    s.depth.sampleBytes (f c (s.depth.sampleValue smp))).flatten

variable {a b : ColorSpec}

lemma convertSamples_trip (hab : convertible a b = true) {S : List (List UInt8)}
    (hS : S.length = a.channels) (hg : ∀ g ∈ S, g.length = a.depth.bytes) :
    convertSamples b a (convertSamples a b S) =
      S.mapIdx fun c smp => a.depth.sampleBytes (tripValue a b c (a.depth.sampleValue smp)) := by
  obtain ⟨-, ha, hb⟩ := convertible_iff.1 hab
  obtain ⟨fa, da⟩ := a
  obtain ⟨fb, db⟩ := b
  have hrr : ∀ g ∈ S, db.recode da (da.recode db g) = da.sampleBytes
      (if da = .bits16 ∧ db = .bits8 then da.sampleValue g &&& 0xFF00 else da.sampleValue g) :=
    fun g hmem => ChannelDepth.recode_recode da db (hg g hmem)
  cases fa with
  | monochromatic => exact absurd rfl ha
  | rgb =>
    obtain ⟨s0, s1, s2, rfl⟩ := List.length_eq_three.1 hS
    have h0 := hrr s0 (by simp)
    have h1 := hrr s1 (by simp)
    have h2 := hrr s2 (by simp)
    cases fb with
    | monochromatic => exact absurd rfl hb
    | rgb => simp [convertSamples, tripValue, hasAlpha, PixelFormat.hasAlpha, h0, h1, h2]
    | rgba => simp [convertSamples, tripValue, hasAlpha, PixelFormat.hasAlpha, h0, h1, h2]
  | rgba =>
    obtain ⟨s0, s1, s2, s3, rfl⟩ := List.length_eq_four.1 hS
    have h0 := hrr s0 (by simp)
    have h1 := hrr s1 (by simp)
    have h2 := hrr s2 (by simp)
    have h3 := hrr s3 (by simp)
    cases fb with
    | monochromatic => exact absurd rfl hb
    | rgb =>
      simp [convertSamples, tripValue, hasAlpha, PixelFormat.hasAlpha, h0, h1, h2,
        ChannelDepth.sampleBytes_maxValue]
    | rgba => simp [convertSamples, tripValue, hasAlpha, PixelFormat.hasAlpha, h0, h1, h2, h3]

lemma convertPixel_trip (hab : convertible a b = true) {px : List UInt8}
    (hpx : px.length = a.bytesPerPixel) :
    convertPixel b a (convertPixel a b px) = a.mapSamples (tripValue a b) px := by
  obtain ⟨hlen, hall⟩ := samples_of_pixel hpx
  rw [convertPixel_eq a b, convertPixel_eq b a,
    Bytes.groups_flatten b.depth.bytes_pos _ (uniform_convertSamples hlen hall),
    convertSamples_trip hab hlen hall, mapSamples]

lemma convertible_comm : convertible a b = convertible b a := by
  rw [Bool.eq_iff_iff, convertible_iff, convertible_iff]
  exact ⟨fun ⟨h, ha, hb⟩ => ⟨Ne.symm h, hb, ha⟩, fun ⟨h, hb, ha⟩ => ⟨Ne.symm h, ha, hb⟩⟩

/-- A buffer of whole pixels converted to `b` and back has every pixel's samples changed by
`tripValue`. -/
lemma convertBytes_trip (hab : convertible a b = true) {m : Nat} {src : List UInt8}
    (h : src.length = m * a.bytesPerPixel) :
    convertBytes b a (convertBytes a b src) =
      (Bytes.groups a.bytesPerPixel src).flatMap (a.mapSamples (tripValue a b)) := by
  obtain ⟨hne, ha, hb⟩ := convertible_iff.1 hab
  obtain ⟨P, rfl, -, hP⟩ := pixels_of_length h
  have hPb : ∀ q ∈ P.map (convertPixel a b), q.length = b.bytesPerPixel :=
    uniform_map fun p hp => length_convertPixel ha hb (hP p hp)
  rw [convertBytes_flatten hne hP, convertBytes_flatten (Ne.symm hne) hPb,
    Bytes.groups_flatten a.bytesPerPixel_pos P hP, List.map_map, List.flatMap_def]
  congr 1
  exact List.map_congr_left fun p hp => convertPixel_trip hab (hP p hp)

/-- A trip through a layout with samples at least as wide, and with alpha if `a` has it, changes
no sample. -/
lemma tripValue_of_le (hd : a.depth.bytes ≤ b.depth.bytes) (ha : a.hasAlpha = true → b.hasAlpha = true) :
    tripValue a b = fun _ v => v := by
  funext c v
  have h16 : ¬ (a.depth = .bits16 ∧ b.depth = .bits8) := by
    rintro ⟨h1, h2⟩
    simp [h1, h2, ChannelDepth.bytes] at hd
  have halpha : ¬ (a.hasAlpha = true ∧ b.hasAlpha = false ∧ c = 3) := by
    rintro ⟨h1, h2, -⟩
    simp [ha h1] at h2
  simp [tripValue, h16, halpha]

lemma mapSamples_id {s : ColorSpec} {px : List UInt8} (hpx : px.length = s.bytesPerPixel) :
    s.mapSamples (fun _ v => v) px = px := by
  obtain ⟨-, hall⟩ := samples_of_pixel hpx
  have hsame : (Bytes.groups s.depth.bytes px).mapIdx (fun _ smp => s.depth.sampleBytes
      (s.depth.sampleValue smp)) = Bytes.groups s.depth.bytes px := by
    refine List.mapIdx_eq_iff.2 fun i => ?_
    cases hi : (Bytes.groups s.depth.bytes px)[i]? with
    | none => rfl
    | some smp =>
      simp [ChannelDepth.sampleBytes_sampleValue (hall smp (List.mem_of_getElem? hi))]
  rw [mapSamples, hsame, Bytes.flatten_groups s.depth.bytes_pos]

end ColorSpec

namespace Image

/-- The image with each sample of channel `c` and value `v` replaced by `f c v`. -/
def mapSamples (f : Nat → Nat → Nat) (img : Image) : Image :=
  { img with data := img.data.map fun b =>
      ((Bytes.groups img.spec.bytesPerPixel b.data.toList).flatMap (img.spec.mapSamples f)).toByteArray }

variable {img : Image}

lemma WellFormed.mapSamples_id (hw : img.WellFormed) : img.mapSamples (fun _ v => v) = img := by
  obtain ⟨w, h, s, d⟩ := img
  cases d with
  | none => rfl
  | some src =>
    have hlen : src.data.toList.length = w * h * s.bytesPerPixel := by
      simpa [bytes] using hw.length_bytes
    have hall := Bytes.length_of_mem_groups s.bytesPerPixel_pos hlen
    simp only [mapSamples, Option.map_some, List.flatMap_def]
    rw [List.map_congr_left fun p hp => ColorSpec.mapSamples_id (hall p hp), List.map_id',
      Bytes.flatten_groups s.bytesPerPixel_pos, ByteArray.toByteArray_toList]

/-- Converting to a layout in the table and back succeeds and changes each sample as `tripValue`
says: an alpha sample through a layout without alpha comes back opaque, and a 16-bit sample
through 8 bits keeps its high byte. Through a layout with samples at least as wide, and with
alpha where the image has it, the trip returns the image itself. -/
theorem convert_round_trip (img : Image) (hw : img.WellFormed) (b : ColorSpec)
    (hc : img.spec.canConvert b = true) (hb : (b.bufferSize? img.width img.height).isSome) :
    (img.convert b).bind (fun mid => mid.convert img.spec) =
        .ok (img.mapSamples (img.spec.tripValue b)) ∧
      (img.spec.depth.bytes ≤ b.depth.bytes → (img.spec.hasAlpha = true → b.hasAlpha = true) →
        (img.convert b).bind (fun mid => mid.convert img.spec) = .ok img) := by
  have htrip : (img.convert b).bind (fun mid => mid.convert img.spec) =
      .ok (img.mapSamples (img.spec.tripValue b)) := by
    rcases ColorSpec.canConvert_iff.1 hc with rfl | hab
    · rw [ColorSpec.tripValue_of_le (Nat.le_refl _) id, hw.mapSamples_id]
      simp [Except.bind]
    obtain ⟨n, hn⟩ := Option.isSome_iff_exists.1 hb
    have hmid := hw.convert_of_canConvert hc hn
    have hmw := hw.convert hmid
    have hba : (ColorSpec.canConvert b img.spec) = true := by
      rw [ColorSpec.canConvert_iff, ColorSpec.convertible_comm]
      exact .inr hab
    rw [hmid]
    simp only [Except.bind]
    rw [hmw.convert_of_canConvert hba hw.bufferSize?_eq]
    simp only [mapSamples, Except.ok.injEq, mk.injEq, true_and]
    cases hd : img.data with
    | none => rfl
    | some src =>
      have hlen : src.data.toList.length = img.width * img.height * img.spec.bytesPerPixel := by
        simpa [bytes, hd] using hw.length_bytes
      simp [ColorSpec.convertBytes_trip hab hlen]
  exact ⟨htrip, fun hd ha => by rw [htrip, ColorSpec.tripValue_of_le hd ha, hw.mapSamples_id]⟩

/-- A 3×2 RGB8 image through RGBA16 and back. -/
theorem convert_round_trip_rgba16 :
    ∃ img, Image.ofBytes 3 2 .rgb8 ⟨#[1, 2, 3, 4, 5, 6, 7, 8, 9, 10, 11, 12, 13, 14, 15, 16, 17, 18]⟩ = .ok img ∧ img.WellFormed ∧
      img.spec.canConvert .rgba16 = true ∧ (ColorSpec.rgba16.bufferSize? img.width img.height).isSome ∧
      ((img.convert .rgba16).bind (fun mid => mid.convert img.spec) =
          .ok (img.mapSamples (img.spec.tripValue .rgba16)) ∧
        (img.spec.depth.bytes ≤ ColorSpec.rgba16.depth.bytes →
          (img.spec.hasAlpha = true → ColorSpec.rgba16.hasAlpha = true) →
          (img.convert .rgba16).bind (fun mid => mid.convert img.spec) = .ok img)) :=
  have hmade : Image.ofBytes 3 2 .rgb8 ⟨#[1, 2, 3, 4, 5, 6, 7, 8, 9, 10, 11, 12, 13, 14, 15, 16, 17, 18]⟩ = .ok _ := rfl
  have hw := wellFormed_of_ofBytes hmade
  ⟨_, hmade, hw, by decide, rfl, convert_round_trip _ hw .rgba16 (by decide) rfl⟩

/-! ### Cropping and conversion -/

lemma WellFormed.pixels_convert {out : Image} {t : ColorSpec} (hw : img.WellFormed)
    (hct : ColorSpec.convertible img.spec t = true) (hm : img.convert t = .ok out) :
    out.pixels = img.pixels.map (ColorSpec.convertPixel img.spec t) := by
  obtain ⟨hst, hs, ht⟩ := ColorSpec.convertible_iff.1 hct
  have hc : img.spec.canConvert t = true := ColorSpec.canConvert_iff.2 (.inr hct)
  cases hn : t.bufferSize? img.width img.height with
  | none =>
    rw [convert_of_bufferSize?_eq_none hct hn] at hm
    cases hm
  | some n =>
    rw [hw.convert_of_canConvert hc hn] at hm
    cases hm
    cases hd : img.data with
    | none => simp [pixels, bytes, hd, Bytes.groups_nil]
    | some src =>
      have hflat : img.pixels.flatten = src.data.toList := by simp [flatten_pixels, bytes, hd]
      have hconv : ∀ q ∈ img.pixels.map (ColorSpec.convertPixel img.spec t),
          q.length = t.bytesPerPixel :=
        uniform_map fun p hp => ColorSpec.length_convertPixel hs ht (hw.uniform_pixels p hp)
      conv => lhs; rw [pixels]
      simp only [bytes, Option.map_some, Option.getD_some, List.data_toByteArray,
        List.toList_toArray]
      rw [← hflat, ColorSpec.convertBytes_flatten hst hw.uniform_pixels]
      exact Bytes.groups_flatten t.bytesPerPixel_pos _ hconv

/-- Cropping and converting commute: for a target whose size fits the address space at the
image's sides, cropping then converting gives what converting then cropping gives, and the
only failure is the unsupported conversion, on both sides. -/
theorem crop_convert (img : Image) (hw : img.WellFormed) (x y w h : Nat) (t : ColorSpec)
    (ht : (t.bufferSize? img.width img.height).isSome) :
    (img.crop x y w h).convert t = (img.convert t).map (·.crop x y w h) ∧
      ∀ e, img.convert t = .error e → e = .unsupportedConversion img.spec t := by
  obtain ⟨n, hn⟩ := Option.isSome_iff_exists.1 ht
  cases hc : img.spec.canConvert t
  · have hcrop : (img.crop x y w h).spec.canConvert t = false := by rwa [crop_spec]
    rw [convert_of_not_canConvert hcrop, convert_of_not_canConvert hc, crop_spec]
    refine ⟨rfl, fun e he => ?_⟩
    cases he
    rfl
  have hmid := hw.convert_of_canConvert hc hn
  refine ⟨?_, fun e he => by rw [hmid] at he; cases he⟩
  rcases ColorSpec.canConvert_iff.1 hc with rfl | hct
  · rw [convert_self, ← crop_spec img x y w h, convert_self]
    rfl
  have hcrop := hw.crop x y w h
  have hcc : (img.crop x y w h).spec.canConvert t = true := by rwa [crop_spec]
  have hcn := bufferSize?_crop hn x y w h
  rw [← crop_width img x y w h, ← crop_height img x y w h] at hcn
  have hleft := hcrop.convert_of_canConvert hcc hcn
  rw [hleft, hmid]
  refine congrArg Except.ok (WellFormed.ext (hcrop.convert hleft) ((hw.convert hmid).crop x y w h)
    (by simp) (by simp) (by simp) ?_)
  have hct' : ColorSpec.convertible (img.crop x y w h).spec t = true := by rwa [crop_spec]
  rw [hcrop.pixels_convert hct' hleft, (hw.convert hmid).pixels_crop, hw.pixels_convert hct hmid,
    hw.pixels_crop, crop_spec, Bytes.window_map]

/-- The last two columns of a 3×2 RGB8 image, cropped and converted to RGBA16 in either order. -/
theorem crop_convert_rgba16 :
    ∃ img, Image.ofBytes 3 2 .rgb8 ⟨#[1, 2, 3, 4, 5, 6, 7, 8, 9, 10, 11, 12, 13, 14, 15, 16, 17, 18]⟩ = .ok img ∧ img.WellFormed ∧
      (ColorSpec.rgba16.bufferSize? img.width img.height).isSome ∧
      ((img.crop 1 0 2 2).convert .rgba16 = (img.convert .rgba16).map (·.crop 1 0 2 2) ∧
        ∀ e, img.convert .rgba16 = .error e → e = .unsupportedConversion img.spec .rgba16) :=
  have hmade : Image.ofBytes 3 2 .rgb8 ⟨#[1, 2, 3, 4, 5, 6, 7, 8, 9, 10, 11, 12, 13, 14, 15, 16, 17, 18]⟩ = .ok _ := rfl
  have hw := wellFormed_of_ofBytes hmade
  ⟨_, hmade, hw, rfl, crop_convert _ hw 1 0 2 2 .rgba16 rfl⟩

end Image

end Pixmap
