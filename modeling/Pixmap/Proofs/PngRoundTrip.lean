import Pixmap.Proofs.DecodedPixels
import Pixmap.Proofs.PngReading
import Pixmap.Proofs.EncodeSinks

/-! The PNG round trip: the encoder's file decodes to the decoded image converted to the request
(`png_round_trip`), unless a decoded row exceeds the decoder's budget (`png_round_trip_too_wide`). -/
namespace Pixmap

namespace Png

theorem Buffered.rest_start (d : ByteArray) : ({ reader := ⟨d, 0⟩ } : Buffered MemoryReader).rest = d := by
  rw [Buffered.rest]
  simp

section Encoded

variable {w h : Nat} {spec T : ColorSpec} {px : ByteArray}

theorem length_encodedRows : (encodedRows spec w h px).length = h := by
  simp [encodedRows]

theorem width_encodedHeader : (encodedHeader w h spec).width = w := rfl

theorem height_encodedHeader : (encodedHeader w h spec).height = h := rfl

/-- The encoder's header names one plain row after another, each `w` pixels wide. -/
theorem rowPlaces_encodedHeader :
    (encodedHeader w h spec).rowPlaces = (List.range h).map fun y => ⟨0, w, y, 0, 1⟩ :=
  rfl

theorem colorType_encodedHeader : (encodedHeader w h spec).colorType ≠ .indexed := by
  obtain ⟨f, d⟩ := spec
  cases f <;> simp [encodedHeader, ColorType.ofFormat]

theorem dataLimit_encodedHeader :
    ({ header := encodedHeader w h spec } : Info).dataLimit = h * (w * spec.bytesPerPixel + 1) := by
  simp only [Info.dataLimit, encodedHeader, Bool.false_eq_true, if_false]
  rw [← rowBytes_encoded w h w spec]
  rfl

/-- A row the decoder gives back from the encoder's file: the source's samples, at the depth the
request keeps. -/
theorem outputLineSize_encodedHeader :
    ({ header := encodedHeader w h spec } : Info).outputLineSize (decide (T.depth = .bits8)) w =
      w * (spec.channels * (decodedSpec spec T).depth.bytes) := by
  rw [Info.outputLineSize, Info.outputPixelBytes, outputColor_encoded]
  dsimp only
  rw [samples_ofFormat]
  congr 2
  cases (decodedSpec spec T).depth <;> rfl

/-- The stored stream adds at most its own length again in headers and checksum. -/
theorem size_zlibStored_le (data : ByteArray) : (Deflate.zlibStored data).size ≤ 2 * data.size + 11 := by
  have hlast : Deflate.storedLimit * Deflate.lastBlock data + Deflate.blockLength data (Deflate.lastBlock data) =
      data.size := Deflate.blockLength_last
  rw [Deflate.size_zlibStored]
  unfold Deflate.checksumStart Deflate.blockStart Deflate.storedLimit at *
  omega

theorem size_scanlines (config : CodecConfig) {img : Image} (hw : 0 < img.width)
    (hpx : img.bytes.size = img.height * (img.width * img.spec.bytesPerPixel)) :
    (scanlines (PngCodec.settings config img)).size = img.height * (img.width * img.spec.bytesPerPixel + 1) := by
  rw [(unfiltered_scanlines config hw hpx).size, length_encodedRows]

/-- The budget a row may take, below 64 MiB. -/
theorem rowBudget_le : memoryBudget - softwareText.size ≤ 2 ^ 26 := by decide

/-- A decoded row is at least as long as the image is wide. -/
theorem width_le_decodedRow : w ≤ w * (spec.channels * (decodedSpec spec T).depth.bytes) :=
  Nat.le_mul_of_pos_right w (Nat.mul_pos spec.format.channels_pos (decodedSpec spec T).depth.bytes_pos)

/-- A stored row is at most twice the decoded row: decoding keeps every channel and at worst cuts
16-bit samples to 8. -/
theorem storedRow_le : w * spec.bytesPerPixel ≤ 2 * (w * (spec.channels * (decodedSpec spec T).depth.bytes)) := by
  have hdepth : spec.depth.bytes ≤ 2 * (decodedSpec spec T).depth.bytes := by
    obtain ⟨f, d⟩ := spec
    obtain ⟨g, e⟩ := T
    cases d <;> cases e <;> simp [decodedSpec, ChannelDepth.bytes]
  calc w * spec.bytesPerPixel = w * (spec.channels * spec.depth.bytes) := rfl
    _ ≤ w * (spec.channels * (2 * (decodedSpec spec T).depth.bytes)) :=
      Nat.mul_le_mul_left w (Nat.mul_le_mul_left _ hdepth)
    _ = 2 * (w * (spec.channels * (decodedSpec spec T).depth.bytes)) := by
      rw [Nat.mul_left_comm spec.channels, Nat.mul_left_comm w]

section Budget

/- An image of 32-bit sides whose decoded rows fit the budget: every size the decoder works out
for it is far below the bounds it checks. -/
variable (hh' : h < 2 ^ 32)
  (hline : w * (spec.channels * (decodedSpec spec T).depth.bytes) ≤ memoryBudget - softwareText.size)
include hh' hline

/-- The image fits the address space in any layout. -/
theorem sides_small : w * 8 * h < addressSpace := by
  have hw : w ≤ 2 ^ 26 := le_trans width_le_decodedRow (le_trans hline rowBudget_le)
  calc w * 8 * h ≤ 2 ^ 26 * 8 * 2 ^ 32 := Nat.mul_le_mul (Nat.mul_le_mul_right 8 hw) (Nat.le_of_lt hh')
    _ < addressSpace := by decide

/-- The decoder's frame fits a signed 64-bit size. -/
theorem outputLineSize_mul_le :
    ({ header := encodedHeader w h spec } : Info).outputLineSize (decide (T.depth = .bits8)) w * h ≤
      largestBuffer := by
  rw [outputLineSize_encodedHeader]
  calc w * (spec.channels * (decodedSpec spec T).depth.bytes) * h ≤ 2 ^ 26 * 2 ^ 32 :=
        Nat.mul_le_mul (le_trans hline rowBudget_le) (Nat.le_of_lt hh')
    _ ≤ largestBuffer := by decide

/-- The stored stream of the rows is far shorter than the decoder's count of chunks. -/
theorem zlibStored_lt_chunkBound {S : ByteArray} (hS : S.size = h * (w * spec.bytesPerPixel + 1)) :
    (Deflate.zlibStored S).size < chunkBound := by
  have hrow : w * spec.bytesPerPixel + 1 ≤ 2 * 2 ^ 26 + 1 :=
    Nat.succ_le_succ (le_trans storedRow_le (Nat.mul_le_mul_left 2 (le_trans hline rowBudget_le)))
  have hdata : S.size ≤ 2 ^ 32 * (2 * 2 ^ 26 + 1) := by
    rw [hS]
    exact Nat.mul_le_mul (Nat.le_of_lt hh') hrow
  calc (Deflate.zlibStored S).size ≤ 2 * S.size + 11 := size_zlibStored_le _
    _ ≤ 2 * (2 ^ 32 * (2 * 2 ^ 26 + 1)) + 11 := Nat.add_le_add_right (Nat.mul_le_mul_left 2 hdata) 11
    _ < chunkBound := by decide

/-- The frame plan for a session of the encoder's file: the layout the decoder picks for `T`,
its channels and the encoder's colour type. -/
theorem runOn_plan_encoded {σ : Type} (limits : Limits) (hh : 0 < h)
    (hlim : limits.checkImage w h (decodedSpec spec T) = .ok ()) (opened : Opened) (pending : ByteArray)
    (hinfo : opened.info = { header := encodedHeader w h spec }) (s : σ) (j : Array Record) :
    ∃ n j', (PngCodec.plan library limits T ⟨opened, pending, decide (T.depth = .bits8)⟩ : CodecM σ _).runOn s j =
      ((.ok ⟨decodedSpec spec T, decodedChannels spec T, ColorType.ofFormat spec.format, n⟩, s), j') := by
  have hsome : ¬ ((decodedSpec spec T).bufferSize? w h).isNone = true := by
    rw [ColorSpec.bufferSize?_of_small hh (sides_small hh' hline)]
    exact Bool.false_ne_true
  obtain ⟨info, first⟩ := opened
  dsimp only at hinfo
  subst hinfo
  unfold PngCodec.plan
  dsimp only [library]
  rw [outputColor_encoded]
  dsimp only
  rw [channelDepth_ofChannelDepth, CodecM.runOn_bind_ok (runOn_ofExcept _ _ _), targetLayout_encoded,
    CodecM.runOn_bind_ok (runOn_ofExcept _ _ _), runOn_liftM_bind]
  dsimp only
  rw [width_encodedHeader, height_encodedHeader, CodecM.runOn_bind_ok (by rw [hlim]; rfl), if_neg hsome]
  exact ⟨_, _, rfl⟩

end Budget

/-- A row of the encoder's file as the decoder gives it back for `T`. -/
theorem lineSize_encoded (first : Nat) (pending : ByteArray) :
    (⟨⟨{ header := encodedHeader w h spec }, first⟩, pending, decide (T.depth = .bits8)⟩ : Session).lineSize =
      w * (spec.channels * (decodedSpec spec T).depth.bytes) :=
  outputLineSize_encodedHeader

/-- Reading the encoder's file from its start: the header and text chunks, then the rows of the
image-data chunks, expanded and repacked in the layout the decoder picks for `T`. -/
theorem readImage_fileBytes (config : CodecConfig) {img : Image} (limits : Limits) (j : Array Record)
    (hw : 0 < img.width) (hh : 0 < img.height) (hw' : img.width < 2 ^ 32) (hh' : img.height < 2 ^ 32)
    (hpx : img.bytes.size = img.height * (img.width * img.spec.bytesPerPixel))
    (hline : img.width * (img.spec.channels * (decodedSpec img.spec T).depth.bytes) ≤
      memoryBudget - softwareText.size)
    (hlim : limits.checkImage img.width img.height (decodedSpec img.spec T) = .ok ()) :
    ∃ s j', (PngCodec.readImage library limits T : CodecM MemoryReader Image).runOn
        ⟨fileBytes (PngCodec.settings config img), 0⟩ j =
      (do
        let decoded ← CodecM.ofExcept (Image.ofBytes img.width img.height (decodedSpec img.spec T)
          (PngCodec.repack (decodedSpec img.spec T).depth (ColorType.ofFormat img.spec.format).samples
            (decodedChannels img.spec T) img.width img.height
            (img.width * (img.spec.channels * (decodedSpec img.spec T).depth.bytes))
            (assemble { header := encodedHeader img.width img.height img.spec } (decide (T.depth = ChannelDepth.bits8))
              (encodedRows img.spec img.width img.height img.bytes))))
        intoSpec decoded T).runOn s j' := by
  have hS := unfiltered_scanlines config hw hpx
  obtain ⟨b, hopen, hb⟩ := run_openStream_fileBytes (j := j) (describes_settings config img)
    (Buffered.rest_start _) hw hh hw' hh' (outputLineSize_mul_le hh' hline)
    (by rw [outputLineSize_encodedHeader]; exact hline)
  have hsides : (PngCodec.settings config img).width = img.width ∧
      (PngCodec.settings config img).height = img.height := ⟨rfl, rfl⟩
  rw [hsides.1, hsides.2] at hopen
  unfold PngCodec.readImage
  rw [CodecM.runOn_bind_ok (runOn_readInfo hopen)]
  dsimp only
  obtain ⟨n, j₁, hplan⟩ := runOn_plan_encoded hh' hline limits hh hlim
    ⟨{ header := encodedHeader img.width img.height img.spec }, _⟩ b.pending rfl b.reader j
  rw [CodecM.runOn_bind_ok hplan]
  obtain ⟨b', hframe⟩ := run_readFrame (decide (T.depth = ChannelDepth.bits8)) hS
    (show ({ header := encodedHeader img.width img.height img.spec } : Info).header.rowPlaces.length = _ by
      rw [rowPlaces_encodedHeader, List.length_map, List.length_range, length_encodedRows])
    (fun p hp => by
      rw [rowPlaces_encodedHeader] at hp
      obtain ⟨y, -, rfl⟩ := List.mem_map.1 hp
      exact rowBytes_encoded _ _ _ img.spec)
    colorType_encodedHeader (by rw [dataLimit_encodedHeader, hS.size, length_encodedRows])
    (zlibStored_lt_chunkBound hh' hline (size_scanlines config hw hpx)) (j := j₁) hb
  rw [CodecM.runOn_bind_ok (runOn_nextFrame ⟨⟨{ header := encodedHeader img.width img.height img.spec }, _⟩,
    b.pending, decide (T.depth = ChannelDepth.bits8)⟩ n (r := b.reader) hframe)]
  dsimp only
  unfold PngCodec.adopt
  have hline0 : img.width * (img.spec.channels * (decodedSpec img.spec T).depth.bytes) ≠ 0 :=
    Nat.pos_iff_ne_zero.1 (Nat.mul_pos hw (Nat.mul_pos img.spec.format.channels_pos
      (decodedSpec img.spec T).depth.bytes_pos))
  dsimp only
  rw [lineSize_encoded, if_neg hline0, samples_ofFormat, if_neg (fun h => Nat.lt_irrefl _ h.1)]
  exact ⟨_, _, rfl⟩

end Encoded

/-- The encoder's file starts with the signature. -/
theorem extract_fileBytes_signature (s : PngSettings) :
    (fileBytes s).extract 0 8 = signature ∧ 8 ≤ (fileBytes s).size := by
  obtain ⟨rest, hsplit⟩ : ∃ rest, fileBytes s = signature ++ rest :=
    ⟨_, by simp only [fileBytes, ByteArray.append_assoc]; rfl⟩
  have hsize : signature.size = 8 := rfl
  rw [hsplit, ByteArray.extract_append_of_le (by rw [hsize]), ← hsize, ByteArray.extract_zero_size,
    ByteArray.size_append]
  exact ⟨rfl, Nat.le_add_right _ _⟩

end Png

/-- A well-formed image holds its rows one after another. -/
theorem Image.WellFormed.size_bytes_rows {img : Image} (hw : img.WellFormed) :
    img.bytes.size = img.height * (img.width * img.spec.bytesPerPixel) := by
  rw [hw.size_bytes, Image.bufferSize, Image.stride, Nat.mul_comm]

namespace PngCodec

open Png

/-- A file that starts with the signature is read from its start: the signature is checked and
stepped back over. -/
theorem decode_runOn_signed {d : ByteArray} (hsig : d.extract 0 8 = signature) (h8 : 8 ≤ d.size)
    (png : PngLibrary) (limits : Limits) (T : ColorSpec) (j : Array Record) :
    (decode png limits T : CodecM MemoryReader Image).runOn ⟨d, 0⟩ j =
      (readImage png limits T).runOn ⟨d, 0⟩ j := by
  have hread : (tryCatch (readFull 8) fun _ => pure ByteArray.empty : CodecM MemoryReader ByteArray).runOn
      ⟨d, 0⟩ j = ((.ok signature, ⟨d, 8⟩), j) := by
    have h := MemoryReader.readFull_runOn d 0 8 j
    rw [if_pos (by omega), Nat.zero_add, hsig] at h
    exact run_tryCatch_ok h
  have hseek : (CodecM.ofRead (ByteReader.seek (-8)) : CodecM MemoryReader Nat).runOn ⟨d, 8⟩ j =
      ((.ok 0, ⟨d, 0⟩), j) := by
    have hback : moveCursor 8 (-8) = 0 := moveCursor_back_eight (Nat.zero_le _)
    rw [CodecM.runOn_ofRead (MemoryReader.run_seek d 8 (-8) j), hback, Nat.zero_min]
    rfl
  unfold decode
  rw [CodecM.runOn_bind_ok hread]
  have hsame : (signature != signature) = false := by decide
  rw [hsame, if_neg Bool.false_ne_true, CodecM.runOn_bind_ok hseek]

variable {img : Image} {T : ColorSpec}

/-- The decoder's buffer for the encoder's file of `img` holds the pixels of `img.pngDecoded T`. -/
theorem repack_encoded (hw : img.WellFormed) (hv : img.isValid = true) :
    repack (decodedSpec img.spec T).depth (ColorType.ofFormat img.spec.format).samples (decodedChannels img.spec T)
        img.width img.height (img.width * (img.spec.channels * (decodedSpec img.spec T).depth.bytes))
        (assemble { header := encodedHeader img.width img.height img.spec } (decide (T.depth = ChannelDepth.bits8))
          (encodedRows img.spec img.width img.height img.bytes)) =
      (img.pixels.flatMap (decodedPixel img.spec T)).toByteArray := by
  have hsides := hw.isValid_iff_sides.1 hv
  have hpx := hw.size_bytes_rows
  apply ByteArray.ext
  apply Array.toList_inj.1
  rw [toList_repack_decoded hsides.1 hw.uniform_pixels (by rw [hw.length_pixels, Nat.mul_comm])
      (by rw [toList_assemble_encoded _ hsides.1 hpx, Image.flatten_pixels]),
    List.data_toByteArray, List.toList_toArray]

/-- Decoding the encoder's file of a valid image of 32-bit sides gives `img.pngDecoded T` converted
to `T`, when a row the decoder gives back for `T` fits its memory budget. -/
theorem decode_fileBytes (config : CodecConfig) (hw : img.WellFormed) (hv : img.isValid = true)
    (hw' : img.width < 2 ^ 32) (hh' : img.height < 2 ^ 32) (limits : Limits)
    (hline : img.width * (img.spec.channels * (decodedSpec img.spec T).depth.bytes) ≤
      memoryBudget - softwareText.size)
    (hlim : limits.checkImage img.width img.height (decodedSpec img.spec T) = .ok ()) (j : Array Record) :
    ((decode library limits T : CodecM MemoryReader Image).runOn ⟨fileBytes (settings config img), 0⟩ j).1.1 =
      (img.pngDecoded T).convert T := by
  have hsides := hw.isValid_iff_sides.1 hv
  have hpx := hw.size_bytes_rows
  obtain ⟨hsig, h8⟩ := extract_fileBytes_signature (settings config img)
  obtain ⟨s, j', hrun⟩ := readImage_fileBytes config limits j hsides.1 hsides.2 hw' hh' hpx hline hlim
  -- the repacked buffer has the size of the decoded layout, so it is taken as it is
  have hbytes := hw.ofBytes_mapPixels hv (fun p _ => length_decodedPixel img.spec T p) (sides_small hh' hline)
  rw [decode_runOn_signed hsig h8, hrun, repack_encoded hw hv, CodecM.runOn_bind_ok (by rw [hbytes]; rfl),
    runOn_intoSpec]
  rfl

/-- Decoding the encoder's file fails with "limits are exceeded" when a row the decoder gives back
for `T` is longer than its memory budget less the text chunk, whatever the limits: the decoder
refuses the file while opening it, before the limits are looked at. -/
theorem decode_fileBytes_wide {s : PngSettings} {spec : ColorSpec} (hs : Describes s spec) (hw : 0 < s.width)
    (hh : 0 < s.height) (hw' : s.width < 2 ^ 32) (hh' : s.height < 2 ^ 32) (limits : Limits)
    (hline : memoryBudget - softwareText.size < s.width * (spec.channels * (decodedSpec spec T).depth.bytes))
    (j : Array Record) :
    ((decode library limits T : CodecM MemoryReader Image).runOn ⟨fileBytes s, 0⟩ j).1.1 =
      .error (.codec .png Problem.limitsExceeded.message) := by
  obtain ⟨hsig, h8⟩ := extract_fileBytes_signature s
  have hwide : memoryBudget - softwareText.size <
      ({ header := encodedHeader s.width s.height spec } : Info).outputLineSize
        (decide (T.depth = ChannelDepth.bits8)) s.width := by
    rw [outputLineSize_encodedHeader]
    exact hline
  obtain ⟨b, hopen⟩ := run_openStream_fileBytes_wide (j := j) hs (Buffered.rest_start _) hw hh hw' hh' hwide
  rw [decode_runOn_signed hsig h8]
  unfold readImage
  rw [CodecM.runOn_bind_error (runOn_readInfo hopen)]
  rfl

end PngCodec

/-- No bounds pass every image. -/
theorem Limits.checkImage_default (w h : Nat) (s : ColorSpec) : ({} : Limits).checkImage w h s = .ok () := by
  rw [Limits.checkImage_eq_ok_iff, Limits.breach_eq_ok_iff]
  simp [Limits.within]

/-- A PNG request decodes bytes as the PNG decoder does from their start, under the request's
bounds or none. -/
theorem DecodeRequest.decodeBytes_png {r : DecodeRequest} (hr : r.format = some .png) (png : PngLibrary)
    (d : ByteArray) (j : Array Record) : ∃ j', ((r.decodeBytes png d).run j).1 =
      ((PngCodec.decode png (r.limits.getD {}) r.spec : CodecM MemoryReader Image).runOn ⟨d, 0⟩ j').1.1 := by
  change ∃ j', ((r.decode png : CodecM MemoryReader Image).runOn ⟨d, 0⟩ j).1.1 = _
  unfold DecodeRequest.decode
  rw [hr]
  dsimp only
  rw [runOn_liftM_bind]
  exact ⟨_, rfl⟩

namespace EncodeRequest

/-- A valid image is encoded as PNG by this project's encoder into the file of its settings. -/
theorem encodeToBytes_png {img : Image} (hw : img.WellFormed) (hv : img.isValid = true) (j : Array Record) :
    ((({ format := .png } : EncodeRequest).encodeToBytes Png.library img).run j).1 =
      .ok (Png.fileBytes (PngCodec.settings {} img)) := by
  have hsides := hw.isValid_iff_sides.1 hv
  have hpos : 0 < img.bytes.size := by
    rw [hw.size_bytes_rows]
    exact Nat.mul_pos hsides.2 (Nat.mul_pos hsides.1 img.spec.bytesPerPixel_pos)
  rw [encodeToBytes_output _ Png.library_refusesUnwritten, output]
  dsimp only
  rw [if_neg (by simp only [ByteArray.isEmpty, beq_iff_eq]; omega)]
  show Except.ok (Png.fileBytes (PngCodec.settings {} img) ++ ByteArray.empty) = _
  rw [ByteArray.append_empty]

/-- The PNG round trip through this project's encoder and decoder. A valid image encoded as PNG and
decoded as `T` comes back as the source,
with gray spread to RGB, converted to `T` when `T` is in colour; it is refused when `T` is gray and
the source is not; and a gray source comes back as it was at its own depth, cut to the high byte of
each value from 16 bits to 8, and is refused from 8 bits to 16. This holds for every image whose
rows, as the decoder gives them back for `T`, fit its memory budget less the text chunk; the other
images are refused (`png_round_trip_too_wide`). -/
theorem png_round_trip {img : Image} (hw : img.WellFormed) (hv : img.isValid = true)
    (hsides : img.width < Image.sideLimit ∧ img.height < Image.sideLimit) (T : ColorSpec)
    (hrow : img.width * (img.spec.channels * (Png.decodedSpec img.spec T).depth.bytes) ≤
      Png.memoryBudget - Png.softwareText.size)
    (j j' : Array Record) :
    ∃ bytes, ((({ format := .png } : EncodeRequest).encodeToBytes Png.library img).run j).1 = .ok bytes ∧
      let R := ((({ format := some .png, spec := T } : DecodeRequest).decodeBytes Png.library bytes).run j').1
      (T.format ≠ .monochromatic → R = img.spreadGray.convert T) ∧
      (T.format = .monochromatic → img.spec.format ≠ .monochromatic →
        R = .error (.unsupportedConversion (Png.decodedSpec img.spec T) T)) ∧
      (T = img.spec → R = .ok img) ∧
      (img.spec = .gray16 → T = .gray8 → R = .ok (img.mapPixels .gray8 (ChannelDepth.recode .bits16 .bits8))) ∧
      (img.spec = .gray8 → T = .gray16 → R = .error (.unsupportedConversion .gray8 .gray16)) := by
  have hpos := hw.isValid_iff_sides.1 hv
  have hlimit : Image.sideLimit = 2 ^ 32 := rfl
  rw [hlimit] at hsides
  have hsmall : img.width * 8 * img.height < addressSpace := Png.sides_small hsides.2 hrow
  refine ⟨_, encodeToBytes_png hw hv j, ?_⟩
  obtain ⟨j'', hdec⟩ := DecodeRequest.decodeBytes_png (r := { format := some .png, spec := T }) rfl
    Png.library (Png.fileBytes (PngCodec.settings {} img)) j'
  dsimp only at hdec
  rw [Option.getD_none, PngCodec.decode_fileBytes {} hw hv hsides.1 hsides.2 {} hrow
    (Limits.checkImage_default _ _ _) j''] at hdec
  dsimp only
  rw [hdec]
  refine ⟨fun hT => hw.pngDecoded_convert_of_color hpos.2 hsmall hT,
    fun hT hs => Image.pngDecoded_convert_to_gray hs hT, ?same, ?cut, ?widen⟩
  case same =>
    rintro rfl
    rw [hw.pngDecoded_self, Image.convert_self]
  case cut =>
    rintro hs rfl
    rw [hw.pngDecoded_gray16_gray8 hs]
    exact Image.convert_self _
  case widen =>
    rintro hs rfl
    exact Image.pngDecoded_gray8_gray16 hs

/-- The PNG round trip through this project's encoder and decoder fails for an image whose rows, as the decoder gives them back for the
requested layout, are longer than its memory budget less the text chunk: the file is refused with
"limits are exceeded" before the request's own limits are looked at. An 8-bit RGB image decoded as
RGB8 is refused from 22369616 pixels wide on, rows of less than 64 MiB. -/
theorem png_round_trip_too_wide {img : Image} (hw : img.WellFormed) (hv : img.isValid = true)
    (hsides : img.width < Image.sideLimit ∧ img.height < Image.sideLimit) {r : DecodeRequest}
    (hr : r.format = some .png)
    (hwide : Png.memoryBudget - Png.softwareText.size <
      img.width * (img.spec.channels * (Png.decodedSpec img.spec r.spec).depth.bytes))
    (j j' : Array Record) :
    ∃ bytes, ((({ format := .png } : EncodeRequest).encodeToBytes Png.library img).run j).1 = .ok bytes ∧
      ((r.decodeBytes Png.library bytes).run j').1 = .error (.codec .png Png.Problem.limitsExceeded.message) := by
  have hpos := hw.isValid_iff_sides.1 hv
  have hlimit : Image.sideLimit = 2 ^ 32 := rfl
  rw [hlimit] at hsides
  refine ⟨_, encodeToBytes_png hw hv j, ?_⟩
  obtain ⟨j'', hdec⟩ := DecodeRequest.decodeBytes_png hr Png.library (Png.fileBytes (PngCodec.settings {} img)) j'
  rw [hdec, PngCodec.decode_fileBytes_wide (Png.describes_settings {} img) hpos.1 hpos.2 hsides.1 hsides.2 _ hwide]

end EncodeRequest

end Pixmap
