import Pixmap.Proofs.BufferedMemory
import Pixmap.Png.Encoder

/-! The chunks of the file the encoder writes, read back by the stream decoder up to the image
data (`run_openStream_fileBytes`). -/
namespace Pixmap

namespace Bytes

theorem beValue_be32 {v : Nat} (hv : v < 2 ^ 32) : beValue (be32 v) = v := by
  simp only [beValue, be32, List.foldl_cons, List.foldl_nil, Nat.toUInt8, UInt8.toNat_ofNat',
    Nat.shiftRight_eq_div_pow]
  omega

end Bytes

namespace Png

theorem beValue_crc (c : UInt32) : (Bytes.beValue (Bytes.be32 c.toNat)).toUInt32 = c := by
  rw [Bytes.beValue_be32 c.toNat_lt]
  exact UInt32.ofNat_toNat

/-- The text chunk the PNG codec writes into every file: the software that wrote it. -/
def softwareText : ByteArray := textData "Software" PngCodec.software

/-- Settings that describe an image of layout `spec`, with the one text chunk the codec writes. -/
structure Describes (s : PngSettings) (spec : ColorSpec) : Prop where
  color : s.color = .ofFormat spec.format
  depth : s.depth = .ofChannelDepth spec.depth
  texts : s.texts = [("Software", PngCodec.software)]

theorem describes_settings (config : CodecConfig) (img : Image) :
    Describes (PngCodec.settings config img) img.spec :=
  ⟨rfl, rfl, rfl⟩

variable {s : PngSettings} {spec : ColorSpec}

theorem Header.parse_headerData (hs : Describes s spec) (hw : 0 < s.width) (hh : 0 < s.height)
    (hw' : s.width < 2 ^ 32) (hh' : s.height < 2 ^ 32) :
    Header.parse (headerData s) =
      .ok ⟨s.width, s.height, BitDepth.ofChannelDepth spec.depth, ColorType.ofFormat spec.format, false⟩ := by
  have hsize : (headerData s).size = 13 := by simp [headerData, Bytes.be32]
  have hwidth : ((headerData s).extract 0 4).data.toList = Bytes.be32 s.width := by
    simp [headerData, Bytes.be32]
  have hheight : ((headerData s).extract 4 8).data.toList = Bytes.be32 s.height := by
    simp [headerData, Bytes.be32]
  have hfields : ((headerData s)[8]?, (headerData s)[9]?, (headerData s)[10]?,
      (headerData s)[11]?, (headerData s)[12]?) =
      (some (BitDepth.ofChannelDepth spec.depth).bits.toUInt8, some (ColorType.ofFormat spec.format).code.toUInt8,
        some 0, some 0, some 0) := by
    simp only [headerData, Bytes.be32, List.cons_append, List.nil_append, hs.color, hs.depth]
    rfl
  simp only [Prod.mk.injEq] at hfields
  obtain ⟨h8, h9, h10, h11, h12⟩ := hfields
  unfold Header.parse
  simp only [hsize, hwidth, hheight, Bytes.beValue_be32 hw', Bytes.beValue_be32 hh', h8, h9, h10, h11, h12]
  obtain ⟨f, d⟩ := spec
  cases f <;> cases d <;> simp [Nat.ne_of_gt hw, Nat.ne_of_gt hh] <;> rfl

namespace Buffered

variable {b : Buffered MemoryReader} {j : Array Record}

/-- The bytes written after a chunk's data: its CRC, high byte first. -/
def crcBytes (t : ChunkType) (d : ByteArray) : ByteArray := ⟨(Bytes.be32 (chunkCrc t d).toNat).toArray⟩

/-- Reading a chunk's head gives its type, and its length as far as four bytes hold it. -/
theorem run_readChunkHead_type {t : ChunkType} {d B : ByteArray} (h : b.rest = chunkBytes t d ++ B)
    (ht : t.bytes.length = 4) :
    ∃ b', (((readChunkHead : DecodeM MemoryReader _).run).run b).run j =
        ((.ok (Bytes.beValue (Bytes.be32 d.size), t), b'), j) ∧
      b'.rest = d ++ (crcBytes t d ++ B) := by
  have h' : b.rest = ⟨(Bytes.be32 d.size).toArray⟩ ++ ⟨t.bytes.toArray⟩ ++ (d ++ (crcBytes t d ++ B)) := by
    rw [h, chunkBytes]
    simp only [crcBytes, ByteArray.append_assoc]
  obtain ⟨b', hrun, hrest⟩ := run_readChunkHead (j := j) h' rfl (by simpa using ht)
  refine ⟨b', ?_, hrest⟩
  rw [hrun]

theorem run_readChunkHead_chunk {t : ChunkType} {d B : ByteArray} (h : b.rest = chunkBytes t d ++ B)
    (ht : t.bytes.length = 4) (hd : d.size < 2 ^ 32) :
    ∃ b', (((readChunkHead : DecodeM MemoryReader _).run).run b).run j = ((.ok (d.size, t), b'), j) ∧
      b'.rest = d ++ (crcBytes t d ++ B) := by
  obtain ⟨b', hrun, hrest⟩ := run_readChunkHead_type (j := j) h ht
  rw [Bytes.beValue_be32 hd] at hrun
  exact ⟨b', hrun, hrest⟩

theorem run_chunkData {t : ChunkType} {d B : ByteArray} (h : b.rest = d ++ (crcBytes t d ++ B)) :
    ∃ b₁ b', (((takeExact d.size : DecodeM MemoryReader _).run).run b).run j = ((.ok d, b₁), j) ∧
      (((readCrc : DecodeM MemoryReader _).run).run b₁).run j = ((.ok (chunkCrc t d), b'), j) ∧
      b'.rest = B := by
  obtain ⟨b₁, h₁, hr₁⟩ := run_takeExact (j := j) h
  obtain ⟨b', h₂, hr⟩ := run_readCrc (j := j) hr₁ rfl
  refine ⟨b₁, b', h₁, ?_, hr⟩
  rw [h₂, crcBytes, beValue_crc]

variable {strip16 : Bool} {g g' g'' : Option Gathered} {t : ChunkType} {d B : ByteArray}

theorem run_loop_chunk (h : b.rest = chunkBytes t d ++ B) (ht : t.bytes.length = 4) (hd : d.size < 2 ^ 32)
    (hhead : judgeHead strip16 g d.size t = .ok none)
    (hres : reserve g t d.size = (pure g' : DecodeM MemoryReader _))
    (hdata : judgeData strip16 g' t d.size d (chunkCrc t d) = .ok g'') (fuel : Nat) :
    ∃ b', (((openStream.loop strip16 g (fuel + 1) : DecodeM MemoryReader _).run).run b).run j =
      (((openStream.loop strip16 g'' fuel : DecodeM MemoryReader _).run).run b').run j ∧ b'.rest = B := by
  obtain ⟨b₁, h₁, hr₁⟩ := run_readChunkHead_chunk (j := j) h ht hd
  obtain ⟨b₂, b', h₂, h₃, hr⟩ := run_chunkData (j := j) hr₁
  refine ⟨b', ?_, hr⟩
  rw [openStream.loop, run_bind_ok h₁]
  dsimp only
  rw [hhead, run_bind_ok rfl]
  dsimp only
  rw [hres, run_bind_ok rfl, run_bind_ok h₂, run_bind_ok h₃, hdata, run_bind_ok rfl]

/-- A step of the opening loop at a chunk whose data the decoder refuses stops with that failure. -/
theorem run_loop_chunk_refused {f : Failure} (h : b.rest = chunkBytes t d ++ B) (ht : t.bytes.length = 4)
    (hd : d.size < 2 ^ 32) (hhead : judgeHead strip16 g d.size t = .ok none)
    (hres : reserve g t d.size = (pure g' : DecodeM MemoryReader _))
    (hdata : judgeData strip16 g' t d.size d (chunkCrc t d) = .error f) (fuel : Nat) :
    ∃ b', (((openStream.loop strip16 g (fuel + 1) : DecodeM MemoryReader Opened).run).run b).run j =
      ((.error f, b'), j) := by
  obtain ⟨b₁, h₁, hr₁⟩ := run_readChunkHead_chunk (j := j) h ht hd
  obtain ⟨b₂, b', h₂, h₃, -⟩ := run_chunkData (j := j) hr₁
  refine ⟨b', ?_⟩
  rw [openStream.loop, run_bind_ok h₁]
  dsimp only
  rw [hhead, run_bind_ok rfl]
  dsimp only
  rw [hres, run_bind_ok rfl, run_bind_ok h₂, run_bind_ok h₃, hdata]
  rfl

/-- A step of the opening loop at a chunk whose head the decoder refuses, whatever length the
head holds, stops with that failure once the head is read. -/
theorem run_loop_refused {f : Failure} (h : b.rest = chunkBytes t d ++ B) (ht : t.bytes.length = 4)
    (hhead : ∀ n, judgeHead strip16 g n t = .error f) (fuel : Nat) :
    ∃ b', (((openStream.loop strip16 g (fuel + 1) : DecodeM MemoryReader Opened).run).run b).run j =
      ((.error f, b'), j) := by
  obtain ⟨b₁, h₁, -⟩ := run_readChunkHead_type (j := j) h ht
  refine ⟨b₁, ?_⟩
  rw [openStream.loop, run_bind_ok h₁]
  dsimp only
  rw [hhead]
  rfl

theorem run_loop_open {o : Opened} (h : b.rest = chunkBytes t d ++ B) (ht : t.bytes.length = 4)
    (hd : d.size < 2 ^ 32) (hhead : judgeHead strip16 g d.size t = .ok (some o)) (fuel : Nat) :
    ∃ b', (((openStream.loop strip16 g (fuel + 1) : DecodeM MemoryReader _).run).run b).run j =
      ((.ok o, b'), j) ∧ b'.rest = d ++ (crcBytes t d ++ B) := by
  obtain ⟨b₁, h₁, hr₁⟩ := run_readChunkHead_chunk (j := j) h ht hd
  refine ⟨b₁, ?_, hr₁⟩
  rw [openStream.loop, run_bind_ok h₁]
  dsimp only
  rw [hhead, run_bind_ok rfl]
  rfl


end Buffered

section DataChunks

variable {Z : ByteArray} {c : Nat}

/-- Where the image-data chunk from position `c` of the stream `Z` ends. -/
def chunkEnd (Z : ByteArray) (c : Nat) : Nat := min (c + dataChunkLimit) Z.size

/-- The image-data chunks the encoder writes for the stream `Z` from position `c` on; none once
the stream is used up. -/
def dataChunksFrom (Z : ByteArray) (c : Nat) : ByteArray :=
  if c < Z.size then dataChunks (Z.extract c Z.size) else .empty

theorem dataChunksFrom_of_le (hc : Z.size ≤ c) : dataChunksFrom Z c = .empty := by
  rw [dataChunksFrom, if_neg (Nat.not_lt.2 hc)]

theorem dataChunks_eq_from (hZ : 0 < Z.size) : dataChunks Z = dataChunksFrom Z 0 := by
  rw [dataChunksFrom, if_pos hZ, ByteArray.extract_zero_size]

/-- The chunks from `c` on are the chunk up to its end, then the chunks after it. -/
theorem dataChunksFrom_of_lt (hc : c < Z.size) :
    dataChunksFrom Z c = chunkBytes .idat (Z.extract c (chunkEnd Z c)) ++ dataChunksFrom Z (chunkEnd Z c) := by
  have hsize : (Z.extract c Z.size).size = Z.size - c := by simp
  rw [dataChunksFrom, if_pos hc, dataChunks, hsize]
  by_cases hlast : Z.size - c ≤ dataChunkLimit
  case pos =>
    have hend : chunkEnd Z c = Z.size := by
      unfold chunkEnd
      omega
    rw [if_pos hlast, hend, dataChunksFrom_of_le (le_refl _), ByteArray.append_empty]
  case neg =>
    have hend : chunkEnd Z c = c + dataChunkLimit := by
      unfold chunkEnd
      omega
    rw [if_neg hlast, hend, dataChunksFrom, if_pos (by omega), ByteArray.extract_extract, ByteArray.extract_extract,
      Nat.add_zero, Nat.min_eq_left (by omega), show c + (Z.size - c) = Z.size by omega, Nat.min_self]

theorem chunkEnd_le : chunkEnd Z c ≤ Z.size := Nat.min_le_right _ _

/-- A chunk ends before the stream's end only after holding all it may. -/
theorem chunkEnd_of_lt (h : chunkEnd Z c < Z.size) : chunkEnd Z c = c + dataChunkLimit := by
  unfold chunkEnd at *
  omega

theorem lt_chunkEnd (hc : c < Z.size) : c < chunkEnd Z c := by
  have hpos : 0 < dataChunkLimit := by decide
  unfold chunkEnd
  omega

theorem size_chunk : (Z.extract c (chunkEnd Z c)).size = chunkEnd Z c - c := by
  rw [ByteArray.size_extract, Nat.min_eq_left chunkEnd_le]

/-- A chunk's length fits its four-byte field. -/
theorem size_chunk_lt : (Z.extract c (chunkEnd Z c)).size < 2 ^ 32 := by
  have hlimit : dataChunkLimit < 2 ^ 32 := by decide
  rw [size_chunk]
  unfold chunkEnd
  omega

end DataChunks

/-- The header the encoder writes for an image of sides `w`, `h` and layout `spec`. -/
def encodedHeader (w h : Nat) (spec : ColorSpec) : Header :=
  ⟨w, h, BitDepth.ofChannelDepth spec.depth, ColorType.ofFormat spec.format, false⟩

section File

variable {strip16 : Bool}

/-- The encoder's header chunk is taken as the header it describes, and refused only when the
whole output would not fit a signed 64-bit size. -/
theorem judgeData_header_eq (hs : Describes s spec) (hw : 0 < s.width) (hh : 0 < s.height) (hw' : s.width < 2 ^ 32) (hh' : s.height < 2 ^ 32) :
    judgeData strip16 none .ihdr (headerData s).size (headerData s)
        (chunkCrc .ihdr (headerData s)) =
      if ({ header := encodedHeader s.width s.height spec } : Info).outputLineSize strip16 s.width * s.height > largestBuffer then
        .error (.problem .limitsExceeded)
      else .ok (some { info := { header := encodedHeader s.width s.height spec } }) := by
  have hcrit : ChunkType.ihdr.isCritical = true := rfl
  have hend : ChunkType.ihdr ≠ .iend := by decide
  simp only [judgeData, bne_self_eq_false, Bool.false_eq_true, if_false, hend, hcrit, Bool.not_true,
    false_and, gather, Header.parse_headerData hs hw hh hw' hh']
  by_cases hbig : ({ header := encodedHeader s.width s.height spec } : Info).outputLineSize strip16 s.width * s.height > largestBuffer
  case pos =>
    rw [if_pos hbig]
    simp only [encodedHeader] at hbig
    simp only [Except.mapError, bind, Except.bind, hbig, if_true]
    rfl
  case neg =>
    rw [if_neg hbig]
    simp only [encodedHeader] at hbig
    simp only [Except.mapError, bind, Except.bind, hbig, if_false]
    rfl

theorem judgeData_header (hs : Describes s spec) (hw : 0 < s.width) (hh : 0 < s.height) (hw' : s.width < 2 ^ 32) (hh' : s.height < 2 ^ 32)
    (hbig : ({ header := encodedHeader s.width s.height spec } : Info).outputLineSize strip16 s.width * s.height ≤ largestBuffer) :
    judgeData strip16 none .ihdr (headerData s).size (headerData s)
        (chunkCrc .ihdr (headerData s)) =
      .ok (some { info := { header := encodedHeader s.width s.height spec } }) := by
  rw [judgeData_header_eq hs hw hh hw' hh', if_neg (Nat.not_lt.2 hbig)]

theorem judgeData_header_huge (hs : Describes s spec) (hw : 0 < s.width) (hh : 0 < s.height) (hw' : s.width < 2 ^ 32) (hh' : s.height < 2 ^ 32)
    (hbig : largestBuffer < ({ header := encodedHeader s.width s.height spec } : Info).outputLineSize strip16 s.width * s.height) :
    judgeData strip16 none .ihdr (headerData s).size (headerData s)
        (chunkCrc .ihdr (headerData s)) = .error (.problem .limitsExceeded) := by
  rw [judgeData_header_eq hs hw hh hw' hh', if_pos hbig]

theorem judgeHead_text (I : Info) : judgeHead strip16 (some { info := I }) softwareText.size .text = .ok none :=
  rfl

theorem reserve_text (I : Info) :
    reserve (some { info := I }) .text softwareText.size = (pure (some { info := I }) : DecodeM MemoryReader _) :=
  rfl

theorem judgeData_text (I : Info) :
    judgeData strip16 (some { info := I }) .text softwareText.size softwareText (chunkCrc .text softwareText) =
      .ok (some { info := I, budget := memoryBudget - softwareText.size }) := by
  simp only [judgeData, bne_self_eq_false, Bool.false_eq_true, if_false]
  rfl

theorem judgeHead_data (I : Info) (n : Nat)
    (hline : I.outputLineSize strip16 I.header.width ≤ memoryBudget - softwareText.size) :
    judgeHead strip16 (some { info := I, budget := memoryBudget - softwareText.size }) n .idat =
      .ok (some ⟨I, n⟩) := by
  have hline := Nat.not_lt.2 hline
  simp only [judgeHead, gt_iff_lt, hline, if_false]
  rfl

/-- A row longer than the budget the text chunk leaves is refused at the head of the image data. -/
theorem judgeHead_data_wide (I : Info) (n : Nat)
    (hline : memoryBudget - softwareText.size < I.outputLineSize strip16 I.header.width) :
    judgeHead strip16 (some { info := I, budget := memoryBudget - softwareText.size }) n .idat =
      .error (.problem .limitsExceeded) := by
  simp only [judgeHead, gt_iff_lt, hline, if_true]
  rfl

theorem size_headerData (s : PngSettings) : (headerData s).size = 13 := by
  simp [headerData, Bytes.be32]

theorem judgeHead_header : judgeHead strip16 none (headerData s).size .ihdr = .ok none := by
  rw [size_headerData]
  rfl

variable {b : Buffered MemoryReader} {j : Array Record}

/-- Opening the encoder's file takes the signature and goes on with the chunks after it: the
header, the text, the first image-data chunk, then the others and the end chunk. -/
theorem run_openStream_signature (strip16 : Bool) (hs : Describes s spec) (hb : b.rest = fileBytes s) :
    ∃ b₀, (((openStream strip16 : DecodeM MemoryReader _).run).run b).run j =
        (((openStream.loop strip16 none chunkBound : DecodeM MemoryReader _).run).run b₀).run j ∧
      b₀.rest = chunkBytes .ihdr (headerData s) ++ (chunkBytes .text softwareText ++
        (chunkBytes .idat ((Deflate.zlibStored (scanlines s)).extract 0
          (chunkEnd (Deflate.zlibStored (scanlines s)) 0)) ++
        (dataChunksFrom (Deflate.zlibStored (scanlines s))
          (chunkEnd (Deflate.zlibStored (scanlines s)) 0) ++ chunkBytes .iend .empty))) := by
  have hpos : 0 < (Deflate.zlibStored (scanlines s)).size := by
    rw [Deflate.size_zlibStored]
    omega
  have hsplit : b.rest = signature ++ (chunkBytes .ihdr (headerData s) ++ (chunkBytes .text softwareText ++
      (chunkBytes .idat ((Deflate.zlibStored (scanlines s)).extract 0
          (chunkEnd (Deflate.zlibStored (scanlines s)) 0)) ++
        (dataChunksFrom (Deflate.zlibStored (scanlines s))
          (chunkEnd (Deflate.zlibStored (scanlines s)) 0) ++ chunkBytes .iend .empty)))) := by
    rw [hb, fileBytes, hs.texts, List.foldl_cons, List.foldl_nil]
    dsimp only
    rw [ByteArray.empty_append, dataChunks_eq_from hpos, dataChunksFrom_of_lt hpos]
    simp only [ByteArray.append_assoc, softwareText]
  obtain ⟨b₀, h₀, hr₀⟩ := Buffered.run_takeExact (j := j) hsplit
  change (((takeExact 8 : DecodeM MemoryReader _).run).run b).run j = _ at h₀
  refine ⟨b₀, ?_, hr₀⟩
  have hsig : (signature != signature) = false := by decide
  rw [openStream, run_bind_ok h₀]
  simp only [hsig, Bool.false_eq_true, if_false]

/-- The header and text chunks the encoder writes are read into the header's layout, the text's
bytes set aside from the budget, when the whole output fits a signed 64-bit size. -/
theorem run_loop_header_text {R : ByteArray} (hs : Describes s spec)
    (hb : b.rest = chunkBytes .ihdr (headerData s) ++ (chunkBytes .text softwareText ++ R))
    (hw : 0 < s.width) (hh : 0 < s.height) (hw' : s.width < 2 ^ 32) (hh' : s.height < 2 ^ 32)
    (hbig : ({ header := encodedHeader s.width s.height spec } : Info).outputLineSize strip16 s.width * s.height ≤ largestBuffer)
    (fuel : Nat) :
    ∃ b', (((openStream.loop strip16 none (fuel + 2) : DecodeM MemoryReader Opened).run).run b).run j =
        (((openStream.loop strip16
          (some { info := { header := encodedHeader s.width s.height spec }, budget := memoryBudget - softwareText.size })
          fuel : DecodeM MemoryReader Opened).run).run b').run j ∧
      b'.rest = R := by
  obtain ⟨b₁, h₁, hr₁⟩ := Buffered.run_loop_chunk (j := j) hb rfl (by rw [size_headerData]; omega) judgeHead_header
    rfl (judgeData_header hs hw hh hw' hh' hbig) (fuel + 1)
  obtain ⟨b₂, h₂, hr₂⟩ := Buffered.run_loop_chunk (j := j) hr₁ rfl (by decide) (judgeHead_text _) (reserve_text _)
    (judgeData_text _) fuel
  exact ⟨b₂, h₁.trans h₂, hr₂⟩

/-- Opening the file the encoder writes reads its header and text chunks and stops at the head of
its first image-data chunk, with that chunk's data and CRC, the other image-data chunks and the
end chunk still to read. -/
theorem run_openStream_fileBytes (hs : Describes s spec) (hb : b.rest = fileBytes s) (hw : 0 < s.width) (hh : 0 < s.height)
    (hw' : s.width < 2 ^ 32) (hh' : s.height < 2 ^ 32)
    (hbig : ({ header := encodedHeader s.width s.height spec } : Info).outputLineSize strip16 s.width * s.height ≤ largestBuffer)
    (hline : ({ header := encodedHeader s.width s.height spec } : Info).outputLineSize strip16 s.width ≤
      memoryBudget - softwareText.size) :
    ∃ b', (((openStream strip16 : DecodeM MemoryReader _).run).run b).run j =
        ((.ok ⟨{ header := encodedHeader s.width s.height spec }, ((Deflate.zlibStored (scanlines s)).extract 0
          (chunkEnd (Deflate.zlibStored (scanlines s)) 0)).size⟩, b'), j) ∧
      b'.rest = (Deflate.zlibStored (scanlines s)).extract 0
          (chunkEnd (Deflate.zlibStored (scanlines s)) 0) ++
        (Buffered.crcBytes .idat ((Deflate.zlibStored (scanlines s)).extract 0
          (chunkEnd (Deflate.zlibStored (scanlines s)) 0)) ++
        (dataChunksFrom (Deflate.zlibStored (scanlines s))
          (chunkEnd (Deflate.zlibStored (scanlines s)) 0) ++ chunkBytes .iend .empty)) := by
  obtain ⟨b₀, h₀, hr₀⟩ := run_openStream_signature (j := j) strip16 hs hb
  rw [show chunkBound = chunkBound - 3 + 1 + 2 by decide] at h₀
  obtain ⟨b₂, h₂, hr₂⟩ := run_loop_header_text (j := j) hs hr₀ hw hh hw' hh' hbig (chunkBound - 3 + 1)
  obtain ⟨b₃, h₃, hr₃⟩ := Buffered.run_loop_open (j := j) hr₂ rfl size_chunk_lt (judgeHead_data _ _ hline)
    (chunkBound - 3)
  exact ⟨b₃, h₀.trans (h₂.trans h₃), hr₃⟩

/-- Opening the file the encoder writes fails with "limits are exceeded" when an output row is
longer than the budget the text chunk leaves: at the header when the whole output would not fit a
signed 64-bit size, and otherwise at the head of the image data. -/
theorem run_openStream_fileBytes_wide (hs : Describes s spec) (hb : b.rest = fileBytes s) (hw : 0 < s.width) (hh : 0 < s.height)
    (hw' : s.width < 2 ^ 32) (hh' : s.height < 2 ^ 32)
    (hline : memoryBudget - softwareText.size <
      ({ header := encodedHeader s.width s.height spec } : Info).outputLineSize strip16 s.width) :
    ∃ b', (((openStream strip16 : DecodeM MemoryReader _).run).run b).run j =
      ((.error (.problem .limitsExceeded), b'), j) := by
  obtain ⟨b₀, h₀, hr₀⟩ := run_openStream_signature (j := j) strip16 hs hb
  by_cases hbig : ({ header := encodedHeader s.width s.height spec } : Info).outputLineSize strip16 s.width * s.height ≤ largestBuffer
  case pos =>
    rw [show chunkBound = chunkBound - 3 + 1 + 2 by decide] at h₀
    obtain ⟨b₂, h₂, hr₂⟩ := run_loop_header_text (j := j) hs hr₀ hw hh hw' hh' hbig (chunkBound - 3 + 1)
    obtain ⟨b₃, h₃⟩ := Buffered.run_loop_refused (j := j) hr₂ rfl (fun n => judgeHead_data_wide _ n hline)
      (chunkBound - 3)
    exact ⟨b₃, h₀.trans (h₂.trans h₃)⟩
  case neg =>
    rw [show chunkBound = chunkBound - 1 + 1 by decide] at h₀
    obtain ⟨b₁, h₁⟩ := Buffered.run_loop_chunk_refused (j := j) hr₀ rfl (by rw [size_headerData]; omega)
      judgeHead_header rfl (judgeData_header_huge hs hw hh hw' hh' (Nat.lt_of_not_le hbig)) (chunkBound - 1)
    exact ⟨b₁, h₀.trans h₁⟩

end File

end Png

end Pixmap
