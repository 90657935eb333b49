import Pixmap.Png.Filter
import Pixmap.Png.Interlace
import Pixmap.Png.Expand
import Pixmap.Stream.Reader
import Pixmap.Deflate.Inflate

/-! Opening a PNG stream drawn from a reader in 8 KiB blocks: the signature and the chunks before
the image data, each judged by its head, its CRC and its data, within a 64 MiB memory budget. -/
namespace Pixmap

namespace Png

/-- Why decoding failed: a problem of the stream, a reading failure, or a defect of the
decoder that stops the program. -/
inductive Failure where
  | problem (p : Problem)
  | io (e : IoError)
  | defect (text : String)

/-- A reader drawn in blocks, with the bytes drawn but not yet used. -/
structure Buffered (ρ : Type) where
  reader : ρ
  pending : ByteArray := ByteArray.empty

/-- The size of one draw. -/
def blockSize : Nat := 8192

/-- The memory the decoder may set aside. -/
def memoryBudget : Nat := 64 * 1024 * 1024

/-- The largest buffer: sizes are signed 64-bit numbers. -/
def largestBuffer : Nat := (1 <<< 63) - 1

/-- A count of chunks that no input reaches: each chunk takes at least twelve bytes. -/
def chunkBound : Nat := 1 <<< 62

abbrev DecodeM (ρ : Type) := ExceptT Failure (StateT (Buffered ρ) Logged)

section

variable {ρ : Type} [ByteReader ρ]

/-- Draws one block from the reader into the pending bytes; false at the end of the input. -/
def draw : DecodeM ρ Bool := do
  let s ← get
  let ((result, reader), journal) := ((ByteReader.read blockSize).run.run s.reader).run (← getThe (Array Record))
  set journal
  match result with
  | .error e =>
    set ({ s with reader := reader } : Buffered ρ)
    throw (.io e)
  | .ok bytes =>
    set ({ s with reader := reader, pending := s.pending ++ bytes } : Buffered ρ)
    return !bytes.isEmpty

/-- Takes up to `n` bytes; fewer, and `true`, when the input ends first. -/
def takeUpTo (n : Nat) : DecodeM ρ (ByteArray × Bool) :=
  go (n + 1)
where
  go : Nat → DecodeM ρ (ByteArray × Bool)
    | 0 => return (ByteArray.empty, true)
    | fuel + 1 => do
      let s ← get
      if s.pending.size ≥ n then
        set ({ s with pending := s.pending.extract n s.pending.size } : Buffered ρ)
        return (s.pending.extract 0 n, false)
      else if ← draw then go fuel
      else
        let s ← get
        set ({ s with pending := ByteArray.empty } : Buffered ρ)
        return (s.pending, true)

/-- Takes exactly `n` bytes; the end of the input is a reading failure. -/
def takeExact (n : Nat) : DecodeM ρ ByteArray := do
  let (bytes, ended) ← takeUpTo n
  if ended then throw (.io (.ofKind .unexpectedEof))
  return bytes

/-- Takes the bytes already drawn, at most `n`, drawing one block first when none are left:
the piece a buffered reader hands out at once; `none` at the end of the input. -/
def takePiece? (n : Nat) : DecodeM ρ (Option ByteArray) := do
  if (← get).pending.isEmpty then
    if !(← draw) then return none
  let s ← get
  let k := min n s.pending.size
  set ({ s with pending := s.pending.extract k s.pending.size } : Buffered ρ)
  return some (s.pending.extract 0 k)

/-- Reads a chunk's length and type. -/
def readChunkHead : DecodeM ρ (Nat × ChunkType) := do
  let len ← takeExact 4
  let type ← takeExact 4
  return (Bytes.beValue len.data.toList, ⟨type.data.toList⟩)

/-- Reads a chunk's CRC. -/
def readCrc : DecodeM ρ UInt32 := do
  let crc ← takeExact 4
  return (Bytes.beValue crc.data.toList).toUInt32

end

/-- The transparency chunk as the decoder keeps it, or `none` when it is refused (too short,
for a colour type without it, before the palette, or a second one). -/
def parseTransparency (info : Info) (data : ByteArray) : Option ByteArray :=
  if info.transparency.isSome then none
  else
    let d := data.data
    let low := info.header.bitDepth != .sixteen
    match info.header.colorType with
    | .grayscale =>
      if data.size < 2 then none else if low then some ⟨#[d[1]?.getD 0]⟩ else some data
    | .rgb =>
      if data.size < 6 then none
      else if low then some ⟨#[d[1]?.getD 0, d[3]?.getD 0, d[5]?.getD 0]⟩ else some data
    | .indexed => if info.palette.isNone then none else some data
    | _ => none

/-- Bytes of an expanded row of `width` pixels. -/
def Info.outputLineSize (info : Info) (strip16 : Bool) (width : Nat) : Nat :=
  width * info.outputPixelBytes strip16

/-- Whether a chunk length is one the decoder refuses from the length alone: the header has 13
bytes, the palette from 3 to 768, the end chunk none, a frame control chunk 26. -/
def lengthRefused (type : ChunkType) (len : Nat) : Bool :=
  (type = .ihdr && len != 13) || (type = .plte && (len < 3 || len > 768)) ||
    (type = .iend && len != 0) || (type = .fctl && len != 26)

/-- The chunk types whose data the decoder reads into its chunk buffer to parse them; the data
of other chunks is passed over. -/
def buffered : List ChunkType :=
  [.ihdr, .plte, .trns, .bkgd, .cicp, .iccp, .text, .ztxt, .itxt, .exif, .actl, .fctl, .sbit,
    .phys, .gama, .chrm, .srgb, .mdcv, .clli]

/-- The chunk buffer's first size. -/
def chunkBufferStart : Nat := 128

/-- Makes room in the chunk buffer for `len` bytes: while the buffer is too small it doubles,
each growth set aside from the budget, and as far as the budget allows. The result is the
buffer's size and the budget left, or, when the budget runs out first, the bytes read before. -/
def growBuffer (len : Nat) : (fuel capacity budget : Nat) → Except Nat (Nat × Nat)
  | 0, capacity, budget => .ok (capacity, budget)
  | fuel + 1, capacity, budget =>
    if len ≤ capacity then .ok (capacity, budget)
    else if budget = 0 ∨ capacity = 0 then .error capacity
    else
      let more := min capacity budget
      growBuffer len fuel (capacity + more) (budget - more)

/-- Whether an ancillary chunk's data is set aside from the memory budget once parsed. -/
def keepsData (type : ChunkType) : Bool :=
  type = .text || type = .ztxt || type = .itxt

/-- The largest length the decoder reads of an ancillary chunk of fixed or bounded size; a
longer one is passed over unread. -/
def largestLength (type : ChunkType) : Option Nat :=
  [(ChunkType.trns, 256), (.bkgd, 6), (.cicp, 4), (.actl, 8), (.gama, 4), (.srgb, 1), (.mdcv, 24),
    (.clli, 8), (.phys, 9), (.chrm, 32), (.sbit, 4)].lookup type

/-- Whether the decoder reads a chunk of this type and length into its chunk buffer to parse
it. -/
def readsInto (type : ChunkType) (len : Nat) : Bool :=
  buffered.contains type && (largestLength type).all (len ≤ ·)

/-- What opening has gathered since the header. -/
structure Gathered where
  info : Info
  /-- Bytes the decoder may still set aside. -/
  budget : Nat := memoryBudget
  /-- The last sequence number of an animation chunk. -/
  sequence : Option Nat := none
  /-- The size of the chunk buffer, which only grows. -/
  chunkBuffer : Nat := chunkBufferStart
  /-- Whether a colour-space chunk was taken. -/
  codePoints : Bool := false
  /-- Whether a background chunk was taken. -/
  background : Bool := false
  /-- Whether a colour profile chunk was met, after which others are ignored. -/
  profile : Bool := false

/-- A colour-space chunk (cICP) of four bytes: the range flag must be 0 or 1 and the matrix
coefficients 0, otherwise the data is broken. -/
def codePointsOk (data : ByteArray) : Bool :=
  let matrix := (data[2]?.getD 0).toNat
  let range := (data[3]?.getD 0).toNat
  range ≤ 1 && matrix = 0

/-- The length a background chunk must have for a colour type; a palette image also needs its
palette first. -/
def backgroundLength (info : Info) : Option Nat :=
  match info.header.colorType with
  | .indexed => if info.palette.isSome then some 1 else none
  | .grayscale | .grayscaleAlpha => some 2
  | .rgb | .rgba => some 6

/-- The size of the colour profile a profile chunk (iCCP) holds: a name of 1 to 80 bytes ended
by a zero byte, compression method 0, then a whole zlib stream whose checksum holds and whose
data fit in `bound` bytes; `none` when any of this fails. -/
def profileLength (data : ByteArray) (bound : Nat) : Option Nat :=
  match (List.range 81).find? (fun i => data[i]? = some 0) with
  | none | some 0 => none
  | some k =>
    if data[k + 1]? = some 0 then
      (Deflate.inflateChecked (data.extract (k + 2) data.size) bound).map ByteArray.size
    else none

/-- Reads a frame control chunk (fcTL) of 26 bytes: its sequence number must follow the last
one (the first must be 0), its dispose and blend operations must be known, and its frame must
not be empty. Before the image data the frame is the image itself, so it must cover the whole
image from its corner. -/
def parseFrameControl (g : Gathered) (data : ByteArray) : Except Problem Gathered := do
  let field (i n : Nat) : Nat := Bytes.beValue (data.extract i (i + n)).data.toList
  let number := field 0 4
  let expected := match g.sequence with
    | some last => last + 1
    | none => 0
  if number != expected then throw (.apngOrder expected number)
  let width := field 4 4
  let height := field 8 4
  let x := field 12 4
  let y := field 16 4
  let dispose := field 24 1
  let blend := field 25 1
  if dispose > 2 then throw (.invalidDisposeOp dispose)
  if blend > 1 then throw (.invalidBlendOp blend)
  let h := g.info.header
  if width = 0 ∨ height = 0 then throw .invalidDimensions
  if x ≠ 0 ∨ y ≠ 0 ∨ width ≠ h.width ∨ height ≠ h.height then throw .badSubFrameBounds
  return { g with sequence := some number }

/-- Takes an ancillary chunk's data into what was gathered: shaping chunks change it,
unreadable ones are dropped; a failure here stops decoding. -/
def Gathered.takeAncillary (g : Gathered) (type : ChunkType) (data : ByteArray) :
    Except Failure Gathered :=
  let len := data.size
  if type = .trns then
    if len = 0 then .ok g
    else match parseTransparency g.info data with
      | some t => .ok { g with info := { g.info with transparency := some t } }
      | none => .ok g
  else if type = .cicp then
    if len != 4 ∨ g.codePoints ∨ g.info.palette.isSome then .ok g
    else if codePointsOk data then .ok { g with codePoints := true }
    else .error (.io (.ofKind .invalidData))
  else if type = .bkgd then
    if len = 0 ∨ g.background then .ok g
    else match backgroundLength g.info with
      | none => .error (.io (.ofKind .invalidData))
      | some expected => if len = expected then .ok { g with background := true } else .ok g
  else if type = .fctl then (parseFrameControl g data).mapError .problem
  else if type = .iccp then
    if g.profile then .ok g
    else
      let g := { g with profile := true }
      match profileLength data g.budget with
      | some n => .ok { g with budget := g.budget - n }
      | none => .ok g
  else if keepsData type then
    if len > g.budget then .error (.problem .limitsExceeded)
    else .ok { g with budget := g.budget - len }
  else .ok g

/-- An opened stream: what shapes the pixels, and the length of the first image-data chunk,
whose length and type have been read. -/
structure Opened where
  info : Info
  firstDataLength : Nat
  deriving Inhabited

/-- Judges a chunk from its length and type, before its data is read: a failure, the opened
stream at the first image-data chunk after the header, or `none` to go on. -/
def judgeHead (strip16 : Bool) (gathered : Option Gathered) (len : Nat) (type : ChunkType) :
    Except Failure (Option Opened) := do
  match gathered with
  | none =>
    if type != .ihdr then throw (.problem (.chunkBeforeHeader type))
  | some g =>
    if type = .fdat then throw (.problem (.unexpectedRestart .fdat))
    if type = .idat then
      if g.info.outputLineSize strip16 g.info.header.width > g.budget then
        throw (.problem .limitsExceeded)
      return some ⟨g.info, len⟩
  if type.isCritical ∧ type != .ihdr ∧ type != .plte ∧ type != .iend then
    throw (.problem (.unrecognizedCriticalChunk type))
  if lengthRefused type len then throw (.problem (.chunkLengthWrong type))
  return none

/-- Takes a chunk's checked data into what was gathered: the header starts it, and an image
whose output would not fit a signed 64-bit size is refused; a second header or palette is a
problem, a palette is kept, and ancillary chunks go to `Gathered.takeAncillary`. -/
def gather (strip16 : Bool) (gathered : Option Gathered) (type : ChunkType) (data : ByteArray) :
    Except Failure Gathered :=
  match gathered with
  | none => do
    let h ← (Header.parse data).mapError .problem
    let i : Info := { header := h }
    if i.outputLineSize strip16 h.width * h.height > largestBuffer then
      throw (.problem .limitsExceeded)
    return { info := i }
  | some g =>
    if type = .ihdr then throw (.problem (.duplicateChunk .ihdr))
    else if type = .plte then
      if g.info.palette.isSome then throw (.problem (.duplicateChunk .plte))
      else return { g with info := { g.info with palette := some data } }
    else g.takeAncillary type data

/-- Judges a chunk from its data and stored CRC: a failure, or what is gathered after it. An
ancillary chunk with a wrong CRC, and one the decoder does not read, are dropped and leave what
was gathered. -/
def judgeData (strip16 : Bool) (gathered : Option Gathered) (type : ChunkType) (len : Nat)
    (data : ByteArray) (stored : UInt32) : Except Failure (Option Gathered) :=
  let computed := chunkCrc type data
  if stored != computed then
    if type.isCritical then .error (.problem (.crcMismatch stored computed type)) else .ok gathered
  else if type = .iend then .error (.problem .missingImageData)
  else if !type.isCritical ∧ !readsInto type len then .ok gathered
  else (gather strip16 gathered type data).map some

section

variable {ρ : Type} [ByteReader ρ]

/-- Throws a failure held in a value. -/
def orThrow {α : Type} : Except Failure α → DecodeM ρ α
  | .ok a => pure a
  | .error f => throw f

/-- Makes room in the chunk buffer for a chunk the decoder reads into it. When the budget runs
out first, the bytes the buffer could take are read and decoding stops. -/
def reserve (gathered : Option Gathered) (type : ChunkType) (len : Nat) :
    DecodeM ρ (Option Gathered) :=
  match gathered with
  | some g =>
    if readsInto type len then
      match growBuffer len (len + 1) g.chunkBuffer g.budget with
      | .error readable => do
        let _ ← takeExact readable
        throw (.problem .limitsExceeded)
      | .ok (capacity, budget) => pure (some { g with chunkBuffer := capacity, budget := budget })
    else pure (some g)
  | none => pure none

/-- Reads the chunks before the pixel data. -/
def openStream (strip16 : Bool) : DecodeM ρ Opened := do
  let sig ← takeExact 8
  if sig != signature then throw (.problem .invalidSignature)
  loop none chunkBound
where
  loop (gathered : Option Gathered) : (fuel : Nat) → DecodeM ρ Opened
    | 0 => throw (.problem .missingImageData)
    | fuel + 1 => do
      let (len, type) ← readChunkHead
      match ← orThrow (judgeHead strip16 gathered len type) with
      | some opened => return opened
      | none =>
        let gathered ← reserve gathered type len
        let data ← takeExact len
        let stored ← readCrc
        loop (← orThrow (judgeData strip16 gathered type len data stored)) fuel

end

end Png

end Pixmap
