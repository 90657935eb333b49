import Pixmap.Png.Decoder
import Pixmap.Deflate.Inflate

/-! Reading the pixel data of an opened PNG stream: the image-data chunks inflated piece by piece,
the rows unfiltered as they become final, and the rest of the run checked. -/
namespace Pixmap

namespace Png

/-- Output a call may add. -/
def callGrowth : Nat := 8192

/-- Output that a later copy may still read, which is not final yet. -/
def lookback : Nat := 32768

/-- The decompressed data the decoder may produce, the image's data size: every stored row
with its filter byte. An interlaced image counts, for each pass, a filter byte and the row's
bytes for every row the pass takes, also when the pass takes no column of it. -/
def Info.dataLimit (info : Info) : Nat :=
  let h := info.header
  if h.interlaced then
    adam7.foldl (fun acc p => acc + p.rows h.height * (h.rowBytes (p.columns h.width) + 1)) 0
  else h.height * (h.rowBytes h.width + 1)

/-- The text a palette stops the program with when its length is not a multiple of three:
palette entries are copied while four bytes remain, and the last entry is then cut short. -/
def paletteDefect (palette : ByteArray) : Option String :=
  let n := palette.size
  let rest := (n + 2) % 3 + 1
  if n = 0 ∨ rest = 3 then none
  else some ("range end index 3 out of range for slice of length " ++ toString rest)

/-- The stored rows unfiltered so far, and where the next one starts in the decompressed
data. -/
structure Rows where
  done : Array ByteArray := #[]
  offset : Nat := 0

/-- Unfilters the stored rows lying whole in the first `final` bytes of `data`, going on from
`rows`. After the first row, a palette image without a palette is a problem and one whose
palette length is not a multiple of three stops the program. -/
def Rows.advance (info : Info) (places : Array RowPlace) (data : ByteArray) (final : Nat) :
    (fuel : Nat) → Rows → Except Failure Rows
  | 0, rows => .ok rows
  | fuel + 1, rows =>
    match places[rows.done.size]? with
    | none => .ok rows
    | some place =>
      let len := info.header.rowBytes place.width
      let start := rows.offset
      if start + 1 + len > final then .ok rows
      else
        let filter := (data[start]?.getD 0).toNat
        let above := match places[rows.done.size - 1]?, rows.done.back? with
          | some prev, some row => if rows.done.size > 0 ∧ prev.pass = place.pass then row
            else ByteArray.empty
          | _, _ => ByteArray.empty
        match unfilter filter info.header.filterStride above
            (data.extract (start + 1) (start + 1 + len)) with
        | .error p => .error (.problem p)
        | .ok row =>
          let first := rows.done.isEmpty
          if first ∧ info.header.colorType = .indexed then
            match info.palette with
            | none => .error (.problem .paletteRequired)
            | some palette =>
              match paletteDefect palette with
              | some text => .error (.defect text)
              | none => advance info places data final fuel ⟨rows.done.push row, start + 1 + len⟩
          else advance info places data final fuel ⟨rows.done.push row, start + 1 + len⟩

/-- The pixel data while it is read: the decoder, the compressed data received, and the rows
found. -/
structure Reading where
  decoder : Deflate.Decoder := {}
  input : ByteArray := ByteArray.empty
  rows : Rows := {}

/-- Calls the decoder on the data received so far until it needs more input, its output
reaches the data size, or the stream has ended, unfiltering the rows that become final after
each call. The result tells whether every row was found. -/
def Reading.decompress (info : Info) (places : Array RowPlace) :
    (fuel : Nat) → Reading → Except Failure (Reading × Bool)
  | 0, st => .ok (st, false)
  | fuel + 1, st =>
    if st.decoder.isDone then .ok (st, false)
    else
      let cap := info.dataLimit
      match st.decoder.call st.input (min (st.decoder.out.size + callGrowth) cap) with
      | .failed why _ => .error (.problem (.corruptFlateStream why))
      | .stopped d stop =>
        let filled := d.out.size
        let final := if stop = Deflate.Stop.done ∨ filled ≥ cap then filled else filled - lookback
        match Rows.advance info places d.out final (places.size + 1) st.rows with
        | .error f => .error f
        | .ok rows =>
          let st := { st with decoder := d, rows := rows }
          if rows.done.size = places.size then .ok (st, true)
          else if stop = Deflate.Stop.full ∧ filled < cap ∧ d.drawn < st.input.size then
            decompress info places fuel st
          else .ok (st, false)

/-- The end of the run with rows missing: the decoder goes on without more input; the stream
must end or fill the data size, and the rows completed are unfiltered. -/
def Reading.finish (info : Info) (places : Array RowPlace) (st : Reading) : Except Failure Rows :=
  let cap := info.dataLimit
  match st.decoder.call st.input cap with
  | .failed why _ => .error (.problem (.corruptFlateStream why))
  | .stopped d stop =>
    if stop != Deflate.Stop.done ∧ d.out.size < cap then
      .error (.problem (.corruptFlateStream .insufficientInput))
    else
    match Rows.advance info places d.out d.out.size (places.size + 1) st.rows with
    | .error f => .error f
    | .ok rows =>
      if rows.done.size < places.size then .error (.problem .noMoreImageData) else .ok rows

/-- The end of the input inside the run: everything decompressed so far becomes final and its
whole rows are unfiltered, which may fail; otherwise the input's end is the failure. -/
def Reading.cutShort (info : Info) (places : Array RowPlace) (st : Reading) : Failure :=
  let out := st.decoder.out
  match Rows.advance info places out out.size (places.size + 1) st.rows with
  | .error f => f
  | .ok _ => .io (.ofKind .unexpectedEof)

/-- Places expanded rows into the output: rows of `lineSize` bytes, each stored row's pixels
at its row and columns. -/
def assemble (info : Info) (strip16 : Bool) (rows : List ByteArray) : ByteArray :=
  let h := info.header
  let px := info.outputPixelBytes strip16
  let lineSize := info.outputLineSize strip16 h.width
  if !h.interlaced then
    rows.foldl (fun out row => out ++ info.expandRow strip16 row h.width) ByteArray.empty
  else
    let init := ByteArray.mk (Array.replicate (lineSize * h.height) 0)
    (h.rowPlaces.zip rows).foldl (fun out (place, row) =>
      let expanded := info.expandRow strip16 row place.width
      (List.range place.width).foldl (fun out i =>
        let dst := place.y * lineSize + (place.x0 + i * place.dx) * px
        (List.range px).foldl (fun out k =>
          out.set! (dst + k) (expanded[i * px + k]?.getD 0)) out) out) init

section

variable {ρ : Type} [ByteReader ρ]

/-- Takes `n` bytes of the run; the end of the input first is the end of the run cut short. -/
def takeInRun (info : Info) (places : Array RowPlace) (st : Reading) (n : Nat) :
    DecodeM ρ ByteArray := do
  let (bytes, ended) ← takeUpTo n
  if ended then throw (st.cutShort info places)
  return bytes

/-- Reads `left` bytes of an image-data chunk piece by piece, decompressing after each piece,
until the chunk ends or every row is found. An empty chunk still gives the decoder one turn, in
which it decodes what its bit buffer holds. Returns the state, the chunk data read, and whether
every row was found. -/
def readPieces (info : Info) (places : Array RowPlace) (left : Nat) (chunk : ByteArray)
    (st : Reading) : (fuel : Nat) → DecodeM ρ (Reading × ByteArray × Bool)
  | 0 => return (st, chunk, false)
  | fuel + 1 => do
    let some piece ← takePiece? left | throw (st.cutShort info places)
    let st := { st with input := st.input ++ piece }
    let (st, complete) ← orThrow (st.decompress info places (info.dataLimit / callGrowth + 2))
    let chunk := chunk ++ piece
    if complete ∨ left ≤ piece.size then return (st, chunk, complete)
    readPieces info places (left - piece.size) chunk st fuel

/-- Whether an image-data chunk's stored CRC is the one of its data. -/
def dataCrcHolds (data : ByteArray) (stored : ByteArray) : Except Failure Unit :=
  let stored := (Bytes.beValue stored.data.toList).toUInt32
  let computed := chunkCrc .idat data
  if stored != computed then .error (.problem (.crcMismatch stored computed .idat)) else .ok ()

/-- Reads the rest of the run without decompressing: the CRC of the current chunk, then whole
image-data chunks, up to a chunk of another type. -/
def skipRun (data : ByteArray) : (fuel : Nat) → DecodeM ρ Unit
  | 0 => return
  | fuel + 1 => do
    orThrow (dataCrcHolds data (← takeExact 4))
    let (len, type) ← readChunkHead
    if type = .idat then skipRun (← takeExact len) fuel

/-- Reads the run from the image-data chunk of `left` bytes whose head was read, and returns
the stored rows unfiltered. -/
def readRun (info : Info) (places : Array RowPlace) (left : Nat) (st : Reading) :
    (fuel : Nat) → DecodeM ρ (Array ByteArray)
  | 0 => throw (.problem .noMoreImageData)
  | fuel + 1 => do
    let (st, chunk, complete) ← readPieces info places left ByteArray.empty st (left + 1)
    if complete then
      let rest ← takeExact (left - chunk.size)
      skipRun (chunk ++ rest) chunkBound
      return st.rows.done
    orThrow (dataCrcHolds chunk (← takeInRun info places st 4))
    let len := Bytes.beValue (← takeInRun info places st 4).data.toList
    let type : ChunkType := ⟨(← takeInRun info places st 4).data.toList⟩
    if type = .idat then readRun info places len st fuel
    else return (← orThrow (st.finish info places)).done

/-- Reads the pixel data of an opened stream and returns the expanded rows. -/
def readFrame (o : Opened) (strip16 : Bool) : DecodeM ρ ByteArray := do
  let places := o.info.header.rowPlaces.toArray
  let rows ← readRun o.info places o.firstDataLength {} chunkBound
  return assemble o.info strip16 rows.toList

end

end Png

end Pixmap
