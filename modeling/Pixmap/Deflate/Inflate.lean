import Pixmap.Deflate.Huffman
import Pixmap.Checksum.Adler32

/-! Resumable decompression of a zlib stream: each call goes on from where the last one stopped,
for more input or more room, and stops when it needs either, at the end or on a broken stream. -/
namespace Pixmap

namespace Deflate

/-- Why a stream is broken. -/
inductive Failure where
  | badZlibHeader
  | insufficientInput
  | invalidBlockType
  | invalidUncompressedBlockLength
  | invalidHlit
  | invalidHdist
  | invalidCodeLengthRepeat
  | badCodeLengthHuffmanTree
  | badLiteralLengthHuffmanTree
  | badDistanceHuffmanTree
  | invalidLiteralLengthCode
  | invalidDistanceCode
  | distanceTooFarBack
  deriving DecidableEq, Repr

/-- The name of a failure, as it is reported. -/
def Failure.name : Failure → String
  | .badZlibHeader => "BadZlibHeader"
  | .insufficientInput => "InsufficientInput"
  | .invalidBlockType => "InvalidBlockType"
  | .invalidUncompressedBlockLength => "InvalidUncompressedBlockLength"
  | .invalidHlit => "InvalidHlit"
  | .invalidHdist => "InvalidHdist"
  | .invalidCodeLengthRepeat => "InvalidCodeLengthRepeat"
  | .badCodeLengthHuffmanTree => "BadCodeLengthHuffmanTree"
  | .badLiteralLengthHuffmanTree => "BadLiteralLengthHuffmanTree"
  | .badDistanceHuffmanTree => "BadDistanceHuffmanTree"
  | .invalidLiteralLengthCode => "InvalidLiteralLengthCode"
  | .invalidDistanceCode => "InvalidDistanceCode"
  | .distanceTooFarBack => "DistanceTooFarBack"

/-- What the decoder still owes the output after the output filled up inside a step: a
literal read together with the one before it, or the rest of a copy. -/
inductive Owed where
  | nothing
  | byte (b : UInt8)
  | copy (dist len : Nat)
  deriving Inhabited

/-- Where the decoder stands between steps. -/
inductive Phase where
  | zlibHeader
  | blockHeader
  | stored (left : Nat) (last : Bool)
  | compressed (lit dist : Code) (last : Bool)
  | checksum
  | done
  deriving Inhabited

/-- A decoder between calls: its phase, the bit it reads next, everything decompressed so far,
what it owes the output, and how many bytes of input its bit buffer has drawn in. A caller
hands the decoder more of the same input only while some of it is not drawn in yet. -/
structure Decoder where
  phase : Phase := .zlibHeader
  pos : Nat := 0
  out : ByteArray := ByteArray.empty
  owed : Owed := .nothing
  drawn : Nat := 0
  deriving Inhabited

/-- Why a call returned without a failure. -/
inductive Stop where
  /-- The decoder needs more input. -/
  | waiting
  /-- The output reached the limit of the call. -/
  | full
  /-- The last block and the check bytes were read. -/
  | done
  deriving DecidableEq, Repr

/-- The outcome of one call: where the decoder stopped, or a failure with the output so far. -/
inductive Outcome where
  | stopped (d : Decoder) (why : Stop)
  | failed (why : Failure) (out : ByteArray)

/-- Base lengths of the length symbols 257 to 285. -/
def lengthBase : Array Nat :=
  #[3, 4, 5, 6, 7, 8, 9, 10, 11, 13, 15, 17, 19, 23, 27, 31, 35, 43, 51, 59, 67, 83, 99, 115,
    131, 163, 195, 227, 258]

/-- Extra bits of the length symbols 257 to 285. -/
def lengthExtra : Array Nat :=
  #[0, 0, 0, 0, 0, 0, 0, 0, 1, 1, 1, 1, 2, 2, 2, 2, 3, 3, 3, 3, 4, 4, 4, 4, 5, 5, 5, 5, 0]

/-- Base distances of the distance symbols 0 to 29. -/
def distBase : Array Nat :=
  #[1, 2, 3, 4, 5, 7, 9, 13, 17, 25, 33, 49, 65, 97, 129, 193, 257, 385, 513, 769, 1025, 1537,
    2049, 3073, 4097, 6145, 8193, 12289, 16385, 24577]

/-- Extra bits of the distance symbols 0 to 29. -/
def distExtra : Array Nat :=
  #[0, 0, 0, 0, 1, 1, 2, 2, 3, 3, 4, 4, 5, 5, 6, 6, 7, 7, 8, 8, 9, 9, 10, 10, 11, 11, 12, 12,
    13, 13]

/-- The order in which code-length code lengths are stored. -/
def codeLengthOrder : Array Nat := #[16, 17, 18, 0, 8, 7, 9, 6, 10, 5, 11, 4, 12, 3, 13, 2, 14, 1, 15]

/-- Lengths of the fixed literal/length code, all 288 symbols. -/
def fixedLitLengths : Array Nat :=
  (Array.range 288).map fun s => if s < 144 then 8 else if s < 256 then 9 else if s < 280 then 7 else 8

/-- The fixed codes: 288 literal/length symbols, 32 distance symbols of five bits. -/
def fixedLit : Code := Code.ofLengths fixedLitLengths
def fixedDist : Code := Code.ofLengths (Array.replicate 32 5)

/-- Appends `len` bytes copied from `dist` bytes back, one at a time, so that a copy may
overlap its own output. -/
def copyBack (out : ByteArray) (dist len : Nat) : ByteArray :=
  (List.range len).foldl (fun o _ => o.push (o[o.size - dist]?.getD 0)) out

/-- The outcome of reading the code lengths of a dynamic block. -/
inductive Lengths where
  | ok (lengths : Array Nat) (next : Nat)
  | failed (why : Failure)
  | needMore

/-- Reads `total` code lengths with the code-length code `cl` from bit `pos`. -/
def readLengths (src : ByteArray) (cl : Code) (total : Nat) (acc : Array Nat) (pos : Nat) :
    (fuel : Nat) → Lengths
  | 0 => .needMore
  | fuel + 1 =>
    if acc.size ≥ total then .ok acc pos
    else if bitsLeft src pos < 7 then .needMore
    else
      match cl.decode src pos with
      | .needMore => .needMore
      | .invalid => .failed .badCodeLengthHuffmanTree
      | .symbol s next =>
        if s < 16 then readLengths src cl total (acc.push s) next fuel
        else
          let (extra, base) := if s = 16 then (2, 3) else if s = 17 then (3, 3) else (7, 11)
          match bitsAt? src next extra with
          | none => .needMore
          | some e =>
            let repeat_ := base + e
            if s = 16 ∧ acc.size = 0 then .failed .invalidCodeLengthRepeat
            else if acc.size + repeat_ > total then .failed .invalidCodeLengthRepeat
            else
              let value := if s = 16 then acc[acc.size - 1]?.getD 0 else 0
              readLengths src cl total (acc ++ Array.replicate repeat_ value) (next + extra) fuel

/-- The outcome of reading a dynamic block header. -/
inductive Header where
  | ok (lit dist : Code) (next : Nat)
  | failed (why : Failure)
  | needMore

/-- Reads the code descriptions of a dynamic block whose 17 leading bits start at `pos`. -/
def readDynamic (src : ByteArray) (pos : Nat) : Header :=
  match bitsAt? src (pos + 3) 5, bitsAt? src (pos + 8) 5, bitsAt? src (pos + 13) 4 with
  | some a, some b, some c =>
    let hlit := a + 257
    let hdist := b + 1
    let hclen := c + 4
    if hlit > 286 then .failed .invalidHlit
    else if hdist > 30 then .failed .invalidHdist
    else
      let start := pos + 17
      if bitsLeft src start < 3 * hclen then .needMore
      else
        let clLengths := (List.range hclen).foldl (fun acc i =>
          acc.set! (codeLengthOrder[i]?.getD 0) ((bitsAt? src (start + 3 * i) 3).getD 0))
          (Array.replicate 19 0)
        if !Code.fillsSpace clLengths then .failed .badCodeLengthHuffmanTree
        else
          match readLengths src (Code.ofLengths clLengths) (hlit + hdist) #[] (start + 3 * hclen)
              (hlit + hdist + 1) with
          | .needMore => .needMore
          | .failed why => .failed why
          | .ok lengths next =>
            let litLengths := lengths.extract 0 hlit
            let distLengths := lengths.extract hlit (hlit + hdist)
            if litLengths[256]?.getD 0 = 0 then .failed .badLiteralLengthHuffmanTree
            else if !Code.fillsSpace litLengths then .failed .badCodeLengthHuffmanTree
            else if distLengths.all (· = 0) ∨ Code.isSingleBit distLengths ∨ Code.fillsSpace distLengths then
              .ok (Code.ofLengths litLengths) (Code.ofLengths distLengths) next
            else .failed .badDistanceHuffmanTree
  | _, _, _ => .needMore

/-- Whether the decoder has read the whole stream. -/
def Decoder.isDone (d : Decoder) : Bool :=
  match d.phase with
  | .done => true
  | _ => false

/-- The decoder tops up its bit buffer before a step: it draws whole bytes of input until 56 to
63 bits lie unread in it, or the input of `size` bytes ends. -/
def Decoder.draw (d : Decoder) (size : Nat) : Decoder :=
  { d with drawn := max d.drawn (min size ((d.pos + 63) / 8)) }

/-- Pays what the decoder owes the output, as far as the limit allows. -/
def Decoder.pay (d : Decoder) (limit : Nat) : Decoder :=
  let room := limit - d.out.size
  match d.owed with
  | .nothing => d
  | .byte b => if room = 0 then d else { d with out := d.out.push b, owed := .nothing }
  | .copy dist len =>
    if len ≤ room then { d with out := copyBack d.out dist len, owed := .nothing }
    else { d with out := copyBack d.out dist room, owed := .copy dist (len - room) }

/-- Whether a symbol of the literal/length code ends the block: 256, and the two symbols
past 285 that only the fixed code can produce. -/
def endsBlock (s : Nat) : Bool := s == 256 || s > 285

/-- Runs the decoder on the input `src` until it needs more input, its output reaches `limit`,
the stream ends, or the stream turns out broken.

Inside a compressed block the decoder reads like a table-driven decoder with a bit buffer
whose table holds pairs of literals: a literal followed by a literal whose code has at least
two bits, the two together at most 12 bits, is read as a pair, taken once both codes are at
hand and written at once, the second owed if only one byte of room is left. Any other literal
is taken once its own code is at hand; the end of the block once its code is at hand; a
length and distance once all their bits are. A distance code that has no symbol, or a symbol
above 29, is a failure once more than nine bits follow the length. With the output full, the
decoder still takes the end of the block if its code is next and 15 bits are at hand, and
goes on with what follows it. Before each step outside a stored block the bit buffer is topped
up; a stored block's bytes are drawn as they are copied. Every step reads a bit or writes a
byte, or is followed by one that does, so `fuel` of twice the sum of bits and room suffices. -/
def run (src : ByteArray) (limit : Nat) : (fuel : Nat) → Decoder → Outcome
  | 0, d => .stopped d .waiting
  | fuel + 1, d =>
    let d := match d.phase with
      | .stored _ _ => d
      | _ => d.draw src.size
    let ⟨phase, pos, out, owed, drawn⟩ := d
    let avail := bitsLeft src pos
    match phase with
    | .done => .stopped d .done
    | .zlibHeader =>
      match src[0]?, src[1]? with
      | some cmf, some flg =>
        let cmf := cmf.toNat
        let flg := flg.toNat
        if cmf % 16 != 8 || cmf / 16 > 7 || (flg / 32) % 2 = 1 || (cmf * 256 + flg) % 31 != 0 then
          .failed .badZlibHeader out
        else run src limit fuel ⟨.blockHeader, 16, out, owed, drawn⟩
      | _, _ => .stopped d .waiting
    | .blockHeader =>
      if avail < 10 then .stopped d .waiting
      else
        let last := (bitsAt? src pos 1).getD 0 = 1
        match (bitsAt? src (pos + 1) 2).getD 0 with
        | 0 =>
          let start := alignUp (pos + 3)
          match bitsAt? src start 16, bitsAt? src (start + 16) 16 with
          | some len, some nlen =>
            if nlen != 65535 - len then .failed .invalidUncompressedBlockLength out
            else run src limit fuel ⟨.stored len last, start + 32, out, owed, drawn⟩
          | _, _ => .stopped d .waiting
        | 1 =>
          -- an empty fixed block: its end code, seven zero bits, follows the header at once
          if (bitsAt? src (pos + 3) 7).getD 1 = 0 then
            run src limit fuel
              ⟨if last then .checksum else .blockHeader, pos + 10, out, owed, drawn⟩
          else
            run src limit fuel ⟨.compressed fixedLit fixedDist last, pos + 3, out, owed, drawn⟩
        | 2 =>
          match readDynamic src pos with
          | .needMore => .stopped d .waiting
          | .failed why => .failed why out
          | .ok lit dist next =>
            run src limit fuel ⟨.compressed lit dist last, next, out, owed, drawn⟩
        | _ => .failed .invalidBlockType out
    | .stored left last =>
      let n := min left (min (src.size - pos / 8) (limit - out.size))
      let out := out ++ src.extract (pos / 8) (pos / 8 + n)
      let pos := pos + 8 * n
      let drawn := max drawn (pos / 8)
      if n < left then
        .stopped ⟨.stored (left - n) last, pos, out, owed, drawn⟩
          (if out.size ≥ limit then .full else .waiting)
      else run src limit fuel ⟨if last then .checksum else .blockHeader, pos, out, owed, drawn⟩
    | .checksum =>
      if alignUp pos + 32 ≤ 8 * src.size then
        .stopped ⟨.done, alignUp pos + 32, out, owed, drawn⟩ .done
      else .stopped d .waiting
    | .compressed lit dist last =>
      let next := if last then Phase.checksum else .blockHeader
      if out.size ≥ limit then
        match lit.decodePadded src pos with
        | some (256, cb) =>
          if avail ≥ 15 then run src limit fuel ⟨next, pos + cb, out, owed, drawn⟩
          else .stopped d .full
        | _ => .stopped d .full
      else
        match lit.decodePadded src pos with
        | none => .failed .invalidLiteralLengthCode out
        | some (s, cb) =>
          if s < 256 then
            let pair := if cb > 12 then none else
              match lit.decodePadded src (pos + cb) with
              | some (s2, cb2) =>
                if s2 < 256 ∧ 2 ≤ cb2 ∧ cb + cb2 ≤ 12 then some (s2, cb2) else none
              | none => none
            match pair with
            | none =>
              if avail < cb then .stopped d .waiting
              else run src limit fuel ⟨phase, pos + cb, out.push s.toUInt8, owed, drawn⟩
            | some (s2, cb2) =>
              if avail < cb + cb2 then .stopped d .waiting
              else if out.size + 2 ≤ limit then
                run src limit fuel
                  ⟨phase, pos + cb + cb2, (out.push s.toUInt8).push s2.toUInt8, owed, drawn⟩
              else
                .stopped
                  ⟨phase, pos + cb + cb2, out.push s.toUInt8, .byte s2.toUInt8, drawn⟩ .full
          else if endsBlock s then
            if avail < cb then .stopped d .waiting
            else run src limit fuel ⟨next, pos + cb, out, owed, drawn⟩
          else
            let i := s - 257
            let le := lengthExtra[i]?.getD 0
            let len := (lengthBase[i]?.getD 0) + bitsPadded src (pos + cb) le
            let dpos := pos + cb + le
            let found := dist.decodePadded src dpos
            let direct := match found with
              | some (ds, dcb) => dcb ≤ 9 ∧ ds < 30
              | none => false
            if !direct ∧ avail ≤ cb + le + 9 then .stopped d .waiting
            else
              match found with
              | none => .failed .invalidDistanceCode out
              | some (ds, dcb) =>
                if ds ≥ 30 then .failed .invalidDistanceCode out
                else
                  let de := distExtra[ds]?.getD 0
                  let total := cb + le + dcb + de
                  if avail < total then .stopped d .waiting
                  else
                    let distance := (distBase[ds]?.getD 0) + bitsPadded src (dpos + dcb) de
                    if distance > out.size then .failed .distanceTooFarBack out
                    else
                      let room := limit - out.size
                      if len ≤ room then
                        run src limit fuel
                          ⟨phase, pos + total, copyBack out distance len, owed, drawn⟩
                      else
                        .stopped ⟨phase, pos + total, copyBack out distance room,
                          .copy distance (len - room), drawn⟩ .full

/-- One call of the decoder on the input available so far: it first pays what it owes, then
runs until its output reaches `limit`. -/
def Decoder.call (d : Decoder) (src : ByteArray) (limit : Nat) : Outcome :=
  let d := d.pay limit
  match d.owed with
  | .nothing => run src limit (2 * (8 * src.size + limit) + 8) d
  | _ => .stopped d .full

/-- The data of a whole zlib stream at the start of `src`, when the stream ends there, holds at
most `bound` bytes, and its Adler-32 checksum, the four bytes closing it, holds. -/
def inflateChecked (src : ByteArray) (bound : Nat) : Option ByteArray :=
  match Decoder.call {} src bound with
  | .stopped d .done =>
    let stop := d.pos / 8
    let stored := (src.extract (stop - 4) stop).foldl (fun acc b => acc * 256 + b.toNat) 0
    if stored = Adler32.of d.out then some d.out else none
  | _ => none

end Deflate

end Pixmap
