import Pixmap.Checksum.Crc32
import Pixmap.Bytes

/-! PNG chunks: length, type, data and a CRC-32 of type and data; the case bits of the type name
its properties. -/
namespace Pixmap

namespace Png

/-- The eight bytes every PNG file starts with. -/
def signature : ByteArray := ⟨#[137, 80, 78, 71, 13, 10, 26, 10]⟩

/-- A chunk type: four bytes. -/
structure ChunkType where
  bytes : List UInt8
  deriving DecidableEq, Repr, Inhabited

namespace ChunkType

def ofString (s : String) : ChunkType := ⟨s.toList.map (·.toNat.toUInt8)⟩

def ihdr : ChunkType := ofString "IHDR"
def plte : ChunkType := ofString "PLTE"
def idat : ChunkType := ofString "IDAT"
def iend : ChunkType := ofString "IEND"
def trns : ChunkType := ofString "tRNS"
def text : ChunkType := ofString "tEXt"
def ztxt : ChunkType := ofString "zTXt"
def itxt : ChunkType := ofString "iTXt"
def iccp : ChunkType := ofString "iCCP"
def exif : ChunkType := ofString "eXIf"
def cicp : ChunkType := ofString "cICP"
def bkgd : ChunkType := ofString "bKGD"
def actl : ChunkType := ofString "acTL"
def fctl : ChunkType := ofString "fcTL"
def fdat : ChunkType := ofString "fdAT"
def sbit : ChunkType := ofString "sBIT"
def phys : ChunkType := ofString "pHYs"
def gama : ChunkType := ofString "gAMA"
def chrm : ChunkType := ofString "cHRM"
def srgb : ChunkType := ofString "sRGB"
def mdcv : ChunkType := ofString "mDCV"
def clli : ChunkType := ofString "cLLI"

/-- Whether bit 5 of byte `i` is set, i.e. the letter is lower case. -/
def lowerAt (t : ChunkType) (i : Nat) : Bool := ((t.bytes.getD i 0).toNat / 32) % 2 = 1

def isCritical (t : ChunkType) : Bool := !t.lowerAt 0
def isPrivate (t : ChunkType) : Bool := t.lowerAt 1
def isReserved (t : ChunkType) : Bool := t.lowerAt 2
def isSafeToCopy (t : ChunkType) : Bool := t.lowerAt 3

/-- The hexadecimal digits of a number, lower case, without leading zeros. -/
def hexDigits (n : Nat) : String := String.ofList (Nat.toDigits 16 n)

/-- One byte of a type as a character in debugging text: printable characters stand for
themselves, quotes and the backslash are escaped, control characters and the invisible
no-break space and soft hyphen are written as code points. -/
def escapeByte (b : UInt8) : String :=
  let n := b.toNat
  if n = 92 then "\\\\"
  else if n = 39 then "\\'"
  else if n = 34 then "\\\""
  else if n = 0 then "\\0"
  else if n = 9 then "\\t"
  else if n = 10 then "\\n"
  else if n = 13 then "\\r"
  else if n < 32 ∨ (127 ≤ n ∧ n < 161) ∨ n = 173 then "\\u" ++ "\x7b" ++ hexDigits n ++ "\x7d"
  else String.singleton (Char.ofNat n)

/-- The type's letters, one character per byte. -/
def name (t : ChunkType) : String := String.join (t.bytes.map fun b => String.singleton (Char.ofNat b.toNat))

/-- The debugging text of a type: its letters and its four properties. -/
def debugText (t : ChunkType) : String :=
  let b (x : Bool) := if x then "true" else "false"
  "ChunkType \x7b type: " ++ String.join (t.bytes.map escapeByte) ++ ", critical: " ++ b t.isCritical ++
    ", private: " ++ b t.isPrivate ++ ", reserved: " ++ b t.isReserved ++ ", safecopy: " ++
    b t.isSafeToCopy ++ " \x7d"

end ChunkType

/-- The CRC of a chunk: over its type and its data. -/
def chunkCrc (t : ChunkType) (data : ByteArray) : UInt32 :=
  Crc32.of (⟨t.bytes.toArray⟩ ++ data)

/-- A chunk as written: length, type, data and CRC. -/
def chunkBytes (t : ChunkType) (data : ByteArray) : ByteArray :=
  ⟨(Bytes.be32 data.size).toArray⟩ ++ ⟨t.bytes.toArray⟩ ++ data ++
    ⟨(Bytes.be32 (chunkCrc t data).toNat).toArray⟩

/-- One entry of a file listing: a chunk with its data, or a run of image-data chunks. -/
inductive Listed where
  | chunk (type : String) (data : ByteArray)
  | imageData

/-- A byte string seen as a PNG file: whether it starts with the signature, whether the
chunk lengths tile the rest exactly, and the chunks found, consecutive image-data chunks
listed once. -/
structure Listing where
  signatureOk : Bool
  wellFormed : Bool
  chunks : List Listed

/-- Splits the bytes after the signature into chunks. -/
def listChunks (bytes : ByteArray) : Listing :=
  let sigOk := bytes.extract 0 8 == signature
  let (ok, entries) := go bytes 8 [] (bytes.size + 1)
  ⟨sigOk, ok, entries.reverse⟩
where
  go (bytes : ByteArray) (pos : Nat) (acc : List Listed) : (fuel : Nat) → Bool × List Listed
    | 0 => (false, acc)
    | fuel + 1 =>
      if pos = bytes.size then (true, acc)
      else if pos + 12 > bytes.size then (false, acc)
      else
        let len := Bytes.beValue (bytes.extract pos (pos + 4)).data.toList
        let type := ChunkType.mk (bytes.extract (pos + 4) (pos + 8)).data.toList
        if pos + 12 + len > bytes.size then (false, acc)
        else
          let entry := if type = ChunkType.idat then Listed.imageData
            else Listed.chunk type.name (bytes.extract (pos + 8) (pos + 8 + len))
          let acc := match entry, acc with
            | .imageData, .imageData :: _ => acc
            | _, _ => entry :: acc
          go bytes (pos + 12 + len) acc fuel

end Png

end Pixmap
