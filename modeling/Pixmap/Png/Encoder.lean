import Pixmap.Png.Header
import Pixmap.Deflate.Compress
import Pixmap.Codec.PngLibrary

/-! Writing a PNG file: the signature, a header chunk, a text chunk for each text, the rows in
image-data chunks of at most 2^31 - 1 bytes, and the end chunk. Rows are stored unfiltered in
stored blocks, whatever the compression and filter settings say. -/
namespace Pixmap

namespace Png

/-- The header chunk's data: sides, depth, colour type, and zero for compression, filter and
interlace method. -/
def headerData (s : PngSettings) : ByteArray :=
  ⟨(Bytes.be32 s.width ++ Bytes.be32 s.height ++ [s.depth.bits.toUInt8, s.color.code.toUInt8, 0, 0, 0]).toArray⟩

/-- A text chunk's data: the keyword, a zero byte and the text. -/
def textData (keyword text : String) : ByteArray :=
  let ascii (t : String) : List UInt8 := t.toList.map fun c : Char => c.toNat.toUInt8
  ⟨(ascii keyword ++ [0] ++ ascii text).toArray⟩

/-- The rows as stored: each preceded by the filter type 0. -/
def scanlines (s : PngSettings) : ByteArray :=
  let stride := (s.width * s.color.samples * s.depth.bits + 7) / 8
  (List.range s.height).foldl (fun out r => out.push 0 ++ s.data.extract (r * stride) (r * stride + stride))
    ByteArray.empty

/-- The most data one image-data chunk holds, the largest length a chunk may declare. -/
def dataChunkLimit : Nat := (1 <<< 31) - 1

/-- Image data as image-data chunks, each of `dataChunkLimit` bytes but the last, which holds
the rest. -/
def dataChunks (data : ByteArray) : ByteArray :=
  if data.size ≤ dataChunkLimit then chunkBytes .idat data
  else chunkBytes .idat (data.extract 0 dataChunkLimit) ++ dataChunks (data.extract dataChunkLimit data.size)
termination_by data.size
decreasing_by
  have hpos : 0 < dataChunkLimit := by decide
  simp only [ByteArray.size_extract]
  omega

/-- The whole file the settings describe. -/
def fileBytes (s : PngSettings) : ByteArray :=
  signature ++ chunkBytes .ihdr (headerData s) ++
    s.texts.foldl (fun out (keyword, text) => out ++ chunkBytes .text (textData keyword text)) ByteArray.empty ++
    dataChunks (Deflate.zlibStored (scanlines s)) ++ chunkBytes .iend ByteArray.empty

end Png

end Pixmap
