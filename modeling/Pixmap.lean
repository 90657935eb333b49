import Pixmap.Bytes
import Pixmap.Check
import Pixmap.Checksum.Adler32
import Pixmap.Checksum.Crc32
import Pixmap.Codec.Basic
import Pixmap.Codec.Config
import Pixmap.Codec.Png
import Pixmap.Codec.PngLibrary
import Pixmap.Codec.Raw
import Pixmap.Deflate.Bits
import Pixmap.Deflate.Compress
import Pixmap.Deflate.Huffman
import Pixmap.Deflate.Inflate
import Pixmap.Error
import Pixmap.Format
import Pixmap.Image.Basic
import Pixmap.Image.Strided
import Pixmap.Image.View
import Pixmap.Limits
import Pixmap.Log
import Pixmap.Pixel.Convert
import Pixmap.Pixel.Spec
import Pixmap.Png.Chunk
import Pixmap.Png.Decoder
import Pixmap.Png.Encoder
import Pixmap.Png.Expand
import Pixmap.Png.Filter
import Pixmap.Png.Frame
import Pixmap.Png.Header
import Pixmap.Png.Interlace
import Pixmap.Png.Library
import Pixmap.Png.Types
import Pixmap.Proofs.Agree
import Pixmap.Proofs.Conversion
import Pixmap.Proofs.DecodeLimits
import Pixmap.Proofs.Pixels
import Pixmap.Proofs.PngReading
import Pixmap.Proofs.RawCodec
import Pixmap.Proofs.Reachable
import Pixmap.Proofs.Returns
import Pixmap.Proofs.Runs
import Pixmap.Proofs.Shape
import Pixmap.Proofs.StreamSlice
import Pixmap.Request
import Pixmap.Stream.Adapter
import Pixmap.Stream.Program
import Pixmap.Stream.Reader
import Pixmap.Stream.Writer
import Pixmap.Proofs.BufferedMemory
import Pixmap.Proofs.EncodeSinks
import Pixmap.Proofs.EncodedChunks
import Pixmap.Proofs.PngPixels
import Pixmap.Proofs.ReaderCalls
import Pixmap.Proofs.StreamLatch
import Pixmap.Proofs.DecodedPixels
import Pixmap.Proofs.PngRoundTrip
import Pixmap.Proofs.Cropping
import Pixmap.Proofs.ReferenceMap
import Pixmap.Proofs.Repacking
import Pixmap.Proofs.PaletteDefect
import Pixmap.Proofs.LimitChecks
import Pixmap.Proofs.SeekFrom
import Pixmap.Proofs.Views
import Pixmap.Proofs.TypedPixels
import Pixmap.Proofs.FullTransfers
import Pixmap.Proofs.ReaderRuns
import Pixmap.Proofs.ProgramReads
