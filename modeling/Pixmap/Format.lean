/-! Image file formats, with their extensions, media types and what each can store. -/
namespace Pixmap

/-- A file format. -/
inductive ImageFormat where
  | raw
  | png
  | jpeg
  | gif
  deriving DecidableEq, Repr, Inhabited

namespace ImageFormat

/-- The format's name as it is reported. -/
def name : ImageFormat → String
  | raw => "Raw"
  | png => "Png"
  | jpeg => "Jpeg"
  | gif => "Gif"

def all : List ImageFormat := [raw, png, jpeg, gif]

/-- Reads a reported name back. -/
def ofName? (text : String) : Option ImageFormat := all.find? (fun f => f.name == text)

/-- The media type of files of the format. -/
def mimeType : ImageFormat → String
  | raw => "application/octet-stream"
  | png => "image/png"
  | jpeg => "image/jpeg"
  | gif => "image/gif"

/-- The lower-case file extensions of the format, the usual one first. -/
def extensions : ImageFormat → List String
  | raw => ["raw", "bin"]
  | png => ["png"]
  | jpeg => ["jpg", "jpeg", "jpe", "jfif"]
  | gif => ["gif"]

/-- Every format but JPEG can store an alpha channel. -/
def supportsAlpha : ImageFormat → Bool
  | jpeg => false
  | _ => true

/-- Only raw buffers and PNG store 16-bit channels. -/
def supports16Bit : ImageFormat → Bool
  | raw => true
  | png => true
  | _ => false

/-- The format an extension names, compared without regard to case. No extension holds a
letter outside ASCII, and the only letter outside ASCII whose lower case is an ASCII letter is
the Kelvin sign, whose lower case `k` occurs in no extension; so folding ASCII letters alone
decides the match. -/
def ofExtension? (ext : String) : Option ImageFormat :=
  let key := ext.toLower
  all.find? (fun f => f.extensions.contains key)

end ImageFormat

end Pixmap
