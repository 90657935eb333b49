import Pixmap.Pixel.Spec
import Pixmap.Format

/-! Errors: I/O failures with a kind and a text, library failures by cause, and their messages. -/
namespace Pixmap

/-- What kind of input/output failure happened. -/
inductive IoErrorKind where
  | writeZero
  | unexpectedEof
  | unsupported
  | invalidInput
  | invalidData
  | interrupted
  | other
  deriving DecidableEq, Repr, Inhabited

namespace IoErrorKind

/-- The kind's name as it is reported. -/
def name : IoErrorKind → String
  | writeZero => "WriteZero"
  | unexpectedEof => "UnexpectedEof"
  | unsupported => "Unsupported"
  | invalidInput => "InvalidInput"
  | invalidData => "InvalidData"
  | interrupted => "Interrupted"
  | other => "Other"

/-- The text of a failure that carries no text of its own. -/
def description : IoErrorKind → String
  | writeZero => "write zero"
  | unexpectedEof => "unexpected end of file"
  | unsupported => "unsupported"
  | invalidInput => "invalid input parameter"
  | invalidData => "invalid data"
  | interrupted => "operation interrupted"
  | other => "other error"

end IoErrorKind

/-- An input/output failure. -/
structure IoError where
  kind : IoErrorKind
  message : String
  deriving DecidableEq, Repr, Inhabited

namespace IoError

/-- A failure described by its kind alone. -/
def ofKind (kind : IoErrorKind) : IoError := ⟨kind, kind.description⟩

/-- A sink that takes no more bytes before a whole buffer was written. -/
def writeAllShort : IoError := ⟨.writeZero, "failed to write whole buffer"⟩

/-- A source that ends before a whole buffer was filled. -/
def readExactShort : IoError := ⟨.unexpectedEof, "failed to fill whole buffer"⟩

end IoError

/-- A failure of the library. -/
inductive Error where
  | notImplemented (what : String)
  | unsupportedOperation (detail : String)
  | unsupportedConversion (source target : ColorSpec)
  | unsupportedFormat (format : ImageFormat)
  | unsupportedLayout (format : ImageFormat) (spec : ColorSpec)
  | invalidInput (detail : String)
  | limitExceeded (detail : String)
  | io (failure : IoError)
  | codec (format : ImageFormat) (detail : String)
  /-- The program stops: a component met a state it does not handle. This is reported apart
  from the errors above, with the text alone. -/
  | aborted (text : String)
  deriving DecidableEq, Repr, Inhabited

namespace Error

/-- The text of an error. -/
def message : Error → String
  | notImplemented what => "not implemented: " ++ what
  | unsupportedOperation detail => "unsupported operation: " ++ detail
  | unsupportedConversion s t => "unsupported conversion from " ++ s.name ++ " to " ++ t.name
  | unsupportedFormat f => "format " ++ f.name ++ " not supported (codec not compiled in)"
  | unsupportedLayout f s => "format " ++ f.name ++ " cannot encode " ++ s.name ++ " pixels"
  | invalidInput detail => "invalid input: " ++ detail
  | limitExceeded detail => "limit exceeded: " ++ detail
  | io failure => "I/O error: " ++ failure.message
  | codec f detail => "codec error (" ++ f.name ++ "): " ++ detail
  | aborted text => text

end Error

end Pixmap
