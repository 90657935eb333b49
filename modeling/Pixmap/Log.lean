/-! Diagnostic records, returned in order alongside a result through the state monad `Logged`. -/
namespace Pixmap

/-- How important a record is. -/
inductive Level where
  | trace
  | debug
  | warn
  deriving DecidableEq, Repr

def Level.name : Level → String
  | .trace => "TRACE"
  | .debug => "DEBUG"
  | .warn => "WARN"

/-- The part of the library a record comes from. -/
inductive Source where
  | image
  | decode
  | encode
  | rawCodec
  | pngCodec
  | io
  deriving DecidableEq, Repr

/-- The module path a record is filed under. -/
def Source.path : Source → String
  | .image => "zenraster::image"
  | .decode => "zenraster::decode"
  | .encode => "zenraster::encode"
  | .rawCodec => "zenraster::codecs::raw"
  | .pngCodec => "zenraster::codecs::png"
  | .io => "zenraster::io"

/-- One diagnostic record. -/
structure Record where
  level : Level
  source : Source
  message : String
  deriving DecidableEq, Repr

/-- The record as one line: level, module path, message. -/
def Record.line (r : Record) : String := r.level.name ++ " " ++ r.source.path ++ ": " ++ r.message

/-- A computation that appends diagnostic records to a journal. -/
abbrev Logged := StateM (Array Record)

/-- Appends one record. -/
def emit (level : Level) (source : Source) (message : String) : Logged Unit :=
  modify fun journal => journal.push ⟨level, source, message⟩

/-- The records a computation makes, and its result, from an empty journal. -/
def Logged.capture {α : Type} (m : Logged α) : α × Array Record := m.run #[]

end Pixmap
