/-! Encoder settings: the PNG compression level and row filter, each unset by default, handed to
the PNG library and printed. -/
namespace Pixmap

/-- PNG compression levels. -/
inductive Compression where
  | noCompression
  | fastest
  | fast
  | balanced
  | high
  deriving DecidableEq, Repr, Inhabited

/-- The level's name. -/
def Compression.name : Compression → String
  | .noCompression => "NoCompression"
  | .fastest => "Fastest"
  | .fast => "Fast"
  | .balanced => "Balanced"
  | .high => "High"

/-- Every level, in order. -/
def Compression.all : List Compression := [.noCompression, .fastest, .fast, .balanced, .high]

/-- The level of a name. -/
def Compression.ofName? (s : String) : Option Compression := Compression.all.find? (·.name = s)

/-- PNG row filter choices. -/
inductive RowFilter where
  | noFilter
  | sub
  | up
  | avg
  | paeth
  | adaptive
  | minEntropy
  deriving DecidableEq, Repr, Inhabited

/-- The choice's name. -/
def RowFilter.name : RowFilter → String
  | .noFilter => "NoFilter"
  | .sub => "Sub"
  | .up => "Up"
  | .avg => "Avg"
  | .paeth => "Paeth"
  | .adaptive => "Adaptive"
  | .minEntropy => "MinEntropy"

/-- Every choice, in order. -/
def RowFilter.all : List RowFilter := [.noFilter, .sub, .up, .avg, .paeth, .adaptive, .minEntropy]

/-- The choice of a name. -/
def RowFilter.ofName? (s : String) : Option RowFilter := RowFilter.all.find? (·.name = s)

/-- Encoder settings. -/
structure CodecConfig where
  pngCompression : Option Compression := none
  pngFilter : Option RowFilter := none
  deriving DecidableEq, Repr, Inhabited

namespace CodecConfig

/-- Sets the compression level. -/
def withPngCompression (c : CodecConfig) (level : Compression) : CodecConfig :=
  { c with pngCompression := some level }

/-- Sets the row filter. -/
def withPngFilter (c : CodecConfig) (filter : RowFilter) : CodecConfig :=
  { c with pngFilter := some filter }

/-- The text of an optional setting: `Some(Name)` or `None`. -/
def optionText {α : Type} (name : α → String) : Option α → String
  | some a => "Some(" ++ name a ++ ")"
  | none => "None"

/-- The debugging text of the settings. -/
def debugText (c : CodecConfig) : String :=
  "CodecConfig \x7b png_compression: " ++ optionText Compression.name c.pngCompression ++
    ", png_filter: " ++ optionText RowFilter.name c.pngFilter ++ " \x7d"

end CodecConfig

end Pixmap
