/-! The colour types and bit depths of PNG images. -/
namespace Pixmap

namespace Png

/-- How samples make a pixel. -/
inductive ColorType where
  | grayscale
  | rgb
  | indexed
  | grayscaleAlpha
  | rgba
  deriving DecidableEq, Repr, Inhabited

namespace ColorType

def ofCode? : Nat → Option ColorType
  | 0 => some .grayscale
  | 2 => some .rgb
  | 3 => some .indexed
  | 4 => some .grayscaleAlpha
  | 6 => some .rgba
  | _ => none

def code : ColorType → Nat
  | .grayscale => 0
  | .rgb => 2
  | .indexed => 3
  | .grayscaleAlpha => 4
  | .rgba => 6

/-- Samples per pixel. -/
def samples : ColorType → Nat
  | .grayscale => 1
  | .rgb => 3
  | .indexed => 1
  | .grayscaleAlpha => 2
  | .rgba => 4

def name : ColorType → String
  | .grayscale => "Grayscale"
  | .rgb => "Rgb"
  | .indexed => "Indexed"
  | .grayscaleAlpha => "GrayscaleAlpha"
  | .rgba => "Rgba"

end ColorType

/-- Bits per sample. -/
inductive BitDepth where
  | one
  | two
  | four
  | eight
  | sixteen
  deriving DecidableEq, Repr, Inhabited

namespace BitDepth

def ofBits? : Nat → Option BitDepth
  | 1 => some .one
  | 2 => some .two
  | 4 => some .four
  | 8 => some .eight
  | 16 => some .sixteen
  | _ => none

def bits : BitDepth → Nat
  | .one => 1
  | .two => 2
  | .four => 4
  | .eight => 8
  | .sixteen => 16

def name : BitDepth → String
  | .one => "One"
  | .two => "Two"
  | .four => "Four"
  | .eight => "Eight"
  | .sixteen => "Sixteen"

end BitDepth

end Png

end Pixmap
