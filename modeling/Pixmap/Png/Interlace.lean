import Pixmap.Png.Header

/-! Row layout of PNG pixel data: plain rows top to bottom, or the seven passes of Adam7. -/
namespace Pixmap

namespace Png

/-- One pass of Adam7: the first column and row it takes, and its steps. -/
structure Pass where
  x0 : Nat
  y0 : Nat
  dx : Nat
  dy : Nat
  deriving DecidableEq, Repr

/-- The seven passes in stored order. -/
def adam7 : List Pass :=
  [⟨0, 0, 8, 8⟩, ⟨4, 0, 8, 8⟩, ⟨0, 4, 4, 8⟩, ⟨2, 0, 4, 4⟩, ⟨0, 2, 2, 4⟩, ⟨1, 0, 2, 2⟩, ⟨0, 1, 1, 2⟩]

namespace Pass

/-- Pixels a pass takes from a row of `width` pixels. -/
def columns (p : Pass) (width : Nat) : Nat := (width - p.x0 + p.dx - 1) / p.dx

/-- Rows a pass takes from `height` rows. -/
def rows (p : Pass) (height : Nat) : Nat := (height - p.y0 + p.dy - 1) / p.dy

end Pass

/-- A stored row: which image row and columns its pixels go to. `pass` is the pass index for
an interlaced image; consecutive rows of one pass are filtered against each other. -/
structure RowPlace where
  pass : Nat
  width : Nat
  y : Nat
  x0 : Nat
  dx : Nat
  deriving DecidableEq, Repr

/-- The stored rows of an image in order. -/
def Header.rowPlaces (h : Header) : List RowPlace :=
  if h.interlaced then
    (adam7.zipIdx).flatMap fun (p, k) =>
      let w := p.columns h.width
      let n := p.rows h.height
      if w = 0 then [] else (List.range n).map fun r => ⟨k, w, p.y0 + r * p.dy, p.x0, p.dx⟩
  else (List.range h.height).map fun y => ⟨0, h.width, y, 0, 1⟩

end Png

end Pixmap
