import Pixmap.Png.Header

/-! Expansion of stored samples to whole bytes: palettes to RGB or RGBA, low-depth gray scaled,
transparency as alpha, and 16-bit samples optionally cut to their high byte. -/
namespace Pixmap

namespace Png

/-- What shapes the pixels: the header, the palette and the transparency chunk. -/
structure Info where
  header : Header
  palette : Option ByteArray := none
  transparency : Option ByteArray := none
  deriving Inhabited

/-- The colour type and depth of expanded rows. -/
def Info.outputColor (info : Info) (strip16 : Bool) : ColorType × BitDepth :=
  let h := info.header
  let depth := match h.bitDepth with
    | .sixteen => if strip16 then BitDepth.eight else .sixteen
    | .eight => .eight
    | _ => .eight
  let color := match h.colorType, info.transparency.isSome with
    | .grayscale, true => ColorType.grayscaleAlpha
    | .rgb, true => .rgba
    | .indexed, true => .rgba
    | .indexed, false => .rgb
    | c, _ => c
  (color, depth)

/-- Bytes of one expanded pixel. -/
def Info.outputPixelBytes (info : Info) (strip16 : Bool) : Nat :=
  let (c, d) := info.outputColor strip16
  c.samples * (d.bits / 8)

/-- The `count` samples of `bits` bits packed in `raw`, first sample in the high bits. -/
def unpack (raw : ByteArray) (bits count : Nat) : List Nat :=
  (List.range count).map fun i =>
    let bit := i * bits
    let byte := (raw[bit / 8]?.getD 0).toNat
    (byte >>> (8 - bits - bit % 8)) % (1 <<< bits)

/-- Groups of `n` bytes of a row. -/
def pixelsOf (raw : ByteArray) (n width : Nat) : List (List UInt8) :=
  (List.range width).map fun i => (raw.extract (i * n) (i * n + n)).data.toList

/-- The high bytes of big-endian 16-bit samples. -/
def highBytes (px : List UInt8) : List UInt8 := (Bytes.groups 2 px).map fun s => s.headD 0

/-- Gray or RGB at 8 or 16 bits: an alpha channel from the transparency chunk, and
stripping. -/
def Info.expandSamples (info : Info) (strip16 : Bool) (raw : ByteArray) (width channels : Nat) :
    List UInt8 :=
  let sixteen := info.header.bitDepth = .sixteen
  let n := channels * (if sixteen then 2 else 1)
  (pixelsOf raw n width).flatMap fun px =>
    let kept := if sixteen ∧ strip16 then highBytes px else px
    match info.transparency with
    | none => kept
    | some t =>
      let clear := px = t.data.toList
      let alphaBytes := if sixteen ∧ !strip16 then 2 else 1
      kept ++ List.replicate alphaBytes (if clear then 0 else 255)

/-- Expands one unfiltered row of `width` pixels. -/
def Info.expandRow (info : Info) (strip16 : Bool) (raw : ByteArray) (width : Nat) : ByteArray :=
  let h := info.header
  let trns := info.transparency
  let bits := h.bitDepth.bits
  let out : List UInt8 :=
    match h.colorType with
    | .indexed =>
      let palette := (info.palette.getD ByteArray.empty).data
      let entries := palette.size / 3
      let alpha := (trns.getD ByteArray.empty).data
      let alphaOk := alpha.size ≤ entries
      (unpack raw bits width).flatMap fun idx =>
        let rgb := if idx < entries then [palette[3 * idx]?.getD 0, palette[3 * idx + 1]?.getD 0,
          palette[3 * idx + 2]?.getD 0]
          else [0, 0, 0]
        match trns with
        | none => rgb
        | some _ => rgb ++ [if alphaOk then alpha[idx]?.getD 255 else 255]
    | .grayscale =>
      if bits < 8 then
        let scale := 255 / ((1 <<< bits) - 1)
        (unpack raw bits width).flatMap fun v =>
          let g := (v * scale).toUInt8
          match trns with
          | none => [g]
          | some t => [g, if v.toUInt8 = t[0]?.getD 0 then 0 else 255]
      else info.expandSamples strip16 raw width 1
    | .rgb => info.expandSamples strip16 raw width 3
    | .grayscaleAlpha | .rgba =>
      let px := (raw.extract 0 (h.rowBytes width)).data.toList
      if h.bitDepth = .sixteen ∧ strip16 then highBytes px else px
  ⟨out.toArray⟩

end Png

end Pixmap
