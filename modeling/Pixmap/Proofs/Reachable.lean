import Pixmap.Proofs.Returns
import Pixmap.Proofs.Shape
import Pixmap.Codec.Raw
import Pixmap.Codec.Png

/-! The images the library hands out (`Reachable`): every way of making one keeps it well-formed
(`Reachable.shape`). -/
namespace Pixmap

lemma returns_liftM {σ α : Type} {m : Logged α} {P : α → Prop} (h : ∀ j, P (m.run j).1) :
    Returns (liftM m : CodecM σ α) P := by
  intro s j a s' j' hr
  have hj := h j
  cases hr
  exact hj

lemma runOn_liftM_bind {σ α β : Type} (m : Logged α) (f : α → CodecM σ β) (s : σ)
    (j : Array Record) :
    ((liftM m : CodecM σ α) >>= f).runOn s j = (f (m.run j).1).runOn s (m.run j).2 := rfl

lemma runOn_ofExcept {σ α : Type} (r : Except Error α) (s : σ) (j : Array Record) :
    (CodecM.ofExcept r : CodecM σ α).runOn s j = ((r, s), j) := by
  cases r <;> rfl

namespace Image

variable {img : Image}

lemma convertLogged_run (img : Image) (spec : ColorSpec) (j : Array Record) :
    ((img.convertLogged spec).run j).1 = img.convert spec := by
  unfold convertLogged
  split <;> rfl

lemma WellFormed.returns_intoSpec {σ : Type} (hw : img.WellFormed) (spec : ColorSpec) :
    Returns (intoSpec img spec : CodecM σ Image) WellFormed := by
  unfold intoSpec
  split
  · exact returns_pure hw
  · refine returns_bind (P := (· = img.convert spec))
      (returns_liftM fun j => img.convertLogged_run spec j) ?_
    rintro r rfl
    exact returns_ofExcept fun out h => hw.convert h

lemma WellFormed.refill (hw : img.WellFormed) {fresh : ByteArray} (hb : fresh.size = img.bytes.size) :
    { img with data := img.data.map fun _ => fresh }.WellFormed := by
  obtain ⟨hn, hv⟩ := wellFormed_iff.1 hw
  refine wellFormed_iff.2 ?_
  cases hd : img.data with
  | none =>
    simp only [bytes, isValid, hd, Option.map_none, Option.getD_none] at hn hv ⊢
    exact ⟨hn, hv⟩
  | some b =>
    simp only [bytes, isValid, hd, Option.map_some, Option.getD_some] at hb hn hv ⊢
    rw [hb]
    exact ⟨hn, hv⟩

end Image

/-- Under the readers' promise, the raw decoder returns well-formed images. -/
theorem RawCodec.returns_decode {ρ : Type} [ByteReader ρ] [LawfulByteReader ρ] (c : RawCodec)
    (spec : ColorSpec) : Returns (c.decode spec : CodecM ρ Image) Image.WellFormed := by
  unfold RawCodec.decode
  refine returns_bind_of_forall fun _ => returns_bind_of_forall fun _ => ?_
  refine returns_bind (returns_ofExcept fun img h => Image.wellFormed_of_tryWithSpec h) ?_
  intro img hw
  refine returns_bind (returns_readFull img.bytes.size) ?_
  intro fresh hb
  exact (hw.refill hb).returns_intoSpec spec

lemma PngCodec.returns_adopt {σ : Type} (width height : Nat) (p : PngCodec.FramePlan) (spec : ColorSpec)
    (frame : ByteArray) (lineSize : Nat) :
    Returns (PngCodec.adopt width height p spec frame lineSize : CodecM σ Image) Image.WellFormed := by
  unfold PngCodec.adopt
  dsimp only
  split
  · exact returns_throw_bind
  split
  · exact returns_throw_bind
  · exact returns_bind (returns_ofExcept fun _ h => Image.wellFormed_of_ofBytes h)
      fun _ hw => hw.returns_intoSpec spec

/-- The plan keeps the session's output colour type, its depth is the one the output bit depth
maps to, and its layout passed the limits at the session's sides. -/
lemma PngCodec.returns_plan {σ : Type} (png : PngLibrary) (limits : Limits) (spec : ColorSpec)
    (session : png.Session) :
    Returns (PngCodec.plan png limits spec session : CodecM σ PngCodec.FramePlan) fun p =>
      p.color = (png.outputColor session).1 ∧
        PngCodec.channelDepth (png.outputColor session).2 = .ok p.decoded.depth ∧
        limits.checkImage (png.width session) (png.height session) p.decoded = .ok () := by
  unfold PngCodec.plan
  rcases png.outputColor session with ⟨color, bitDepth⟩
  dsimp only
  refine returns_bind (returns_ofExcept fun depth h => h) fun depth hdepth => ?_
  refine returns_bind_of_forall fun ⟨format, channelMap⟩ => ?_
  dsimp only
  refine returns_bind_of_forall fun _ => returns_bind (returns_ofExcept fun u h => h) fun _ hl => ?_
  split
  · exact returns_throw_bind
  cases png.outputBufferSize session with
  | none => exact returns_throw
  | some bufferSize => exact returns_pure ⟨rfl, hdepth, hl⟩

/-- The PNG decoder returns well-formed images, whatever the PNG library: the pixels it repacks
are adopted only when they fill the decoded layout exactly. -/
theorem PngCodec.returns_decode {ρ : Type} [ByteReader ρ] (png : PngLibrary) (limits : Limits)
    (spec : ColorSpec) : Returns (PngCodec.decode png limits spec : CodecM ρ Image) Image.WellFormed := by
  unfold PngCodec.decode PngCodec.readImage
  refine returns_bind_of_forall fun sig => ?_
  dsimp only
  split
  · exact returns_throw_bind
  refine returns_bind_of_forall fun _ => returns_bind_of_forall fun session => ?_
  refine returns_bind_of_forall fun p => returns_bind_of_forall fun ⟨frame, lineSize⟩ => ?_
  exact PngCodec.returns_adopt _ _ p spec frame lineSize

/-- The images the library hands out. A copy of an image is the image itself, so copies need no
rule of their own. -/
inductive Reachable : Image → Prop
  | empty : Reachable Image.empty
  | tryWithSpec {w h s img} (made : Image.tryWithSpec w h s = .ok img) : Reachable img
  | withSpec {w h s img} (made : Image.withSpec w h s = .ok img) : Reachable img
  | new {w h img} (made : Image.new w h = .ok img) : Reachable img
  | ofBytes {w h s b img} (made : Image.ofBytes w h s b = .ok img) : Reachable img
  | strided {s w h stride buf img} (made : Image.ofStrided s w h stride buf = .ok img) : Reachable img
  | ofView {w h s d v} (made : ImageView.new? w h s d = .ok v) : Reachable v.toImage
  | taken {img} (source : Reachable img) : Reachable img.take.1
  | takenFrom {img} (source : Reachable img) : Reachable img.take.2
  | crop {img} (x y w h : Nat) (source : Reachable img) : Reachable (img.crop x y w h)
  | convert {img t out} (source : Reachable img) (converted : img.convert t = .ok out) : Reachable out
  | write {img} (offset : Nat) (bytes : ByteArray) (source : Reachable img) :
      Reachable (img.writeAt offset bytes).2
  | viewed {img} (source : Reachable img) : Reachable img.view.toImage
  | rawDecoded {ρ : Type} [ByteReader ρ] [LawfulByteReader ρ] {c : RawCodec} {spec r j img r' j'}
      (decoded : (c.decode spec : CodecM ρ Image).runOn r j = ((.ok img, r'), j')) : Reachable img
  | pngDecoded {png : PngLibrary} {ρ : Type} [ByteReader ρ] {limits spec r j img r' j'}
      (decoded : (PngCodec.decode png limits spec : CodecM ρ Image).runOn r j = ((.ok img, r'), j')) :
      Reachable img

namespace Reachable

theorem wellFormed {img : Image} (h : Reachable img) : img.WellFormed := by
  induction h with
  | empty => exact Image.wellFormed_empty
  | tryWithSpec made => exact Image.wellFormed_of_tryWithSpec made
  | withSpec made => exact Image.wellFormed_of_withSpec made
  | new made => exact Image.wellFormed_of_new made
  | ofBytes made => exact Image.wellFormed_of_ofBytes made
  | strided made => exact Image.wellFormed_of_ofStrided made
  | ofView made => exact Image.wellFormed_of_new? made
  | taken _ ih => exact Image.wellFormed_take_fst ih
  | takenFrom _ _ => exact Image.wellFormed_take_snd _
  | crop x y w h _ ih => exact ih.crop x y w h
  | convert _ converted ih => exact ih.convert converted
  | write offset bytes _ ih => exact ih.writeAt offset bytes
  | viewed _ ih => rwa [ih.toImage_view]
  | rawDecoded decoded => exact RawCodec.returns_decode _ _ _ _ _ _ _ decoded
  | pngDecoded decoded => exact PngCodec.returns_decode _ _ _ _ _ _ _ _ decoded

/-- Every image the library hands out has a size that fits the address space, holds pixels
exactly when both sides are positive, and has a buffer of `stride * height` bytes; the sizes
cropping computes from it fit the address space too. -/
theorem shape {img : Image} (h : Reachable img) :
    img.WellFormed ∧ (img.isValid = true ↔ 0 < img.width ∧ 0 < img.height) ∧
      (img.isValid = true ↔ 0 < img.bufferSize) ∧ img.stride * img.height = img.bytes.size ∧
      img.stride < addressSpace ∧ img.bufferSize < addressSpace ∧
      ∀ x y w h, min w (img.width - x) * img.spec.bytesPerPixel * min h (img.height - y) < addressSpace := by
  have hw := h.wellFormed
  refine ⟨hw, hw.isValid_iff_sides, hw.isValid_iff, hw.size_bytes.symm, hw.stride_lt,
    hw.bufferSize_lt, fun x y w h => ?_⟩
  have hcrop := Image.bufferSize?_crop hw.bufferSize?_eq x y w h
  exact (ColorSpec.bufferSize?_eq_some_iff.1 hcrop).2.2

/-- A 3×2 RGB8 image made from its bytes, converted to RGBA8 and cropped to its last column. -/
theorem shape_converted_column :
    ∃ img out c, Image.ofBytes 3 2 .rgb8
        ⟨#[1, 2, 3, 4, 5, 6, 7, 8, 9, 10, 11, 12, 13, 14, 15, 16, 17, 18]⟩ = .ok img ∧
      img.convert .rgba8 = .ok out ∧ out.crop 2 0 1 2 = c ∧ Reachable c ∧
      (c.WellFormed ∧ (c.isValid = true ↔ 0 < c.width ∧ 0 < c.height) ∧
        (c.isValid = true ↔ 0 < c.bufferSize) ∧ c.stride * c.height = c.bytes.size ∧
        c.stride < addressSpace ∧ c.bufferSize < addressSpace ∧
        ∀ x y w h, min w (c.width - x) * c.spec.bytesPerPixel * min h (c.height - y) < addressSpace) :=
  have hmade : Reachable _ := Reachable.ofBytes (w := 3) (h := 2) (s := .rgb8)
    (b := ⟨#[1, 2, 3, 4, 5, 6, 7, 8, 9, 10, 11, 12, 13, 14, 15, 16, 17, 18]⟩) rfl
  have h := Reachable.crop 2 0 1 2 (Reachable.convert (t := .rgba8) hmade rfl)
  ⟨_, _, _, rfl, rfl, rfl, h, shape h⟩

end Reachable

end Pixmap
