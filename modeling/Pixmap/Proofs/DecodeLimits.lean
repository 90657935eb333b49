import Pixmap.Proofs.RawCodec
import Pixmap.Proofs.LimitChecks

/-! Decoding under limits: both decoders check the layout they read and then convert, so what they
return is a conversion of an image that passed the limits. -/
namespace Pixmap

namespace Image

variable {img out : Image} {w h : Nat} {s t : ColorSpec}

theorem sides_of_ofBytes {b : ByteArray} (hm : ofBytes w h s b = .ok img) :
    img.width = w ∧ img.height = h ∧ img.spec = s := by
  unfold ofBytes at hm
  split at hm
  · cases hm
  · split at hm
    · cases hm
    · cases hm
      exact ⟨rfl, rfl, rfl⟩

end Image

namespace Limits

variable {l : Limits} {w h : Nat} {s t : ColorSpec}

/-- A conversion of an image within the limits stays within them when its layout takes no more
bytes per pixel. -/
theorem checkImage_of_convert {src img : Image} (hl : l.checkImage src.width src.height src.spec = .ok ())
    (hc : src.convert t = .ok img) (ht : t.bytesPerPixel ≤ src.spec.bytesPerPixel) :
    l.checkImage img.width img.height img.spec = .ok () := by
  obtain ⟨hwidth, hheight, hspec⟩ := Image.sides_of_convert hc
  rw [hwidth, hheight, hspec]
  exact checkImage_mono hl le_rfl le_rfl ht

end Limits

theorem returns_mono {ε σ α : Type} {m : ExceptT ε (StateT σ Logged) α} {P Q : α → Prop}
    (hm : Returns m P) (hPQ : ∀ a, P a → Q a) : Returns m Q :=
  fun s j a s' j' h => hPQ a (hm s j a s' j' h)

/-- Bringing an image into a layout returns its conversion. -/
theorem returns_intoSpec {σ : Type} (img : Image) (spec : ColorSpec) :
    Returns (intoSpec img spec : CodecM σ Image) fun out => img.convert spec = .ok out := by
  intro s j out s' j' h
  have hrun := runOn_intoSpec img spec s j
  simp only [CodecM.runOn] at hrun
  rw [h] at hrun
  exact (Prod.mk.inj hrun).1.symm

/-- A raw decoder returns the stored buffer, an image of the stored sides and layout that passed
the limits, converted to the layout asked for. -/
theorem RawCodec.returns_decode_checked {ρ : Type} [ByteReader ρ] (c : RawCodec) (spec : ColorSpec) :
    Returns (c.decode spec : CodecM ρ Image) fun img => ∃ src : Image,
      src.width = c.width ∧ src.height = c.height ∧ src.spec = c.spec ∧
        c.limits.checkImage src.width src.height src.spec = .ok () ∧ src.convert spec = .ok img := by
  unfold RawCodec.decode
  refine returns_bind_of_forall fun _ => ?_
  refine returns_bind (P := fun _ => c.limits.checkImage c.width c.height c.spec = .ok ())
    (returns_ofExcept fun u h => by rw [h]) fun _ hl => ?_
  refine returns_bind (P := fun img : Image => img.width = c.width ∧ img.height = c.height ∧
    img.spec = c.spec) (returns_ofExcept fun img h => ?_) fun img ⟨hw, hh, hs⟩ => ?_
  · obtain ⟨n, -, rfl⟩ : ∃ n, Image.checkedSize c.width c.height c.spec = .ok n ∧
        Image.zeroed c.width c.height c.spec n = img := by
      unfold Image.tryWithSpec at h
      cases hn : Image.checkedSize c.width c.height c.spec with
      | error e => simp [hn, Except.map] at h
      | ok n => exact ⟨n, rfl, by simpa [hn, Except.map] using h⟩
    exact ⟨rfl, rfl, rfl⟩
  refine returns_bind_of_forall fun bytes => ?_
  exact returns_mono (returns_intoSpec _ spec) fun out hc =>
    ⟨{ img with data := img.data.map fun _ => bytes }, hw, hh, hs, by simpa [hw, hh, hs] using hl, hc⟩

/-- Adopting a frame returns an image of the plan's layout and the given sides, converted to the
layout asked for. -/
theorem PngCodec.returns_adopt_converts {σ : Type} (width height : Nat) (p : FramePlan) (spec : ColorSpec)
    (frame : ByteArray) (lineSize : Nat) :
    Returns (adopt width height p spec frame lineSize : CodecM σ Image) fun img => ∃ src : Image,
      src.width = width ∧ src.height = height ∧ src.spec = p.decoded ∧ src.convert spec = .ok img := by
  unfold adopt
  dsimp only
  split
  · exact returns_throw_bind
  split
  · exact returns_throw_bind
  refine returns_bind (returns_ofExcept fun img h => Image.sides_of_ofBytes h) fun img ⟨hw, hh, hs⟩ => ?_
  exact returns_mono (returns_intoSpec img spec) fun out hc => ⟨img, hw, hh, hs, hc⟩

/-- A PNG decoder returns, whatever the PNG library, the decoded pixels: an image of the decoded
layout that passed the limits, converted to the layout asked for. -/
theorem PngCodec.returns_decode_checked {ρ : Type} [ByteReader ρ] (png : PngLibrary) (limits : Limits)
    (spec : ColorSpec) :
    Returns (PngCodec.decode png limits spec : CodecM ρ Image) fun img => ∃ src : Image,
      limits.checkImage src.width src.height src.spec = .ok () ∧ src.convert spec = .ok img := by
  unfold PngCodec.decode PngCodec.readImage
  refine returns_bind_of_forall fun sig => ?_
  dsimp only
  split
  · exact returns_throw_bind
  refine returns_bind_of_forall fun _ => returns_bind_of_forall fun session => ?_
  -- the check on the decoded layout, carried to the image adopted in that layout
  refine returns_bind (returns_plan png limits spec session) fun p ⟨_, _, hl⟩ => ?_
  refine returns_bind_of_forall fun ⟨frame, lineSize⟩ => ?_
  exact returns_mono (returns_adopt_converts _ _ p spec frame lineSize) fun _ ⟨src, hw, hh, hs, hc⟩ =>
    ⟨src, by rw [hw, hh, hs]; exact hl, hc⟩

/-- The layout asked for can take more bytes per pixel than the limits were checked on: one RGB
pixel of three bytes, within a memory bound of three bytes, is returned as RGBA at 16 bits,
whose eight bytes break that bound. -/
theorem RawCodec.decode_widens_past_memory_limit :
    (((⟨1, 1, .rgb8, Limits.unbounded.withMaxMemory 3⟩ : RawCodec).decode .rgba16 :
        CodecM MemoryReader Image).runOn ⟨⟨#[10, 20, 30]⟩, 0⟩ #[]).1.1 =
      .ok ⟨1, 1, .rgba16, some ⟨#[0, 10, 0, 20, 0, 30, 255, 255]⟩⟩ ∧
    (Limits.unbounded.withMaxMemory 3).checkImage 1 1 .rgba16 =
      .error (.limitExceeded "1x1 RGBA16: memory allocation exceeds limit") := by
  constructor
  · rw [RawCodec.decode_memory_of_le _ _ _ _ _ (by decide) (n := 3) (by decide) (by decide)]
    decide +kernel
  · decide

end Pixmap
