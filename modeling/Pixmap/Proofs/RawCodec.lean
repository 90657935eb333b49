import Pixmap.Proofs.Runs
import Pixmap.Request

/-! The raw codec: decoding checks before reading and reads one buffer, encoding writes the stored
layout, and decoding what was written gives the image back (`RawCodec.decode_encode`). -/
namespace Pixmap

namespace Image

variable {img out : Image} {t : ColorSpec}

theorem sides_of_convert (hm : img.convert t = .ok out) :
    out.width = img.width ∧ out.height = img.height ∧ out.spec = t := by
  unfold convert at hm
  split at hm
  · next h =>
    cases hm
    exact ⟨rfl, rfl, h.symm⟩
  split at hm
  · cases hm
  split at hm
  · cases hm
  · next o ho =>
    obtain ⟨n, -, rfl⟩ : ∃ n, checkedSize img.width img.height t = .ok n ∧
        zeroed img.width img.height t n = o := by
      unfold tryWithSpec at ho
      cases hc : checkedSize img.width img.height t with
      | error e => simp [hc, Except.map] at ho
      | ok n => exact ⟨n, rfl, by simpa [hc, Except.map] using ho⟩
    split at hm <;> cases hm <;> exact ⟨rfl, rfl, rfl⟩

/-- A well-formed image is the image its own buffer makes. -/
theorem ofBytes_bytes (hw : img.WellFormed) : ofBytes img.width img.height img.spec img.bytes = .ok img := by
  rw [ofBytes_of_bufferSize? hw.bufferSize?_eq]
  obtain ⟨w, h, s, d⟩ := img
  congr 2
  cases d with
  | none => simp
  | some b =>
    obtain ⟨-, hb⟩ := wellFormed_iff.1 hw
    have hpos : 0 < b.size := by simpa [isValid] using hb
    simp [hpos]

end Image

theorem Limits.checkImage_eq_error {l : Limits} {w h : Nat} {s : ColorSpec} {e : Error}
    (he : l.checkImage w h s = .error e) : ∃ detail, e = .limitExceeded detail := by
  unfold Limits.checkImage at he
  split at he
  · cases he
  · cases he
    exact ⟨_, rfl⟩

namespace RawCodec

section Decode

variable {ρ : Type} [ByteReader ρ] (c : RawCodec) (spec : ColorSpec) (r : ρ) (j : Array Record)

/-- The steps of decoding after its record. -/
theorem decode_runOn :
    (c.decode spec : CodecM ρ Image).runOn r j =
      (do
        CodecM.ofExcept (c.limits.checkImage c.width c.height c.spec)
        let img ← CodecM.ofExcept (Image.tryWithSpec c.width c.height c.spec)
        let bytes ← readFull img.bytes.size
        intoSpec { img with data := img.data.map fun _ => bytes } spec : CodecM ρ Image).runOn r
        (j.push ⟨.debug, .rawCodec, "raw decode " ++ sides c.width c.height ++ " " ++ c.spec.name ++
          " -> " ++ spec.name⟩) :=
  rfl

/-- A layout over the limits is refused before anything is read. -/
theorem decode_of_checkImage_error {e : Error}
    (he : c.limits.checkImage c.width c.height c.spec = .error e) :
    ((c.decode spec : CodecM ρ Image).runOn r j).1 = (.error e, r) := by
  rw [decode_runOn, CodecM.runOn_bind_error (by rw [he]; rfl)]

/-- A layout whose size leaves the address space is refused before anything is read. -/
theorem decode_of_bufferSize?_eq_none (hl : c.limits.checkImage c.width c.height c.spec = .ok ())
    (hn : c.spec.bufferSize? c.width c.height = none) :
    ((c.decode spec : CodecM ρ Image).runOn r j).1 =
      (.error (.invalidInput (sides c.width c.height ++ " " ++ c.spec.name ++ " image size overflows")),
        r) := by
  have ht : Image.tryWithSpec c.width c.height c.spec =
      .error (.invalidInput (sides c.width c.height ++ " " ++ c.spec.name ++ " image size overflows")) := by
    simp [Image.tryWithSpec, Image.checkedSize, hn, Except.map, sides]
  rw [decode_runOn, CodecM.runOn_bind_ok (by rw [hl]; rfl), ht,
    CodecM.runOn_bind_error (runOn_ofExcept _ _ _)]

/-- Once the checks pass, decoding reads one stored buffer of `n` bytes and converts it. -/
theorem decode_of_bufferSize?_eq_some {n : Nat}
    (hl : c.limits.checkImage c.width c.height c.spec = .ok ())
    (hn : c.spec.bufferSize? c.width c.height = some n) :
    ∃ j', (c.decode spec : CodecM ρ Image).runOn r j =
      (do
        let bytes ← readFull n
        intoSpec ⟨c.width, c.height, c.spec, if n > 0 then some bytes else none⟩ spec).runOn r j' := by
  refine ⟨j.push ⟨.debug, .rawCodec, "raw decode " ++ sides c.width c.height ++ " " ++ c.spec.name ++
    " -> " ++ spec.name⟩, ?_⟩
  rw [decode_runOn, CodecM.runOn_bind_ok (by rw [hl]; rfl),
    CodecM.runOn_bind_ok (by rw [Image.tryWithSpec_eq_ok hn]; rfl)]
  have hsize : (Image.zeroed c.width c.height c.spec n).bytes.size = n := by
    by_cases hp : n > 0 <;> simp [Image.zeroed, Image.bytes, hp]; omega
  rw [hsize]
  by_cases hp : n > 0 <;> simp [Image.zeroed, hp]

end Decode

section Memory

variable (c : RawCodec) (spec : ColorSpec) (d : ByteArray) (p : Nat) (j : Array Record)

/-- From memory, a stored buffer of `n` bytes that is there is adopted and converted, and the
cursor moves past it. -/
theorem decode_memory_of_le {n : Nat} (hl : c.limits.checkImage c.width c.height c.spec = .ok ())
    (hn : c.spec.bufferSize? c.width c.height = some n) (hle : n ≤ d.size - p) :
    ((c.decode spec : CodecM MemoryReader Image).runOn ⟨d, p⟩ j).1 =
      ((Image.ofBytes c.width c.height c.spec (d.extract p (p + n))).bind (·.convert spec),
        ⟨d, p + n⟩) := by
  obtain ⟨j', hj⟩ := decode_of_bufferSize?_eq_some c spec (⟨d, p⟩ : MemoryReader) j hl hn
  have hsize : (d.extract p (p + n)).size = n := MemoryReader.size_extract_of_le hle
  have hbytes : Image.ofBytes c.width c.height c.spec (d.extract p (p + n)) =
      .ok ⟨c.width, c.height, c.spec, if n > 0 then some (d.extract p (p + n)) else none⟩ := by
    rw [Image.ofBytes_of_bufferSize? (by rw [hsize]; exact hn), hsize]
  rw [hj, CodecM.runOn_bind_ok (by rw [MemoryReader.readFull_runOn, if_pos hle]), runOn_intoSpec,
    hbytes]
  rfl

/-- From memory, a stored buffer of `n` bytes of which fewer are left is a truncation naming what
was left. -/
theorem decode_memory_of_lt {n : Nat} (hl : c.limits.checkImage c.width c.height c.spec = .ok ())
    (hn : c.spec.bufferSize? c.width c.height = some n) (hlt : d.size - p < n) :
    ((c.decode spec : CodecM MemoryReader Image).runOn ⟨d, p⟩ j).1 =
      (.error (.invalidInput ("truncated input: expected " ++ toString n ++ " bytes, got " ++
        toString (d.size - p))), ⟨d, p + (d.size - p)⟩) := by
  obtain ⟨j', hj⟩ := decode_of_bufferSize?_eq_some c spec (⟨d, p⟩ : MemoryReader) j hl hn
  rw [hj, CodecM.runOn_bind_error (by rw [MemoryReader.readFull_runOn, if_neg (by omega)])]

end Memory

section Encode

variable {ω : Type} [ByteWriter ω] (c : RawCodec) (img : Image) (w : ω) (j : Array Record)

/-- Encoding writes the image converted to the stored layout, after its records. -/
theorem encode_of_convert_ok {out : Image} (hc : img.convert c.spec = .ok out) :
    ∃ j', (c.encode img : CodecM ω Unit).runOn w j = (writeFull out.bytes).runOn w j' := by
  unfold encode
  rw [runOn_liftM_bind]
  split
  · next h =>
    rw [← h, Image.convert_self] at hc
    cases hc
    exact ⟨_, rfl⟩
  · rw [runOn_liftM_bind, Image.convertLogged_run, hc]
    exact ⟨_, rfl⟩

/-- A conversion the stored layout refuses fails the encoding before anything is written. -/
theorem encode_of_convert_error {e : Error} (hc : img.convert c.spec = .error e) :
    ((c.encode img : CodecM ω Unit).runOn w j).1 = (.error e, w) := by
  unfold encode
  rw [runOn_liftM_bind]
  split
  · next h =>
    rw [← h, Image.convert_self] at hc
    cases hc
  · rw [runOn_liftM_bind, Image.convertLogged_run, hc]
    rfl

/-- The image's own buffer is written when the layouts agree. -/
theorem encode_of_spec_eq (h : img.spec = c.spec) :
    ∃ j', (c.encode img : CodecM ω Unit).runOn w j = (writeFull img.bytes).runOn w j' := by
  unfold encode
  rw [runOn_liftM_bind, if_pos h]
  exact ⟨_, rfl⟩

end Encode

/-- Decoding what encoding wrote, with the image's own sides and the stored layout, gives back the
image converted to the stored layout and then to the layout asked for, wherever the stored bytes
stand in memory. -/
theorem decode_encode {img out : Image} (hw : img.WellFormed) (stored spec : ColorSpec) (limits : Limits)
    (hl : limits.checkImage img.width img.height stored = .ok ()) (hc : img.convert stored = .ok out)
    (pre post : ByteArray) (j : Array Record) :
    (((⟨img.width, img.height, stored, limits⟩ : RawCodec).decode spec : CodecM MemoryReader Image).runOn
      ⟨pre ++ out.bytes ++ post, pre.size⟩ j).1 =
        (out.convert spec, ⟨pre ++ out.bytes ++ post, pre.size + out.bytes.size⟩) := by
  have hwo := hw.convert hc
  obtain ⟨hwidth, hheight, hspec⟩ := Image.sides_of_convert hc
  have hn : stored.bufferSize? img.width img.height = some out.bytes.size := by
    rw [← hwidth, ← hheight, ← hspec]
    exact hwo.bufferSize?_eq
  have hle : out.bytes.size ≤ (pre ++ out.bytes ++ post).size - pre.size := by
    simp only [ByteArray.size_append]
    omega
  have hext : (pre ++ out.bytes ++ post).extract pre.size (pre.size + out.bytes.size) = out.bytes := by
    rw [ByteArray.append_assoc, ByteArray.extract_append, Nat.sub_self, Nat.add_sub_cancel_left,
      ByteArray.extract_append_eq_left rfl, ByteArray.extract_eq_empty_iff.2 (by omega),
      ByteArray.empty_append]
  have hout : Image.ofBytes img.width img.height stored out.bytes = .ok out := by
    rw [← hwidth, ← hheight, ← hspec]
    exact Image.ofBytes_bytes hwo
  rw [decode_memory_of_le _ spec _ _ j hl hn hle]
  simp only [hext, hout]
  rfl

/-- The raw codec's contract. A raw request is the raw codec of its layout and limits. From memory
at `p`, decoding refuses a layout over the limits, and then one whose size leaves the address
space, leaving the cursor at `p`; a stored buffer of `n` bytes with fewer left is a truncation
naming what was left; otherwise exactly `n` bytes are consumed and adopted as an image of the
stored layout, converted to the layout asked for. Encoding, whatever the codec's sides and
limits, writes exactly the image converted to the stored layout (its own buffer when the layouts
agree) or fails before writing, and decoding that with the image's sides gives the converted
image back. -/
theorem codec_contract (w h : Nat) (stored spec : ColorSpec) (limits : Limits) (d : ByteArray)
    (p : Nat) (j : Array Record) :
    let run := (((⟨w, h, stored, limits⟩ : RawCodec).decode spec : CodecM MemoryReader Image).runOn
      ⟨d, p⟩ j).1
    (∀ (png : PngLibrary) {ρ : Type} [ByteReader ρ] (r : ρ),
      ((({} : DecodeRequest).withRawLayout w h stored |>.withColorSpec spec |>.withLimits limits).decode png :
          CodecM ρ Image).runOn r j =
        ((⟨w, h, stored, limits⟩ : RawCodec).decode spec).runOn r
          (j.push ⟨.debug, .decode, "decode Raw as " ++ spec.name⟩)) ∧
    (∀ e, limits.checkImage w h stored = .error e →
      (∃ detail, e = .limitExceeded detail) ∧ run = (.error e, ⟨d, p⟩)) ∧
    (limits.checkImage w h stored = .ok () → stored.bufferSize? w h = none →
      ∃ detail, run = (.error (.invalidInput detail), ⟨d, p⟩)) ∧
    (∀ n, limits.checkImage w h stored = .ok () → stored.bufferSize? w h = some n → d.size - p < n →
      run.1 = .error (.invalidInput ("truncated input: expected " ++ toString n ++ " bytes, got " ++
        toString (d.size - p)))) ∧
    (∀ n, limits.checkImage w h stored = .ok () → stored.bufferSize? w h = some n → n ≤ d.size - p →
      run = ((Image.ofBytes w h stored (d.extract p (p + n))).bind (·.convert spec), ⟨d, p + n⟩)) ∧
    (∀ {ω : Type} [ByteWriter ω] (img : Image) (sink : ω) (cw ch : Nat) (cl : Limits),
      (∀ out, img.convert stored = .ok out → ∃ j', ((⟨cw, ch, stored, cl⟩ : RawCodec).encode img :
        CodecM ω Unit).runOn sink j = (writeFull out.bytes).runOn sink j') ∧
      (img.spec = stored → ∃ j', ((⟨cw, ch, stored, cl⟩ : RawCodec).encode img :
        CodecM ω Unit).runOn sink j = (writeFull img.bytes).runOn sink j') ∧
      (∀ e, img.convert stored = .error e →
        (((⟨cw, ch, stored, cl⟩ : RawCodec).encode img : CodecM ω Unit).runOn sink j).1 = (.error e, sink))) ∧
    (∀ img out : Image, img.WellFormed → limits.checkImage img.width img.height stored = .ok () →
      img.convert stored = .ok out → ∀ pre post : ByteArray,
        (((⟨img.width, img.height, stored, limits⟩ : RawCodec).decode spec : CodecM MemoryReader Image).runOn
          ⟨pre ++ out.bytes ++ post, pre.size⟩ j).1 =
            (out.convert spec, ⟨pre ++ out.bytes ++ post, pre.size + out.bytes.size⟩)) := by
  intro run
  refine ⟨fun _ _ _ r => rfl, fun e he => ⟨Limits.checkImage_eq_error he, decode_of_checkImage_error _ _ _ _ he⟩,
    fun hl hn => ⟨_, decode_of_bufferSize?_eq_none _ _ _ _ hl hn⟩,
    fun n hl hn hlt => by
      simp only [run, decode_memory_of_lt ⟨w, h, stored, limits⟩ spec d p j hl hn hlt],
    fun n hl hn hle => decode_memory_of_le _ _ _ _ _ hl hn hle, ?_,
    fun img out hw hl hc pre post => decode_encode hw stored spec limits hl hc pre post j⟩
  intro ω _ img sink cw ch cl
  exact ⟨fun out hc => encode_of_convert_ok _ img sink j hc, encode_of_spec_eq ⟨cw, ch, stored, cl⟩ img sink j,
    fun e hc => encode_of_convert_error _ img sink j hc⟩

end RawCodec

end Pixmap
