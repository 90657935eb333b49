import Pixmap.Proofs.RawCodec
import Pixmap.Proofs.WriterCalls
import Pixmap.Png.Library

/-! The sinks of an encode request agree: encoding settles the pieces before any byte is written,
so a fixed buffer gets what a growing one gets, cut at its capacity (`EncodeRequest.sinks_agree`). -/
namespace Pixmap

/-- The library refuses only before it writes: a refusal comes with no pieces. -/
def PngLibrary.RefusesUnwritten (png : PngLibrary) : Prop :=
  ∀ s, (png.encode s).refusal.isSome → (png.encode s).pieces = []

/-- This project's encoder never refuses. -/
theorem Png.library_refusesUnwritten : Png.library.RefusesUnwritten := by
  intro s h
  cases h

/-- The pieces one after another. -/
def pieceBytes (pieces : List ByteArray) : ByteArray := pieces.foldr (· ++ ·) ByteArray.empty

@[simp] theorem pieceBytes_nil : pieceBytes [] = ByteArray.empty := rfl

@[simp] theorem pieceBytes_cons (p : ByteArray) (ps : List ByteArray) :
    pieceBytes (p :: ps) = p ++ pieceBytes ps := rfl

section WriteEach

variable {ω : Type} [FallibleWriter ω]

/-- Writes the pieces in order, each whole, and stops at the first failure. -/
def writeEach (w : ω) (failure : IoError) : List ByteArray → Except IoError Unit × ω
  | [] => (.ok (), w)
  | piece :: rest =>
    match writeAll w piece failure with
    | (.ok (), w') => writeEach w' failure rest
    | (.error e, w') => (.error e, w')

theorem writeEach_singleton (w : ω) (failure : IoError) (piece : ByteArray) :
    writeEach w failure [piece] = writeAll w piece failure := by
  unfold writeEach
  rcases writeAll w piece failure with ⟨_ | _, w'⟩ <;> rfl

/-- Writing out runs the writer's write-all loop, its failure an I/O error. -/
theorem writeOut_runOn (failure : IoError) (bytes : ByteArray) (w : ω) (j : Array Record) :
    (writeOut failure bytes : CodecM ω Unit).runOn w j =
      (((writeAll w bytes failure).1.mapError .io, (writeAll w bytes failure).2), j) := by
  unfold writeOut
  rw [CodecM.runOn, run_get_bind]
  cases h : writeAll w bytes failure with
  | mk result w' =>
    cases result <;> rfl

/-- The codec's writes of the library's pieces are one `writeEach`. -/
theorem runOn_writePieces (pieces : List ByteArray) (w : ω) (j : Array Record) :
    (PngCodec.writePieces pieces : CodecM ω Unit).runOn w j =
      (((writeEach w .writeAllShort pieces).1.mapError .io, (writeEach w .writeAllShort pieces).2), j) := by
  induction pieces generalizing w with
  | nil => rfl
  | cons piece rest ih =>
    unfold PngCodec.writePieces
    rw [writeEach]
    rcases hw : writeAll w piece .writeAllShort with ⟨_ | e, w'⟩
    · rw [CodecM.runOn_bind_error (by rw [writeOut_runOn, hw]; rfl)]
      rfl
    · rw [CodecM.runOn_bind_ok (by rw [writeOut_runOn, hw]; rfl), ih]

end WriteEach

variable {ω : Type} [ByteWriter ω]

/-- A writer that never fails holds nothing back, so flushing it succeeds at once. -/
theorem runOn_flushOut (w : ω) (j : Array Record) : (flushOut : CodecM ω Unit).runOn w j = ((.ok (), w), j) :=
  rfl

/-- Encoding as PNG a nonempty image writes the library's pieces and flushes, or raises the
library's refusal, which comes before any piece. -/
theorem PngCodec.encode_runOn {png : PngLibrary} (hpng : png.RefusesUnwritten) (config : CodecConfig)
    {img : Image} (hne : ¬img.bytes.isEmpty) (w : ω) (j : Array Record) :
    ∃ j', (PngCodec.encode png config img : CodecM ω Unit).runOn w j =
      match (png.encode (settings config img)).refusal with
      | some message => ((.error (.codec .png message), w), j')
      | none => (((writeEach w .writeAllShort (png.encode (settings config img)).pieces).1.mapError .io,
          (writeEach w .writeAllShort (png.encode (settings config img)).pieces).2), j') := by
  have hfirst := hpng (settings config img)
  unfold PngCodec.encode
  rw [if_neg hne, runOn_liftM_bind]
  generalize (StateT.run (emit Level.debug Source.pngCodec _) j).2 = j₁
  refine ⟨j₁, ?_⟩
  generalize png.encode (settings config img) = writes at hfirst ⊢
  cases hr : writes.refusal with
  | some message =>
    have hwrite : (PngCodec.writePieces writes.pieces : CodecM ω Unit).runOn w j₁ = ((.ok (), w), j₁) := by
      rw [hfirst (by rw [hr]; rfl)]
      rfl
    rw [CodecM.runOn_bind_ok hwrite]
    dsimp only
    rw [hr]
    rfl
  | none =>
    rcases hw : writeEach w .writeAllShort writes.pieces with ⟨_ | e, w'⟩
    · rw [CodecM.runOn_bind_error (by rw [runOn_writePieces, hw]; rfl)]
      rfl
    · rw [CodecM.runOn_bind_ok (by rw [runOn_writePieces, hw]; rfl)]
      dsimp only
      rw [hr]
      exact runOn_flushOut w' j₁

namespace EncodeRequest

/-- What encoding an image hands to its sink, piece by piece, with the failure of a sink that stops
taking them; or the error that comes before any byte is written. -/
def output (r : EncodeRequest) (png : PngLibrary) (img : Image) : Except Error (List ByteArray × IoError) :=
  match r.format with
  | .raw => .ok ([img.bytes], .ofKind .writeZero)
  | .png =>
    if img.bytes.isEmpty then .error (.invalidInput "cannot encode an empty image as PNG")
    else
      match (png.encode (PngCodec.settings (r.config.getD {}) img)).refusal with
      | some message => .error (.codec .png message)
      | none => .ok ((png.encode (PngCodec.settings (r.config.getD {}) img)).pieces, .writeAllShort)
  | .jpeg => .error (.unsupportedFormat .jpeg)
  | .gif => .error (.notImplemented "GIF encode")

/-- Encoding into any sink, after its records, writes out what `output` settles, or fails with
its error and leaves the sink as it was. -/
theorem encode_runOn (r : EncodeRequest) {png : PngLibrary} (hpng : png.RefusesUnwritten) (img : Image)
    (w : ω) (j : Array Record) :
    ∃ j', (r.encode png img : CodecM ω Unit).runOn w j =
      match r.output png img with
      | .ok (pieces, failure) =>
        (((writeEach w failure pieces).1.mapError .io, (writeEach w failure pieces).2), j')
      | .error e => ((.error e, w), j') := by
  unfold encode output
  rw [runOn_liftM_bind]
  cases r.format with
  | raw =>
    obtain ⟨j', h⟩ := RawCodec.encode_of_spec_eq ⟨img.width, img.height, img.spec, {}⟩ img w _ rfl
    refine ⟨j', ?_⟩
    rw [h, writeFull, writeOut_runOn]
    dsimp only
    rw [writeEach_singleton]
  | png =>
    dsimp only
    by_cases hempty : img.bytes.isEmpty
    · unfold PngCodec.encode
      rw [if_pos hempty, if_pos hempty]
      exact ⟨_, rfl⟩
    · rw [if_neg hempty]
      obtain ⟨j', h⟩ := PngCodec.encode_runOn hpng (r.config.getD {}) hempty w (emit _ _ _ |>.run j).2
      refine ⟨j', ?_⟩
      rw [h]
      split <;> rfl
  | jpeg => exact ⟨_, rfl⟩
  | gif => exact ⟨_, rfl⟩

end EncodeRequest

namespace StreamWriter

/-- A writer over a stream takes the whole rest in one write. -/
theorem writeAll_go (s : StreamWriter) (rest : ByteArray) (failure : IoError) :
    writeAll.go failure s rest = (.ok (), ⟨⟨s.stream.bytes ++ rest⟩⟩) := by
  by_cases h : rest.size = 0
  · have hrest : rest = ByteArray.empty := ByteArray.ext (Array.eq_empty_of_size_eq_zero h)
    rw [writeAll_go_done h, hrest, ByteArray.append_empty]
  have hw : FallibleWriter.tryWrite s rest =
      (.ok rest.size, (⟨⟨s.stream.bytes ++ rest⟩⟩ : StreamWriter)) := rfl
  rw [writeAll_go_took (by omega) hw (by omega), writeAll_go_done (by simp)]

/-- A stream takes every piece whole. -/
theorem writeEach_eq (s : StreamWriter) (failure : IoError) (pieces : List ByteArray) :
    writeEach s failure pieces = (.ok (), ⟨⟨s.stream.bytes ++ pieceBytes pieces⟩⟩) := by
  induction pieces generalizing s with
  | nil => simp [writeEach]
  | cons piece rest ih =>
    rw [writeEach, writeAll, writeAll_go]
    dsimp only
    rw [ih, pieceBytes_cons, ByteArray.append_assoc]

end StreamWriter

/-- A growing buffer takes every piece whole. -/
theorem GrowingWriter.writeEach_eq (g : GrowingWriter) (failure : IoError) (pieces : List ByteArray) :
    writeEach g failure pieces = (.ok (), ⟨g.bytes ++ pieceBytes pieces⟩) := by
  induction pieces generalizing g with
  | nil => simp [writeEach]
  | cons piece rest ih =>
    rw [writeEach, writeAll, GrowingWriter.writeAll_go]
    dsimp only
    rw [ih, pieceBytes_cons, ByteArray.append_assoc]

namespace MemoryWriter

/-- Once the buffer is full, bytes handed over after the first `B.size` change nothing. -/
theorem holds_append_iff {B X : ByteArray} {w : MemoryWriter} (hX : B.size ≤ X.size) (Y : ByteArray) :
    Holds B (X ++ Y) w ↔ Holds B X w := by
  have hmin : min B.size (X ++ Y).size = min B.size X.size := by
    rw [ByteArray.size_append]; omega
  have htake : (X ++ Y).data.toList.take B.size = X.data.toList.take B.size := by
    rw [ByteArray.data_append, Array.toList_append, List.take_append_of_le_length (by simpa using hX)]
  unfold Holds
  rw [hmin]
  constructor
  · rintro ⟨hp, hbuf⟩
    refine ⟨hp, ?_⟩
    rw [hbuf, hp, Nat.min_eq_left hX, htake]
  · rintro ⟨hp, hbuf⟩
    refine ⟨hp, ?_⟩
    rw [hbuf, hp, Nat.min_eq_left hX, htake]

/-- Writing all of `R` into a fixed buffer that holds `P` succeeds exactly when `R` fits in the
room left; either way the buffer then holds `P` followed by `R`, truncated at its capacity. -/
theorem writeAll_go_holds (failure : IoError) {B : ByteArray} (R : ByteArray) :
    ∀ (P : ByteArray) (w : MemoryWriter), Holds B P w →
      (writeAll.go failure w R).1 = (if R.size ≤ B.size - w.pos then .ok () else .error failure) ∧
        Holds B (P ++ R) (writeAll.go failure w R).2 := by
  induction hR : R.size using Nat.strongRecOn generalizing R with
  | ind m ih =>
    intro P w hw
    have hpos : w.pos ≤ B.size := by rw [hw.1]; omega
    by_cases h0 : R.size = 0
    · -- nothing is left to write
      have hR0 : R = ByteArray.empty := ByteArray.ext (Array.eq_empty_of_size_eq_zero h0)
      rw [writeAll_go_done h0]
      refine ⟨by rw [if_pos (by omega)], ?_⟩
      rwa [hR0, ByteArray.append_empty]
    obtain ⟨hn, hw'⟩ := holds_put hw R
    have hwrite : FallibleWriter.tryWrite w R = (.ok (w.put R).1, (w.put R).2) := rfl
    by_cases hz : (w.put R).1 = 0
    · -- the buffer was already full
      rw [hz] at hwrite
      rw [writeAll_go_took_nothing (by omega) hwrite]
      exact ⟨by rw [if_neg (by omega)], hw'⟩
    rw [writeAll_go_took (by omega) hwrite (by omega)]
    have hpos' : (w.put R).2.pos = w.pos + min R.size (B.size - w.pos) := by
      rw [← hn]; rfl
    have hrest : (R.extract (w.put R).1 R.size).size = R.size - min R.size (B.size - w.pos) := by
      rw [ByteArray.size_extract, hn]; omega
    obtain ⟨hres, hheld⟩ := ih _ (by rw [hrest]; omega) _ rfl (P ++ R) _ hw'
    refine ⟨?_, ?_⟩
    · rw [hres, hrest, hpos']
      by_cases hfit : R.size ≤ B.size - w.pos
      · rw [if_pos (by omega), if_pos (by omega)]
      · rw [if_neg (by omega), if_neg (by omega)]
    · have hfull : B.size ≤ (P ++ R).size ∨ (R.extract (w.put R).1 R.size) = ByteArray.empty := by
        by_cases hfit : R.size ≤ B.size - w.pos
        · exact .inr (ByteArray.ext (Array.eq_empty_of_size_eq_zero (by
            rw [ByteArray.size_data, hrest]; omega)))
        · left
          rw [ByteArray.size_append]
          have := hw.1
          omega
      rcases hfull with hfull | hempty
      · exact (holds_append_iff hfull _).1 hheld
      · rw [hempty, ByteArray.append_empty] at hheld
        rwa [hempty]

/-- Writing the pieces into a fixed buffer that holds `P` succeeds exactly when they fit in the
room left; either way the buffer then holds `P` followed by them, truncated at its capacity. A
piece that overflows stops the writes, and what the rest would add lies past the capacity. -/
theorem writeEach_holds (failure : IoError) {B : ByteArray} :
    ∀ (pieces : List ByteArray) (P : ByteArray) (w : MemoryWriter), Holds B P w →
      (writeEach w failure pieces).1 =
          (if (pieceBytes pieces).size ≤ B.size - w.pos then .ok () else .error failure) ∧
        Holds B (P ++ pieceBytes pieces) (writeEach w failure pieces).2
  | [], P, w, hw => ⟨by simp [writeEach], by simpa [writeEach] using hw⟩
  | piece :: rest, P, w, hw => by
    obtain ⟨hres, hheld⟩ := writeAll_go_holds failure piece P w hw
    have hpos := hw.1
    rw [writeEach, writeAll]
    rcases hgo : writeAll.go failure w piece with ⟨result, w'⟩
    rw [hgo] at hres hheld
    dsimp only at hres hheld ⊢
    by_cases hfit : piece.size ≤ B.size - w.pos
    · rw [if_pos hfit] at hres
      subst hres
      obtain ⟨hres', hheld'⟩ := writeEach_holds failure rest (P ++ piece) w' hheld
      have hpos' := hheld.1
      rw [ByteArray.size_append] at hpos'
      refine ⟨?_, ?_⟩
      · rw [hres', pieceBytes_cons, ByteArray.size_append]
        by_cases hrest : (pieceBytes rest).size ≤ B.size - w'.pos
        · rw [if_pos hrest, if_pos (by omega)]
        · rw [if_neg hrest, if_neg (by omega)]
      · rw [pieceBytes_cons, ← ByteArray.append_assoc]
        exact hheld'
    · rw [if_neg hfit] at hres
      subst hres
      refine ⟨?_, ?_⟩
      · rw [if_neg (by rw [pieceBytes_cons, ByteArray.size_append]; omega)]
      · have hfull : B.size ≤ (P ++ piece).size := by
          rw [ByteArray.size_append]
          omega
        rw [pieceBytes_cons, ← ByteArray.append_assoc]
        exact (holds_append_iff hfull _).2 hheld

/-- When all of `P` fit, the cursor stands after it and the buffer is `P` followed by the rest of
`B`. -/
theorem Holds.of_fits {B P : ByteArray} {w : MemoryWriter} (hw : Holds B P w) (hP : P.size ≤ B.size) :
    w.pos = P.size ∧ w.buf = P ++ B.extract P.size B.size := by
  have hp : w.pos = P.size := by rw [hw.1]; omega
  refine ⟨hp, ByteArray.ext ?_⟩
  rw [← Array.toList_inj, hw.2, hp, ByteArray.data_append, Array.toList_append, toList_extract,
    List.take_of_length_le (l := P.data.toList) (by simp),
    List.take_of_length_le (l := List.drop P.size B.data.toList) (by simp)]

/-- When `P` overflows the buffer, the cursor stands at its end and the buffer holds as much of
`P` as fits. -/
theorem Holds.of_overflows {B P : ByteArray} {w : MemoryWriter} (hw : Holds B P w)
    (hP : B.size < P.size) : w.pos = B.size ∧ w.buf = P.extract 0 B.size := by
  have hp : w.pos = B.size := by rw [hw.1]; omega
  refine ⟨hp, ByteArray.ext ?_⟩
  rw [← Array.toList_inj, hw.2, hp, toList_extract, List.drop_zero, Nat.sub_zero,
    List.drop_eq_nil_of_le (by simp), List.append_nil]

end MemoryWriter

namespace EncodeRequest

variable {png : PngLibrary}

/-- A sink that stops taking the bytes fails with a write-zero error. -/
theorem output_failure_kind {r : EncodeRequest} {img : Image} {pieces : List ByteArray} {failure : IoError}
    (h : r.output png img = .ok (pieces, failure)) : failure.kind = .writeZero := by
  unfold output at h
  split at h
  · cases h; rfl
  · split at h
    · cases h
    · split at h
      · cases h
      · cases h; rfl
  · cases h
  · cases h

/-- Into a growing buffer, encoding gives the pieces `output` settles, one after another. -/
theorem encodeToBytes_output (r : EncodeRequest) (hpng : png.RefusesUnwritten) (img : Image)
    (j : Array Record) :
    ((r.encodeToBytes png img).run j).1 = (r.output png img).map fun o => pieceBytes o.1 := by
  obtain ⟨j', hrun⟩ := encode_runOn r hpng img (⟨ByteArray.empty⟩ : GrowingWriter) j
  change (((r.encode png img : CodecM GrowingWriter Unit).runOn ⟨ByteArray.empty⟩ j).1.1.map
    fun () => ((r.encode png img : CodecM GrowingWriter Unit).runOn ⟨ByteArray.empty⟩ j).1.2.bytes) = _
  rw [hrun]
  split
  · next pieces failure hout =>
    rw [hout, GrowingWriter.writeEach_eq, ByteArray.empty_append]
    rfl
  · next e hout =>
    rw [hout]
    rfl

/-- Into a stream, encoding appends the pieces `output` settles. -/
theorem encodeToStream_output (r : EncodeRequest) (hpng : png.RefusesUnwritten) (img : Image)
    (s : GrowingWriter) (j : Array Record) :
    ((r.encodeToStream png img s).run j).1 = (r.output png img).map fun o => ⟨s.bytes ++ pieceBytes o.1⟩ := by
  obtain ⟨j', hrun⟩ := encode_runOn r hpng img (⟨s⟩ : StreamWriter) j
  change (((r.encode png img : CodecM StreamWriter Unit).runOn ⟨s⟩ j).1.1.map
    fun () => ((r.encode png img : CodecM StreamWriter Unit).runOn ⟨s⟩ j).1.2.stream) = _
  rw [hrun]
  split
  · next pieces failure hout =>
    rw [hout, StreamWriter.writeEach_eq]
    rfl
  · next e hout =>
    rw [hout]
    rfl

/-- Into a fixed buffer, an error that comes before any byte is written leaves the buffer as it
was. -/
theorem encodeToSlice_of_output_error {r : EncodeRequest} (hpng : png.RefusesUnwritten) {img : Image}
    {e : Error} (h : r.output png img = .error e) (buf : ByteArray) (j : Array Record) :
    ((r.encodeToSlice png img buf).run j).1 = (.error e, buf) := by
  obtain ⟨j', hrun⟩ := encode_runOn r hpng img (⟨buf, 0⟩ : MemoryWriter) j
  rw [h] at hrun
  change ((((r.encode png img : CodecM MemoryWriter Unit).runOn ⟨buf, 0⟩ j).1.1.map
    fun () => ((r.encode png img : CodecM MemoryWriter Unit).runOn ⟨buf, 0⟩ j).1.2.pos),
    ((r.encode png img : CodecM MemoryWriter Unit).runOn ⟨buf, 0⟩ j).1.2.buf) = _
  rw [hrun]
  rfl

/-- Into a fixed buffer, the pieces `output` settles are written whole when they fit, with their
count; otherwise as much as fits is written and the sink's failure is raised. -/
theorem encodeToSlice_of_output_ok {r : EncodeRequest} (hpng : png.RefusesUnwritten) {img : Image}
    {pieces : List ByteArray} {failure : IoError} (h : r.output png img = .ok (pieces, failure))
    (buf : ByteArray) (j : Array Record) :
    ((r.encodeToSlice png img buf).run j).1 =
      if (pieceBytes pieces).size ≤ buf.size then
        (.ok (pieceBytes pieces).size, pieceBytes pieces ++ buf.extract (pieceBytes pieces).size buf.size)
      else (.error (.io failure), (pieceBytes pieces).extract 0 buf.size) := by
  obtain ⟨j', hrun⟩ := encode_runOn r hpng img (⟨buf, 0⟩ : MemoryWriter) j
  rw [h] at hrun
  dsimp only at hrun
  change ((((r.encode png img : CodecM MemoryWriter Unit).runOn ⟨buf, 0⟩ j).1.1.map
    fun () => ((r.encode png img : CodecM MemoryWriter Unit).runOn ⟨buf, 0⟩ j).1.2.pos),
    ((r.encode png img : CodecM MemoryWriter Unit).runOn ⟨buf, 0⟩ j).1.2.buf) = _
  rw [hrun]
  obtain ⟨hres, hheld⟩ :=
    MemoryWriter.writeEach_holds failure pieces _ _ (MemoryWriter.holds_start buf)
  rw [ByteArray.empty_append] at hheld
  rw [hres]
  by_cases hfit : (pieceBytes pieces).size ≤ buf.size
  · obtain ⟨hpos, hbuf⟩ := hheld.of_fits hfit
    rw [if_pos (by simpa using hfit), if_pos hfit, hpos, hbuf]
    rfl
  · obtain ⟨-, hbuf⟩ := hheld.of_overflows (by omega)
    rw [if_neg (by simpa using hfit), if_neg hfit, hbuf]
    rfl

/-- The sinks of an encoding agree, for a PNG library that refuses only before writing. What
encoding into a growing buffer gives, a stream gets appended to it, or the same error. Into a fixed
buffer: the same bytes and their count when they fit, the rest of the buffer kept; a write-zero
failure when they do not, the buffer then holding as many of them as fit; and the same error, with
the buffer untouched, when the encoding fails. -/
theorem sinks_agree (png : PngLibrary) (hpng : png.RefusesUnwritten) (r : EncodeRequest) (img : Image)
    (s : GrowingWriter) (buf : ByteArray) (j : Array Record) :
    let vec := ((r.encodeToBytes png img).run j).1
    ((r.encodeToStream png img s).run j).1 = vec.map (fun b => ⟨s.bytes ++ b⟩) ∧
    (∀ b, vec = .ok b → b.size ≤ buf.size →
      ((r.encodeToSlice png img buf).run j).1 = (.ok b.size, b ++ buf.extract b.size buf.size)) ∧
    (∀ b, vec = .ok b → buf.size < b.size → ∃ e : IoError, e.kind = .writeZero ∧
      ((r.encodeToSlice png img buf).run j).1 = (.error (.io e), b.extract 0 buf.size)) ∧
    (∀ e, vec = .error e → ((r.encodeToSlice png img buf).run j).1 = (.error e, buf)) := by
  intro vec
  have hvec : vec = (r.output png img).map fun o => pieceBytes o.1 := encodeToBytes_output r hpng img j
  rw [encodeToStream_output r hpng, hvec]
  cases hout : r.output png img with
  | error e =>
    dsimp only [Except.map]
    refine ⟨rfl, ?_, ?_, ?_⟩
    · intro b hb
      cases hb
    · intro b hb
      cases hb
    · intro e' he
      cases he
      exact encodeToSlice_of_output_error hpng hout buf j
  | ok o =>
    obtain ⟨pieces, failure⟩ := o
    dsimp only [Except.map]
    refine ⟨rfl, ?_, ?_, ?_⟩
    · intro b hb hfit
      cases hb
      rw [encodeToSlice_of_output_ok hpng hout, if_pos hfit]
    · intro b hb hover
      cases hb
      refine ⟨failure, output_failure_kind hout, ?_⟩
      rw [encodeToSlice_of_output_ok hpng hout, if_neg (by omega)]
    · intro e he
      cases he

/-- A one-pixel gray image encoded as PNG by this project's encoder, into a stream and into a
buffer of four bytes. -/
theorem sinks_agree_library_gray :
    Png.library.RefusesUnwritten ∧
      let img : Image := ⟨1, 1, .gray8, some ⟨#[7]⟩⟩
      let r : EncodeRequest := { format := .png }
      let vec := ((r.encodeToBytes Png.library img).run #[]).1
      ((r.encodeToStream Png.library img {}).run #[]).1 = vec.map (fun b => ⟨ByteArray.empty ++ b⟩) ∧
      (∀ b, vec = .ok b → b.size ≤ 4 →
        ((r.encodeToSlice Png.library img ⟨#[0, 0, 0, 0]⟩).run #[]).1 =
          (.ok b.size, b ++ (ByteArray.mk #[0, 0, 0, 0]).extract b.size 4)) ∧
      (∀ b, vec = .ok b → 4 < b.size → ∃ e : IoError, e.kind = .writeZero ∧
        ((r.encodeToSlice Png.library img ⟨#[0, 0, 0, 0]⟩).run #[]).1 = (.error (.io e), b.extract 0 4)) ∧
      (∀ e, vec = .error e →
        ((r.encodeToSlice Png.library img ⟨#[0, 0, 0, 0]⟩).run #[]).1 = (.error e, ⟨#[0, 0, 0, 0]⟩)) :=
  ⟨Png.library_refusesUnwritten,
    sinks_agree Png.library Png.library_refusesUnwritten _ _ {} ⟨#[0, 0, 0, 0]⟩ #[]⟩

end EncodeRequest

end Pixmap
