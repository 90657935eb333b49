import Pixmap.Proofs.StreamSlice
import Pixmap.Png.Library

/-! Reading a PNG stream through a block buffer. This project's decoder sees its reader only
through `draw`, so readers that agree on a draw agree on the whole decoder (`agree_openStream`,
`agree_readFrame`), and it reads a stream and its bytes in memory alike (`Png.library_readsAlike`). -/
namespace Pixmap

namespace Png

section Run

variable {ρ : Type} [ByteReader ρ]

theorem run_draw_ok {b : Buffered ρ} {j k : Array Record} {bytes : ByteArray} {r : ρ}
    (h : (((ByteReader.read blockSize : ReadM ρ ByteArray).run).run b.reader).run j = ((.ok bytes, r), k)) :
    (((draw : DecodeM ρ Bool).run).run b).run j = ((.ok !bytes.isEmpty, ⟨r, b.pending ++ bytes⟩), k) := by
  unfold draw
  rw [run_get_bind, run_getThe_bind]
  simp only [h]
  rfl

theorem run_draw_error {b : Buffered ρ} {j k : Array Record} {e : IoError} {r : ρ}
    (h : (((ByteReader.read blockSize : ReadM ρ ByteArray).run).run b.reader).run j = ((.error e, r), k)) :
    (((draw : DecodeM ρ Bool).run).run b).run j = ((.error (.io e), ⟨r, b.pending⟩), k) := by
  unfold draw
  rw [run_get_bind, run_getThe_bind]
  simp only [h]
  rfl

end Run

variable {ρ₁ ρ₂ : Type} [ByteReader ρ₁] [ByteReader ρ₂] {R : ρ₁ → ρ₂ → Prop}

/-- Buffered readers at the same place: related readers and the same bytes drawn but not used. -/
def Buffered.Rel (R : ρ₁ → ρ₂ → Prop) (b₁ : Buffered ρ₁) (b₂ : Buffered ρ₂) : Prop :=
  R b₁.reader b₂.reader ∧ b₁.pending = b₂.pending

theorem agree_draw (hread : Agree R Eq (ByteReader.read blockSize : ReadM ρ₁ ByteArray)
      (ByteReader.read blockSize : ReadM ρ₂ ByteArray)) :
    Agree (Buffered.Rel R) Eq (draw : DecodeM ρ₁ Bool) (draw : DecodeM ρ₂ Bool) := by
  intro b₁ b₂ ⟨hr, hp⟩ j₁ j₂
  rcases (hread b₁.reader b₂.reader hr).cases j₁ j₂ with
    ⟨bytes, _, r₁, r₂, k₁, k₂, h₁, h₂, rfl, hst⟩ | ⟨e, r₁, r₂, k₁, k₂, h₁, h₂, hst⟩
  · rw [run_draw_ok h₁, run_draw_ok h₂]
    exact ⟨rfl, hst, by rw [hp]⟩
  · rw [run_draw_error h₁, run_draw_error h₂]
    exact ⟨rfl, hst, hp⟩

variable (hdraw : Agree (Buffered.Rel R) Eq (draw : DecodeM ρ₁ Bool) (draw : DecodeM ρ₂ Bool))
include hdraw

theorem agree_takeUpTo_go (n : Nat) : ∀ fuel,
    Agree (Buffered.Rel R) Eq (takeUpTo.go n fuel : DecodeM ρ₁ _) (takeUpTo.go n fuel : DecodeM ρ₂ _)
  | 0 => agree_pure rfl
  | fuel + 1 => by
    rw [takeUpTo.go, takeUpTo.go]
    refine agree_get_bind fun b₁ b₂ ⟨hr, hp⟩ => ?_
    rw [hp]
    by_cases h : b₂.pending.size ≥ n
    · rw [if_pos h, if_pos h]
      exact AgreeFrom.set_bind ((agree_pure rfl).agreeFrom ⟨hr, rfl⟩)
    rw [if_neg h, if_neg h]
    refine (hdraw.agreeFrom ⟨hr, hp⟩).bind fun c₁ c₂ hc => ?_
    cases hc
    cases c₁
    · exact agree_get_bind fun b₁' b₂' ⟨hr', hp'⟩ =>
        AgreeFrom.set_bind ((agree_pure (by rw [hp'])).agreeFrom ⟨hr', rfl⟩)
    · exact agree_takeUpTo_go n fuel

theorem agree_takeUpTo (n : Nat) :
    Agree (Buffered.Rel R) Eq (takeUpTo n : DecodeM ρ₁ _) (takeUpTo n : DecodeM ρ₂ _) :=
  agree_takeUpTo_go hdraw n (n + 1)

theorem agree_takeExact (n : Nat) :
    Agree (Buffered.Rel R) Eq (takeExact n : DecodeM ρ₁ _) (takeExact n : DecodeM ρ₂ _) := by
  unfold takeExact
  refine (agree_takeUpTo hdraw n).bind_eq fun ⟨bytes, ended⟩ => ?_
  dsimp only
  exact agree_ite _ (fun _ => agree_throw_bind _ _ _) fun _ => agree_pure rfl

theorem agree_takePiece? (n : Nat) :
    Agree (Buffered.Rel R) Eq (takePiece? n : DecodeM ρ₁ _) (takePiece? n : DecodeM ρ₂ _) := by
  unfold takePiece?
  dsimp only
  refine agree_get_bind fun b₁ b₂ hb => ?_
  rw [hb.2]
  -- a block is drawn only when nothing is pending; then both hand out the same piece
  refine (agree_ite _ (fun _ => hdraw.bind_eq fun _ =>
    agree_ite _ (fun _ => agree_pure rfl) fun _ => ?_) fun _ => ?_).agreeFrom hb
  all_goals
    refine agree_get_bind fun b₁ b₂ ⟨hr, hp⟩ => ?_
    rw [hp]
    exact AgreeFrom.set_bind ((agree_pure rfl).agreeFrom ⟨hr, rfl⟩)

theorem agree_readChunkHead :
    Agree (Buffered.Rel R) Eq (readChunkHead : DecodeM ρ₁ _) (readChunkHead : DecodeM ρ₂ _) := by
  unfold readChunkHead
  exact (agree_takeExact hdraw 4).bind_eq fun _ =>
    (agree_takeExact hdraw 4).bind_eq fun _ => agree_pure rfl

theorem agree_readCrc : Agree (Buffered.Rel R) Eq (readCrc : DecodeM ρ₁ _) (readCrc : DecodeM ρ₂ _) := by
  unfold readCrc
  exact (agree_takeExact hdraw 4).bind_eq fun _ => agree_pure rfl

omit hdraw [ByteReader ρ₁] [ByteReader ρ₂] in
theorem agree_orThrow {α : Type} (r : Except Failure α) :
    Agree (Buffered.Rel R) Eq (orThrow r : DecodeM ρ₁ α) (orThrow r : DecodeM ρ₂ α) := by
  cases r with
  | ok a => exact agree_pure rfl
  | error f => exact agree_throw f

theorem agree_reserve (gathered : Option Gathered) (type : ChunkType) (len : Nat) :
    Agree (Buffered.Rel R) Eq (reserve gathered type len : DecodeM ρ₁ _)
      (reserve gathered type len : DecodeM ρ₂ _) := by
  unfold reserve
  cases gathered with
  | none => exact agree_pure rfl
  | some g =>
    refine agree_ite _ (fun _ => ?_) fun _ => agree_pure rfl
    rcases growBuffer len (len + 1) g.chunkBuffer g.budget with readable | ⟨capacity, budget⟩
    · exact (agree_takeExact hdraw readable).bind_eq fun _ => agree_throw _
    · exact agree_pure rfl

theorem agree_openStream_loop (strip16 : Bool) : ∀ fuel (gathered : Option Gathered),
    Agree (Buffered.Rel R) Eq (openStream.loop strip16 gathered fuel : DecodeM ρ₁ _)
      (openStream.loop strip16 gathered fuel : DecodeM ρ₂ _)
  | 0, _ => agree_throw _
  | fuel + 1, gathered => by
    rw [openStream.loop, openStream.loop]
    refine (agree_readChunkHead hdraw).bind_eq fun ⟨len, type⟩ => ?_
    refine (agree_orThrow _).bind_eq fun verdict => ?_
    cases verdict with
    | some opened => exact agree_pure rfl
    | none =>
      refine (agree_reserve hdraw gathered type len).bind_eq fun gathered => ?_
      refine (agree_takeExact hdraw len).bind_eq fun data => ?_
      refine (agree_readCrc hdraw).bind_eq fun stored => ?_
      exact (agree_orThrow _).bind_eq fun next => agree_openStream_loop strip16 fuel next

theorem agree_openStream (strip16 : Bool) :
    Agree (Buffered.Rel R) Eq (openStream strip16 : DecodeM ρ₁ _) (openStream strip16 : DecodeM ρ₂ _) := by
  unfold openStream
  refine (agree_takeExact hdraw 8).bind_eq fun sig => ?_
  dsimp only
  exact agree_ite _ (fun _ => agree_throw_bind _ _ _) fun _ => agree_openStream_loop hdraw strip16 _ none

theorem agree_takeInRun (info : Info) (places : Array RowPlace) (st : Reading) (n : Nat) :
    Agree (Buffered.Rel R) Eq (takeInRun info places st n : DecodeM ρ₁ _)
      (takeInRun info places st n : DecodeM ρ₂ _) := by
  unfold takeInRun
  refine (agree_takeUpTo hdraw n).bind_eq fun ⟨bytes, ended⟩ => ?_
  dsimp only
  exact agree_ite _ (fun _ => agree_throw_bind _ _ _) fun _ => agree_pure rfl

theorem agree_readPieces (info : Info) (places : Array RowPlace) : ∀ fuel left chunk st,
    Agree (Buffered.Rel R) Eq (readPieces info places left chunk st fuel : DecodeM ρ₁ _)
      (readPieces info places left chunk st fuel : DecodeM ρ₂ _)
  | 0, _, _, _ => agree_pure rfl
  | fuel + 1, left, chunk, st => by
    rw [readPieces, readPieces]
    refine (agree_takePiece? hdraw left).bind_eq fun piece => ?_
    cases piece with
    | none => exact agree_throw _
    | some piece =>
      dsimp only
      refine (agree_orThrow _).bind_eq fun ⟨st', complete⟩ => ?_
      dsimp only
      exact agree_ite _ (fun _ => agree_pure rfl) fun _ => agree_readPieces info places fuel _ _ _

theorem agree_skipRun : ∀ fuel data,
    Agree (Buffered.Rel R) Eq (skipRun data fuel : DecodeM ρ₁ _) (skipRun data fuel : DecodeM ρ₂ _)
  | 0, _ => agree_pure rfl
  | fuel + 1, data => by
    rw [skipRun, skipRun]
    refine (agree_takeExact hdraw 4).bind_eq fun crc => (agree_orThrow _).bind_eq fun _ => ?_
    refine (agree_readChunkHead hdraw).bind_eq fun ⟨len, type⟩ => ?_
    dsimp only
    exact agree_ite _ (fun _ => (agree_takeExact hdraw len).bind_eq fun next => agree_skipRun fuel next)
      fun _ => agree_pure rfl

theorem agree_readRun (info : Info) (places : Array RowPlace) : ∀ fuel left st,
    Agree (Buffered.Rel R) Eq (readRun info places left st fuel : DecodeM ρ₁ _)
      (readRun info places left st fuel : DecodeM ρ₂ _)
  | 0, _, _ => agree_throw _
  | fuel + 1, left, st => by
    rw [readRun, readRun]
    refine (agree_readPieces hdraw info places (left + 1) left _ st).bind_eq
      fun ⟨st', chunk, complete⟩ => ?_
    dsimp only
    refine agree_ite _ (fun _ => ?_) fun _ => ?_
    · exact (agree_takeExact hdraw _).bind_eq fun rest =>
        (agree_skipRun hdraw _ _).bind_eq fun _ => agree_pure rfl
    refine (agree_takeInRun hdraw info places st' 4).bind_eq fun crc => ?_
    refine (agree_orThrow _).bind_eq fun _ => (agree_takeInRun hdraw info places st' 4).bind_eq fun _ => ?_
    refine (agree_takeInRun hdraw info places st' 4).bind_eq fun _ => ?_
    exact agree_ite _ (fun _ => agree_readRun info places fuel _ st')
      fun _ => (agree_orThrow _).bind_eq fun _ => agree_pure rfl

theorem agree_readFrame (o : Opened) (strip16 : Bool) :
    Agree (Buffered.Rel R) Eq (readFrame o strip16 : DecodeM ρ₁ _) (readFrame o strip16 : DecodeM ρ₂ _) := by
  unfold readFrame
  exact (agree_readRun hdraw _ _ _ _ _).bind_eq fun _ => agree_pure rfl

end Png

namespace Png

section Step

variable {ρ α : Type}

theorem run_bind_pure {β : Type} (x : StateT ρ Logged α) (f : α → β) (r : ρ) (j : Array Record) :
    ((x >>= fun a => pure (f a)).run r).run j =
      ((f ((x.run r).run j).1.1, ((x.run r).run j).1.2), ((x.run r).run j).2) :=
  rfl

theorem run_step {m : DecodeM ρ α} {pending : ByteArray} {r : ρ} {j j' : Array Record}
    {result : Except Failure α} {b : Buffered ρ} (h : ((m.run).run ⟨r, pending⟩).run j = ((result, b), j')) :
    ((step m pending).run r).run j =
      (((result.map (·, b.pending)).mapError Failure.toLibrary, b.reader), j') := by
  have hrun : ((step m pending).run r).run j =
      (fun x : (Except Failure α × Buffered ρ) × Array Record =>
        (((x.1.1.map (·, x.1.2.pending)).mapError Failure.toLibrary, x.1.2.reader), x.2))
        (((m.run).run ⟨r, pending⟩).run j) := rfl
  rw [hrun, h]

/-- A call into a decoding step of the library runs the step from the pending bytes; the codec
sees the step's failure as the library's. -/
theorem runOn_call_step {β : Type} {m : DecodeM ρ α} {pending : ByteArray} {g : α × ByteArray → β}
    {r : ρ} {j j' : Array Record} {result : Except Failure α} {b : Buffered ρ}
    (h : ((m.run).run ⟨r, pending⟩).run j = ((result, b), j')) :
    (PngCodec.call (step m pending >>= fun x => pure (x.map g)) : CodecM ρ β).runOn r j =
      (((result.map fun a => g (a, b.pending)).mapError fun f => PngCodec.failureError f.toLibrary,
        b.reader), j') := by
  have hlib : ((step m pending >>= fun x => pure (x.map g)).run r).run j =
      ((((result.map (·, b.pending)).mapError Failure.toLibrary).map g, b.reader), j') := by
    rw [run_bind_pure, run_step h]
  rw [CodecM.runOn, PngCodec.run_call hlib]
  cases result <;> rfl

variable [ByteReader ρ]

/-- Reading the header through the library opens the stream with nothing pending. -/
theorem runOn_readInfo {strip16 : Bool} {r : ρ} {j j' : Array Record} {result : Except Failure Opened}
    {b : Buffered ρ} (h : (((openStream strip16 : DecodeM ρ _).run).run ⟨r, .empty⟩).run j = ((result, b), j')) :
    (PngCodec.call (library.readInfo strip16) : CodecM ρ library.Session).runOn r j =
      (((result.map fun o => (⟨o, b.pending, strip16⟩ : Session)).mapError
        fun f => PngCodec.failureError f.toLibrary, b.reader), j') :=
  runOn_call_step h

/-- Reading the frame through the library reads it from the session's pending bytes. -/
theorem runOn_nextFrame (session : library.Session) (n : Nat) {r : ρ} {j j' : Array Record}
    {result : Except Failure ByteArray} {b : Buffered ρ}
    (h : (((readFrame session.opened session.strip16 : DecodeM ρ _).run).run ⟨r, session.pending⟩).run j =
      ((result, b), j')) :
    (PngCodec.call (library.nextFrame session n) : CodecM ρ (ByteArray × Nat)).runOn r j =
      (((result.map fun frame => (frame, session.lineSize)).mapError
        fun f => PngCodec.failureError f.toLibrary, b.reader), j') :=
  runOn_call_step h

end Step

variable {d : ByteArray} {k : Nat}

/-- A decoding step that memory and the stream agree on, run from the same pending bytes and
readers at the same byte, returns the same and leaves the readers at the same byte. -/
theorem step_agree {α : Type} {m₁ : DecodeM MemoryReader α} {m₂ : DecodeM StreamReader α}
    (hm : Agree (Buffered.Rel (Tracks d k)) Eq m₁ m₂) (pending : ByteArray) {r₁ : MemoryReader}
    {r₂ : StreamReader} (hr : Tracks d k r₁ r₂) (j₁ j₂ : Array Record) :
    (((step m₁ pending).run r₁).run j₁).1.1 = (((step m₂ pending).run r₂).run j₂).1.1 ∧
      Tracks d k (((step m₁ pending).run r₁).run j₁).1.2 (((step m₂ pending).run r₂).run j₂).1.2 := by
  rcases (hm ⟨r₁, pending⟩ ⟨r₂, pending⟩ ⟨hr, rfl⟩).cases j₁ j₂ with
    ⟨a, _, b₁, b₂, k₁, k₂, h₁, h₂, rfl, hb⟩ | ⟨e, b₁, b₂, k₁, k₂, h₁, h₂, hb⟩
  · rw [run_step h₁, run_step h₂]
    exact ⟨by rw [hb.2], hb.1⟩
  · rw [run_step h₁, run_step h₂]
    exact ⟨rfl, hb.1⟩

/-- From readers at the same byte, the frame step returns the same for every session. -/
theorem library_nextFrame_alike (session : library.Session) (n : Nat) {r₁ : MemoryReader}
    {r₂ : StreamReader} (hr : Tracks d k r₁ r₂) :
    StepsAlike (library.nextFrame session n) (library.nextFrame session n) r₁ r₂ fun _ _ _ => True := by
  intro j₁ j₂
  have hdraw := agree_draw (Tracks.agree_read d k blockSize)
  obtain ⟨hres, -⟩ := step_agree (agree_readFrame hdraw session.opened session.strip16) session.pending hr j₁ j₂
  refine ⟨?_, trivial⟩
  simp only [library]
  rw [run_bind_pure, run_bind_pure, hres]

/-- This project's decoder reads the bytes of `d` from `k` on alike from memory and from a
stream standing at `k`. -/
theorem library_readsAlike (hk : k ≤ d.size) : library.ReadsAlike d k := by
  intro strip16 j₁ j₂
  have hdraw := agree_draw (Tracks.agree_read d k blockSize)
  have hstart : Tracks d k ⟨d.extract k d.size, 0⟩ (StreamReader.ofCursor { data := d, position := k }) :=
    Tracks.at_start (q := 0) hk (Nat.zero_le _)
  obtain ⟨hres, hst⟩ := step_agree (agree_openStream hdraw strip16) ByteArray.empty hstart j₁ j₂
  simp only [library]
  rw [run_bind_pure, run_bind_pure]
  refine ⟨by rw [hres], fun session _ n => ?_⟩
  dsimp only
  exact library_nextFrame_alike session n hst

end Png

/-- With this project's PNG decoder, every decode request gives the same result from a stream
standing at `k` as from the bytes from `k` on. -/
theorem DecodeRequest.decodeStream_library_eq (req : DecodeRequest) {d : ByteArray} {k : Nat}
    (hk : k ≤ d.size) (hword : k ≤ wordMax) (j₁ j₂ : Array Record) :
    ((req.decodeStream Png.library { data := d, position := k }).run j₁).1 =
      ((req.decodeBytes Png.library (d.extract k d.size)).run j₂).1 :=
  req.decodeStream_eq_of_readsAlike (Png.library_readsAlike hk) hk hword j₁ j₂

end Pixmap
