import Pixmap.Proofs.PngReading

/-! The palette defect is the only abort of PNG decoding: `Fails m E` bounds the failures of `m`,
and decoding aborts only with the text of a palette that is not whole entries. -/
namespace Pixmap

section Fails

variable {ε σ α β : Type}

/-- Every failure of `m`, from any state and journal, satisfies `E`. -/
def Fails (m : ExceptT ε (StateT σ Logged) α) (E : ε → Prop) : Prop :=
  ∀ s j e s' j', ((m.run).run s).run j = ((.error e, s'), j') → E e

variable {m : ExceptT ε (StateT σ Logged) α} {f : α → ExceptT ε (StateT σ Logged) β} {E E' : ε → Prop}

lemma fails_pure (a : α) : Fails (pure a : ExceptT ε (StateT σ Logged) α) E := by
  intro s j e s' j' h
  cases h

lemma fails_throw {e : ε} (h : E e) : Fails (throw e : ExceptT ε (StateT σ Logged) α) E := by
  intro s j e' s' j' hr
  cases hr
  exact h

lemma fails_bind (hm : Fails m E) (hf : ∀ a, Fails (f a) E) : Fails (m >>= f) E := by
  intro s j e s' j' h
  rcases hr : ((m.run).run s).run j with ⟨⟨r, s₁⟩, j₁⟩
  cases r with
  | ok a =>
    rw [run_bind_ok hr] at h
    exact hf a s₁ j₁ e s' j' h
  | error e₁ =>
    rw [run_bind_error hr] at h
    cases h
    exact hm s j _ _ _ hr

/-- A failure cuts the rest of a computation off. -/
lemma fails_throw_bind {e : ε} (h : E e) : Fails (throw e >>= f) E := by
  intro s j e' s' j' hr
  cases hr
  exact h

lemma Fails.mono (hm : Fails m E) (h : ∀ e, E e → E' e) : Fails m E' :=
  fun s j e s' j' hr => h e (hm s j e s' j' hr)

lemma fails_ite (c : Prop) [Decidable c] {a b : ExceptT ε (StateT σ Logged) α} (ha : c → Fails a E)
    (hb : ¬c → Fails b E) : Fails (if c then a else b) E := by
  by_cases h : c
  · rw [if_pos h]
    exact ha h
  · rw [if_neg h]
    exact hb h

lemma fails_get_bind {g : σ → ExceptT ε (StateT σ Logged) β} (h : ∀ s, Fails (g s) E) :
    Fails (get >>= g) E := by
  intro s j e s' j' hr
  rw [run_get_bind] at hr
  exact h s s j e s' j' hr

lemma fails_set_bind {t : σ} {g : PUnit → ExceptT ε (StateT σ Logged) β} (h : Fails (g ⟨⟩) E) :
    Fails (set t >>= g) E := by
  intro s j e s' j' hr
  rw [run_set_bind] at hr
  exact h t j e s' j' hr

/-- A handler that never fails leaves nothing to fail. -/
lemma fails_tryCatch {h : ε → ExceptT ε (StateT σ Logged) α} (hh : ∀ e, Fails (h e) E) :
    Fails (tryCatch m h) E := by
  intro s j e s' j' hr
  rcases hm : ((m.run).run s).run j with ⟨⟨r, s₁⟩, j₁⟩
  cases r with
  | ok a =>
    rw [run_tryCatch_ok hm] at hr
    cases hr
  | error e₁ =>
    rw [run_tryCatch_error hm] at hr
    exact hh e₁ s₁ j₁ e s' j' hr

/-- A continuation needs to fail well only on what the first step returns. -/
lemma fails_bind_of_returns {P : α → Prop} (hr : Returns m P) (hm : Fails m E)
    (hf : ∀ a, P a → Fails (f a) E) : Fails (m >>= f) E := by
  intro s j e s' j' h
  rcases hrun : ((m.run).run s).run j with ⟨⟨r, s₁⟩, j₁⟩
  cases r with
  | ok a =>
    rw [run_bind_ok hrun] at h
    exact hf a (hr s j a s₁ j₁ hrun) s₁ j₁ e s' j' h
  | error e₁ =>
    rw [run_bind_error hrun] at h
    cases h
    exact hm s j _ _ _ hrun

end Fails

namespace Png

/-- A failure of the stream or of reading it, not a defect of the program. -/
def Failure.Expected : Failure → Prop
  | .defect _ => False
  | _ => True

/-- A failure that is a defect only as the defect of the palette of an indexed image. -/
def Failure.OfPalette (info : Info) : Failure → Prop
  | .defect text => info.header.colorType = .indexed ∧ ∃ p, info.palette = some p ∧ paletteDefect p = some text
  | _ => True

lemma Failure.Expected.ofPalette {f : Failure} (h : f.Expected) (info : Info) : f.OfPalette info := by
  cases f <;> simp_all [Failure.Expected, Failure.OfPalette]

/-- A palette aborts exactly when its length is not a multiple of three; the text names the
length of the last, short entry. -/
theorem paletteDefect_eq_some_iff {p : ByteArray} {text : String} :
    paletteDefect p = some text ↔
      p.size % 3 ≠ 0 ∧ text = "range end index 3 out of range for slice of length " ++ toString (p.size % 3) := by
  unfold paletteDefect
  by_cases h : p.size % 3 = 0
  · have hthree : (p.size + 2) % 3 + 1 = 3 := by omega
    simp [h, hthree]
  · -- the cut-short entry holds the bytes past the last multiple of three
    have hcond : ¬(p.size = 0 ∨ (p.size + 2) % 3 + 1 = 3) := by omega
    have hrest : (p.size + 2) % 3 + 1 = p.size % 3 := by omega
    rw [if_neg hcond, hrest]
    simp [h, eq_comm]

section Stream

variable {ρ : Type} [ByteReader ρ]

theorem fails_draw : Fails (draw : DecodeM ρ Bool) Failure.Expected := by
  intro b j e b' j' h
  rcases hr : (((ByteReader.read blockSize : ReadM ρ ByteArray).run).run b.reader).run j with
    ⟨⟨r, reader⟩, k⟩
  cases r with
  | ok bytes => rw [run_draw_ok hr] at h; cases h
  | error e₀ =>
    rw [run_draw_error hr] at h
    cases h
    trivial

theorem fails_takeUpTo_go (n : Nat) : ∀ fuel, Fails (takeUpTo.go n fuel : DecodeM ρ _) Failure.Expected
  | 0 => fails_pure _
  | fuel + 1 => by
    rw [takeUpTo.go]
    refine fails_get_bind fun b => fails_ite _ (fun _ => fails_set_bind (fails_pure _)) fun _ => ?_
    refine fails_bind fails_draw fun more => ?_
    cases more
    · exact fails_get_bind fun _ => fails_set_bind (fails_pure _)
    · exact fails_takeUpTo_go n fuel

theorem fails_takeUpTo (n : Nat) : Fails (takeUpTo n : DecodeM ρ _) Failure.Expected :=
  fails_takeUpTo_go n (n + 1)

theorem fails_takeExact (n : Nat) : Fails (takeExact n : DecodeM ρ _) Failure.Expected := by
  unfold takeExact
  refine fails_bind (fails_takeUpTo n) fun ⟨bytes, ended⟩ => ?_
  exact fails_ite _ (fun _ => fails_throw_bind trivial) fun _ => fails_pure _

theorem fails_takePiece? (n : Nat) : Fails (takePiece? n : DecodeM ρ _) Failure.Expected := by
  unfold takePiece?
  dsimp only
  refine fails_get_bind fun b => ?_
  refine fails_ite _ (fun _ => fails_bind fails_draw fun _ => fails_ite _ (fun _ => fails_pure _) fun _ => ?_)
    fun _ => ?_
  all_goals exact fails_get_bind fun _ => fails_set_bind (fails_pure _)

theorem fails_readChunkHead : Fails (readChunkHead : DecodeM ρ _) Failure.Expected := by
  unfold readChunkHead
  exact fails_bind (fails_takeExact 4) fun _ => fails_bind (fails_takeExact 4) fun _ => fails_pure _

theorem fails_readCrc : Fails (readCrc : DecodeM ρ _) Failure.Expected := by
  unfold readCrc
  exact fails_bind (fails_takeExact 4) fun _ => fails_pure _

end Stream

lemma fails_orThrow {ρ α : Type} {r : Except Failure α} {E : Failure → Prop} (h : ∀ f, r = .error f → E f) :
    Fails (orThrow r : DecodeM ρ α) E := by
  cases r with
  | ok a => exact fails_pure a
  | error f => exact fails_throw (h f rfl)

lemma expected_of_mapError {α : Type} {r : Except Problem α} {f : Failure}
    (h : r.mapError .problem = .error f) : f.Expected := by
  cases r with
  | ok a => cases h
  | error p =>
    cases h
    trivial

theorem takeAncillary_expected {g : Gathered} {type : ChunkType} {data : ByteArray} {f : Failure}
    (h : g.takeAncillary type data = .error f) : f.Expected := by
  unfold Gathered.takeAncillary at h
  dsimp only at h
  repeat' split at h
  all_goals first
    | exact expected_of_mapError h
    | cases h <;> trivial

theorem judgeHead_expected {strip16 : Bool} {gathered : Option Gathered} {len : Nat} {type : ChunkType}
    {f : Failure} (h : judgeHead strip16 gathered len type = .error f) : f.Expected := by
  cases f with
  | defect t =>
    unfold judgeHead at h
    cases gathered <;> simp [throw, throwThe, MonadExceptOf.throw, bind, Except.bind, pure, Except.pure] at h <;>
      split_ifs at h <;> cases h
  | _ => trivial

theorem gather_expected {strip16 : Bool} {gathered : Option Gathered} {type : ChunkType} {data : ByteArray}
    {f : Failure} (h : gather strip16 gathered type data = .error f) : f.Expected := by
  cases f with
  | defect t =>
    unfold gather at h
    cases gathered <;> simp [throw, throwThe, MonadExceptOf.throw, bind, Except.bind, pure, Except.pure] at h
    · -- a header that does not parse is a problem of the stream
      cases hp : Header.parse data with
      | error p => simp [hp, Except.mapError] at h
      | ok hd =>
        simp [hp, Except.mapError] at h
        split_ifs at h
        cases h
    · split_ifs at h
      · cases h
      · cases h
      · exact takeAncillary_expected h
  | _ => trivial

theorem judgeData_expected {strip16 : Bool} {gathered : Option Gathered} {type : ChunkType} {len : Nat}
    {data : ByteArray} {stored : UInt32} {f : Failure}
    (h : judgeData strip16 gathered type len data stored = .error f) : f.Expected := by
  unfold judgeData at h
  dsimp only at h
  split_ifs at h
  · cases h
    trivial
  · cases h
    trivial
  · cases hg : gather strip16 gathered type data with
    | ok g =>
      rw [hg] at h
      cases h
    | error f' =>
      rw [hg] at h
      cases h
      exact gather_expected hg

section Open

variable {ρ : Type} [ByteReader ρ]

theorem fails_reserve (gathered : Option Gathered) (type : ChunkType) (len : Nat) :
    Fails (reserve gathered type len : DecodeM ρ _) Failure.Expected := by
  unfold reserve
  cases gathered with
  | none => exact fails_pure _
  | some g =>
    refine fails_ite _ (fun _ => ?_) fun _ => fails_pure _
    rcases growBuffer len (len + 1) g.chunkBuffer g.budget with readable | ⟨capacity, budget⟩
    · exact fails_bind (fails_takeExact readable) fun _ => fails_throw trivial
    · exact fails_pure _

theorem fails_openStream_loop (strip16 : Bool) : ∀ fuel (gathered : Option Gathered),
    Fails (openStream.loop strip16 gathered fuel : DecodeM ρ _) Failure.Expected
  | 0, _ => fails_throw trivial
  | fuel + 1, gathered => by
    rw [openStream.loop]
    refine fails_bind fails_readChunkHead fun head => ?_
    obtain ⟨len, type⟩ := head
    refine fails_bind (fails_orThrow fun _ => judgeHead_expected) fun verdict => ?_
    cases verdict with
    | some opened => exact fails_pure _
    | none =>
      refine fails_bind (fails_reserve gathered type len) fun gathered => ?_
      refine fails_bind (fails_takeExact len) fun data => fails_bind fails_readCrc fun stored => ?_
      exact fails_bind (fails_orThrow fun _ => judgeData_expected) fun next =>
        fails_openStream_loop strip16 fuel next

/-- Opening a stream fails only by reading it or by a problem of the stream, never by a defect. -/
theorem openStream_expected (strip16 : Bool) :
    Fails (openStream strip16 : DecodeM ρ _) Failure.Expected := by
  unfold openStream
  refine fails_bind (fails_takeExact 8) fun sig => ?_
  exact fails_ite _ (fun _ => fails_throw_bind trivial) fun _ => fails_openStream_loop strip16 _ none

end Open

section Frame

variable {info : Info} {places : Array RowPlace}

theorem advance_ofPalette {data : ByteArray} {final : Nat} {f : Failure} :
    ∀ fuel rows, Rows.advance info places data final fuel rows = .error f → f.OfPalette info
  | 0, rows, h => by
    cases h
  | fuel + 1, rows, h => by
    rw [Rows.advance] at h
    dsimp only at h
    repeat' split at h
    all_goals try first
      | exact advance_ofPalette fuel _ h
      | (cases h; done)
      | (cases h; trivial)
    -- what is left is the defect of the palette, met at the first row of an indexed image
    cases h
    exact ⟨(‹rows.done.isEmpty = true ∧ _›).2, _, ‹info.palette = some _›, ‹paletteDefect _ = some _›⟩

theorem decompress_ofPalette {f : Failure} :
    ∀ fuel st, Reading.decompress info places fuel st = .error f → f.OfPalette info
  | 0, st, h => by
    cases h
  | fuel + 1, st, h => by
    rw [Reading.decompress] at h
    dsimp only at h
    repeat' split at h
    all_goals first
      | exact decompress_ofPalette fuel _ h
      | (cases h; done)
      | (cases h; trivial)
      | (cases h; exact advance_ofPalette _ _ ‹_›)

theorem finish_ofPalette {st : Reading} {f : Failure} (h : st.finish info places = .error f) :
    f.OfPalette info := by
  unfold Reading.finish at h
  dsimp only at h
  repeat' split at h
  all_goals first
    | (cases h; done)
    | (cases h; trivial)
    | (cases h; exact advance_ofPalette _ _ ‹_›)

theorem cutShort_ofPalette (st : Reading) : (st.cutShort info places).OfPalette info := by
  unfold Reading.cutShort
  dsimp only
  split
  · exact advance_ofPalette _ _ ‹_›
  · trivial

theorem dataCrcHolds_expected {data stored : ByteArray} {f : Failure} (h : dataCrcHolds data stored = .error f) :
    f.Expected := by
  unfold dataCrcHolds at h
  dsimp only at h
  split at h
  · cases h
    trivial
  · cases h

variable {ρ : Type} [ByteReader ρ]

theorem fails_takeInRun (st : Reading) (n : Nat) :
    Fails (takeInRun info places st n : DecodeM ρ _) (Failure.OfPalette info) := by
  unfold takeInRun
  refine fails_bind ((fails_takeUpTo n).mono fun f hf => hf.ofPalette info) fun ⟨bytes, ended⟩ => ?_
  exact fails_ite _ (fun _ => fails_throw_bind (cutShort_ofPalette st)) fun _ => fails_pure _

theorem fails_readPieces : ∀ fuel left chunk st,
    Fails (readPieces info places left chunk st fuel : DecodeM ρ _) (Failure.OfPalette info)
  | 0, _, _, _ => fails_pure _
  | fuel + 1, left, chunk, st => by
    rw [readPieces]
    refine fails_bind ((fails_takePiece? left).mono fun f hf => hf.ofPalette info) fun piece => ?_
    cases piece with
    | none => exact fails_throw (cutShort_ofPalette st)
    | some piece =>
      refine fails_bind (fails_orThrow fun _ => decompress_ofPalette _ _) fun step => ?_
      obtain ⟨st', complete⟩ := step
      exact fails_ite _ (fun _ => fails_pure _) fun _ => fails_readPieces fuel _ _ _

theorem fails_skipRun : ∀ fuel data, Fails (skipRun data fuel : DecodeM ρ _) Failure.Expected
  | 0, _ => fails_pure _
  | fuel + 1, data => by
    rw [skipRun]
    refine fails_bind (fails_takeExact 4) fun crc => fails_bind (fails_orThrow fun _ => dataCrcHolds_expected)
      fun _ => ?_
    refine fails_bind fails_readChunkHead fun head => ?_
    obtain ⟨len, type⟩ := head
    exact fails_ite _ (fun _ => fails_bind (fails_takeExact len) fun next => fails_skipRun fuel next)
      fun _ => fails_pure _

theorem fails_readRun : ∀ fuel left st,
    Fails (readRun info places left st fuel : DecodeM ρ _) (Failure.OfPalette info)
  | 0, _, _ => fails_throw trivial
  | fuel + 1, left, st => by
    rw [readRun]
    refine fails_bind (fails_readPieces (left + 1) left _ st) fun pieces => ?_
    obtain ⟨st', chunk, complete⟩ := pieces
    have hexpected : ∀ f : Failure, f.Expected → f.OfPalette info := fun f hf => hf.ofPalette info
    refine fails_ite _ (fun _ => ?_) fun _ => ?_
    · exact fails_bind ((fails_takeExact _).mono hexpected) fun rest =>
        fails_bind ((fails_skipRun _ _).mono hexpected) fun _ => fails_pure _
    refine fails_bind (fails_takeInRun st' 4) fun crc => ?_
    refine fails_bind (fails_orThrow fun f hf => hexpected f (dataCrcHolds_expected hf)) fun _ => ?_
    refine fails_bind (fails_takeInRun st' 4) fun _ => fails_bind (fails_takeInRun st' 4) fun _ => ?_
    exact fails_ite _ (fun _ => fails_readRun fuel _ st')
      fun _ => fails_bind (fails_orThrow fun _ => finish_ofPalette) fun _ => fails_pure _

/-- Reading the pixel data fails by reading, by a problem of the stream, or by the defect of the
palette of an indexed image. -/
theorem readFrame_ofPalette (o : Opened) (strip16 : Bool) :
    Fails (readFrame o strip16 : DecodeM ρ _) (Failure.OfPalette o.info) := by
  unfold readFrame
  exact fails_bind (fails_readRun _ _ _) fun _ => fails_pure _

end Frame

section Library

variable {ρ α β : Type}

/-- A decoding step run as a step of the library fails with the step's own failures. -/
lemma step_map_fails {m : DecodeM ρ α} {E : Failure → Prop} (hm : Fails m E) (pending : ByteArray)
    (g : α × ByteArray → β) {r r' : ρ} {j j' : Array Record} {f : PngFailure}
    (h : ((step m pending >>= fun x => pure (x.map g)).run r).run j = ((.error f, r'), j')) :
    ∃ f₀, E f₀ ∧ f = f₀.toLibrary := by
  rcases hr : ((m.run).run ⟨r, pending⟩).run j with ⟨⟨result, b⟩, k⟩
  rw [run_bind_pure, run_step hr] at h
  cases result with
  | ok a => cases h
  | error f₀ =>
    cases h
    exact ⟨f₀, hm _ j f₀ b k hr, rfl⟩

/-- The frame comes with rows of the session's output line size. -/
lemma library_nextFrame_lineSize [ByteReader ρ] (session : library.Session) (n : Nat) {r r' : ρ}
    {j j' : Array Record} {x : ByteArray × Nat}
    (h : ((library.nextFrame session n).run r).run j = ((.ok x, r'), j')) : x.2 = session.lineSize := by
  rcases hr : (((readFrame session.opened session.strip16 : DecodeM ρ _).run).run
    ⟨r, session.pending⟩).run j with ⟨⟨result, b⟩, k⟩
  simp only [library] at h
  rw [run_bind_pure, run_step hr] at h
  cases result with
  | ok a => cases h; rfl
  | error f₀ => cases h

/-- An output line holds the width's pixels of the output colour type and bit depth. -/
lemma Session.lineSize_eq (session : library.Session) :
    session.lineSize = library.width session *
      ((library.outputColor session).1.samples * ((library.outputColor session).2.bits / 8)) := rfl

end Library

end Png

section Codec

variable {σ α β : Type} {E : Error → Prop}

lemma fails_ofExcept {r : Except Error α} (h : ∀ e, r = .error e → E e) :
    Fails (CodecM.ofExcept r : CodecM σ α) E := by
  cases r with
  | ok a => exact fails_pure a
  | error e => exact fails_throw (h e rfl)

lemma fails_liftM_bind {m : Logged α} {f : α → CodecM σ β} (hf : ∀ a, Fails (f a) E) :
    Fails ((liftM m : CodecM σ α) >>= f) E := by
  intro s j e s' j' h
  exact hf _ s _ e s' j' h

/-- A step of the stream fails only by reading. -/
lemma fails_ofRead {m : ReadM σ α} : Fails (CodecM.ofRead m) fun e => ∃ io, e = .io io := by
  intro s j e s' j' h
  rcases hr : ((m.run).run s).run j with ⟨⟨r, t⟩, k⟩
  have hrun : (CodecM.ofRead m).runOn s j = ((r.mapError Error.io, t), k) := CodecM.runOn_ofRead hr
  simp only [CodecM.runOn] at hrun
  rw [hrun] at h
  cases r with
  | ok a => cases h
  | error io =>
    cases h
    exact ⟨io, rfl⟩

/-- Bringing an image into a layout fails as its conversion does. -/
lemma fails_intoSpec {img : Image} {spec : ColorSpec} (h : ∀ e, img.convert spec = .error e → E e) :
    Fails (intoSpec img spec : CodecM σ Image) E := by
  intro s j e s' j' hr
  have hrun := runOn_intoSpec img spec s j
  simp only [CodecM.runOn] at hrun
  rw [hr] at hrun
  exact h e (congrArg Prod.fst hrun).symm

end Codec

/-! ### The library's own checks never abort -/

section Checks

variable {e : Error} {t : String}

theorem Limits.checkImage_ne_aborted {l : Limits} {w h : Nat} {spec : ColorSpec}
    (he : l.checkImage w h spec = .error e) : e ≠ .aborted t := by
  unfold Limits.checkImage at he
  split at he
  · cases he
  · cases he
    simp

theorem Image.checkedSize_ne_aborted {w h : Nat} {spec : ColorSpec} (he : checkedSize w h spec = .error e) :
    e ≠ .aborted t := by
  unfold checkedSize at he
  split at he
  · cases he
  · cases he
    simp

theorem Image.ofBytes_ne_aborted {w h : Nat} {spec : ColorSpec} {b : ByteArray}
    (he : Image.ofBytes w h spec b = .error e) : e ≠ .aborted t := by
  unfold Image.ofBytes at he
  split at he
  · cases he
    exact checkedSize_ne_aborted ‹_›
  · split_ifs at he
    cases he
    simp

theorem Image.convert_ne_aborted {img : Image} {spec : ColorSpec} (he : img.convert spec = .error e) :
    e ≠ .aborted t := by
  unfold Image.convert at he
  split_ifs at he
  · cases he
    simp
  · split at he
    · next hsize =>
      cases he
      unfold tryWithSpec at hsize
      cases hc : checkedSize img.width img.height spec with
      | ok n => rw [hc] at hsize; cases hsize
      | error e' => rw [hc] at hsize; cases hsize; exact checkedSize_ne_aborted hc
    · split at he <;> cases he

end Checks

namespace PngCodec

/-- An error that aborts only with the defect of some palette. -/
def AbortsOnPalette (e : Error) : Prop := ∀ t, e = .aborted t → ∃ p, Png.paletteDefect p = some t

lemma abortsOnPalette_of_ne {e : Error} (h : ∀ t, e ≠ .aborted t) : AbortsOnPalette e :=
  fun t ht => absurd ht (h t)

lemma abortsOnPalette_failureError {info : Png.Info} {f : Png.Failure} (hf : f.OfPalette info) :
    AbortsOnPalette (failureError f.toLibrary) := by
  intro t ht
  cases f with
  | defect text =>
    obtain ⟨-, p, -, hp⟩ := hf
    cases ht
    exact ⟨p, hp⟩
  | io e => cases ht
  | problem p => cases ht

theorem channelDepth_ne_aborted {d : Png.BitDepth} {e : Error} {t : String}
    (he : channelDepth d = .error e) : e ≠ .aborted t := by
  cases d <;> simp [channelDepth] at he <;> simp [← he]

theorem targetLayout_ne_aborted {c : Png.ColorType} {F : PixelFormat} {e : Error} {t : String}
    (he : targetLayout c F = .error e) : e ≠ .aborted t := by
  cases c <;> cases F <;> simp [targetLayout] at he <;> simp [← he]

lemma channelDepth_bytes {d : Png.BitDepth} {c : ChannelDepth} (h : channelDepth d = .ok c) :
    c.bytes = d.bits / 8 := by
  cases d <;> simp [channelDepth] at h <;> subst h <;> rfl

lemma failureError_ne_aborted {f : Png.Failure} (hf : f.Expected) (t : String) :
    failureError f.toLibrary ≠ .aborted t := by
  cases f <;> simp_all [failureError, Png.Failure.toLibrary, Png.Failure.Expected]

variable {ρ : Type}

/-- A call into the library fails with the codec's form of the library's failures. -/
lemma fails_call {α : Type} {m : StateT ρ Logged (Except PngFailure α)} {E : PngFailure → Prop}
    (hm : ∀ r j f r' j', (m.run r).run j = ((.error f, r'), j') → E f) :
    Fails (call m : CodecM ρ α) fun e => ∃ f, E f ∧ e = failureError f := by
  intro s j e s' j' h
  rcases hr : (m.run s).run j with ⟨⟨x, t⟩, k⟩
  rw [run_call hr] at h
  cases x with
  | ok a => cases h
  | error f =>
    cases h
    exact ⟨f, hm s j f _ _ hr, rfl⟩

/-- A call into the library returns what the library returns. -/
lemma returns_call {α : Type} {m : StateT ρ Logged (Except PngFailure α)} {P : α → Prop}
    (hm : ∀ r j a r' j', (m.run r).run j = ((.ok a, r'), j') → P a) :
    Returns (call m : CodecM ρ α) P := by
  intro s j a s' j' h
  rcases hr : (m.run s).run j with ⟨⟨x, t⟩, k⟩
  rw [run_call hr] at h
  cases x with
  | ok b =>
    cases h
    exact hm s j a _ _ hr
  | error f => cases h

/-- A call into a decoding step of this project's library fails with the codec's form of the
step's own failures. -/
lemma fails_call_step {α β : Type} {m : Png.DecodeM ρ α} {E : Png.Failure → Prop} (hm : Fails m E)
    (pending : ByteArray) (g : α × ByteArray → β) :
    Fails (call (Png.step m pending >>= fun x => pure (x.map g)) : CodecM ρ β)
      fun e => ∃ f, E f ∧ e = failureError f.toLibrary :=
  (fails_call fun _ _ _ _ _ h => Png.step_map_fails hm pending g h).mono
    fun _ ⟨_, ⟨f₀, hf₀, hf⟩, he⟩ => ⟨f₀, hf₀, hf ▸ he⟩

/-- Planning a frame never aborts, whatever the library. -/
lemma fails_plan (png : PngLibrary) (limits : Limits) (spec : ColorSpec) (session : png.Session) :
    Fails (plan png limits spec session : CodecM ρ FramePlan) fun e => ∀ t, e ≠ .aborted t := by
  unfold plan
  rcases png.outputColor session with ⟨color, bitDepth⟩
  dsimp only
  refine fails_bind (fails_ofExcept fun _ he _ => channelDepth_ne_aborted he) fun depth => ?_
  refine fails_bind (fails_ofExcept fun _ he _ => targetLayout_ne_aborted he) fun ⟨format, channelMap⟩ => ?_
  dsimp only
  refine fails_liftM_bind fun _ => ?_
  refine fails_bind (fails_ofExcept fun _ he _ => Limits.checkImage_ne_aborted he) fun _ => ?_
  refine fails_ite _ (fun _ => fails_throw_bind fun _ => by simp) fun _ => ?_
  cases png.outputBufferSize session with
  | none => exact fails_throw fun _ => by simp
  | some bufferSize => exact fails_pure _

/-- Adopting a frame whose rows hold the decoded pixels never aborts. -/
lemma fails_adopt {width height : Nat} {p : FramePlan} {spec : ColorSpec} {frame : ByteArray}
    {lineSize : Nat} (hline : width * (p.color.samples * p.decoded.depth.bytes) ≤ lineSize) :
    Fails (adopt width height p spec frame lineSize : CodecM ρ Image) fun e => ∀ t, e ≠ .aborted t := by
  unfold adopt
  dsimp only
  refine fails_ite _ (fun _ => fails_throw_bind fun _ => by simp) fun _ => ?_
  refine fails_ite _ (fun h => absurd h.1 (Nat.not_lt.2 hline)) fun _ => ?_
  exact fails_bind (fails_ofExcept fun _ he _ => Image.ofBytes_ne_aborted he)
    fun img => fails_intoSpec fun _ he _ => Image.convert_ne_aborted he

variable [ByteReader ρ]

/-- Reading a PNG stream with this project's decoder aborts only with the defect of a palette:
its output rows always hold the decoded pixels. -/
theorem readImage_abortsOnPalette (limits : Limits) (spec : ColorSpec) :
    Fails (readImage Png.library limits spec : CodecM ρ Image) AbortsOnPalette := by
  unfold readImage
  have hinfo : Fails (call (Png.library.readInfo (spec.depth = .bits8)) : CodecM ρ _) _ :=
    fails_call_step (Png.openStream_expected (spec.depth = .bits8)) _ _
  refine fails_bind (hinfo.mono fun e ⟨f, hf, he⟩ =>
    he ▸ abortsOnPalette_of_ne (failureError_ne_aborted hf)) fun session => ?_
  refine fails_bind_of_returns (returns_plan Png.library limits spec session)
    ((fails_plan Png.library limits spec session).mono fun _ he => abortsOnPalette_of_ne he)
    fun p ⟨hcolor, hdepth, _⟩ => ?_
  have hframe : Fails (call (Png.library.nextFrame session p.bufferSize) : CodecM ρ _) _ :=
    fails_call_step (Png.readFrame_ofPalette session.opened session.strip16) _ _
  refine fails_bind_of_returns (returns_call fun _ _ _ _ _ h => Png.library_nextFrame_lineSize session _ h)
    (hframe.mono fun e ⟨f, hf, he⟩ => he ▸ abortsOnPalette_failureError hf)
    fun ⟨frame, lineSize⟩ hline => ?_
  have hrow : Png.library.width session * (p.color.samples * p.decoded.depth.bytes) = lineSize := by
    rw [hcolor, channelDepth_bytes hdepth, ← Png.Session.lineSize_eq]
    exact hline.symm
  exact (fails_adopt hrow.le).mono fun _ he => abortsOnPalette_of_ne he

/-- Decoding a PNG stream with this project's decoder never aborts but with the defect of a
palette whose length is not a multiple of three: the text names the length of its last, short
entry. -/
theorem decode_aborts_only_on_palette (limits : Limits) (spec : ColorSpec) :
    Fails (decode Png.library limits spec : CodecM ρ Image) fun e => ∀ t, e = .aborted t →
      ∃ p : ByteArray, p.size % 3 ≠ 0 ∧
        t = "range end index 3 out of range for slice of length " ++ toString (p.size % 3) := by
  have hdecode : Fails (decode Png.library limits spec : CodecM ρ Image) AbortsOnPalette := by
    unfold decode
    -- a short signature is caught, a wrong one refused, and the seek back fails only by reading
    refine fails_bind (fails_tryCatch fun _ => fails_pure _) fun sig => ?_
    refine fails_ite _ (fun _ => fails_throw_bind (abortsOnPalette_of_ne fun _ => by simp)) fun _ => ?_
    refine fails_bind (fails_ofRead.mono fun e ⟨io, he⟩ => he ▸ abortsOnPalette_of_ne fun _ => by simp)
      fun _ => ?_
    exact readImage_abortsOnPalette limits spec
  refine hdecode.mono fun e he t ht => ?_
  obtain ⟨p, hp⟩ := he t ht
  exact ⟨p, Png.paletteDefect_eq_some_iff.1 hp⟩

end PngCodec

end Pixmap
