import Pixmap.Proofs.Reachable
import Pixmap.Proofs.Conversion

/-! Exact runs of codec computations, walked bind by bind, over readers in memory and growing
buffers. -/
namespace Pixmap

section Stack

variable {ε σ α β : Type} {s s' : σ} {j j' : Array Record}

/-! Runs of the library's computations, `((m.run).run s).run j` for a computation `m` that may
fail with `ε`, over a state `σ`, recording into the journal `j`. -/

@[simp] theorem run_pure (a : α) :
    (((pure a : ExceptT ε (StateT σ Logged) α).run).run s).run j = ((.ok a, s), j) := rfl

@[simp] theorem run_throw (e : ε) :
    (((throw e : ExceptT ε (StateT σ Logged) α).run).run s).run j = ((.error e, s), j) := rfl

theorem run_bind_ok {m : ExceptT ε (StateT σ Logged) α} {f : α → ExceptT ε (StateT σ Logged) β} {a : α}
    (h : ((m.run).run s).run j = ((.ok a, s'), j')) :
    (((m >>= f).run).run s).run j = (((f a).run).run s').run j' := by
  simp only [ExceptT.run_bind, StateT.run_bind]
  rw [h]
  rfl

theorem run_bind_error {m : ExceptT ε (StateT σ Logged) α} {f : α → ExceptT ε (StateT σ Logged) β}
    {e : ε} (h : ((m.run).run s).run j = ((.error e, s'), j')) :
    (((m >>= f).run).run s).run j = ((.error e, s'), j') := by
  simp only [ExceptT.run_bind, StateT.run_bind]
  rw [h]
  rfl

theorem run_tryCatch_ok {m : ExceptT ε (StateT σ Logged) α} {h : ε → ExceptT ε (StateT σ Logged) α} {a : α}
    (hm : ((m.run).run s).run j = ((.ok a, s'), j')) :
    (((tryCatch m h).run).run s).run j = ((.ok a, s'), j') := by
  simp only [ExceptT.run_tryCatch, StateT.run_bind]
  rw [hm]
  rfl

theorem run_tryCatch_error {m : ExceptT ε (StateT σ Logged) α} {h : ε → ExceptT ε (StateT σ Logged) α} {e : ε}
    (hm : ((m.run).run s).run j = ((.error e, s'), j')) :
    (((tryCatch m h).run).run s).run j = (((h e).run).run s').run j' := by
  simp only [ExceptT.run_tryCatch, StateT.run_bind]
  rw [hm]
  rfl

theorem run_get_bind (f : σ → ExceptT ε (StateT σ Logged) β) :
    (((get >>= f).run).run s).run j = (((f s).run).run s).run j := rfl

theorem run_getThe_bind (f : Array Record → ExceptT ε (StateT σ Logged) β) :
    (((getThe (Array Record) >>= f).run).run s).run j = (((f j).run).run s).run j := rfl

theorem run_set_bind (t : σ) (f : PUnit → ExceptT ε (StateT σ Logged) β) :
    (((set t >>= f).run).run s).run j = (((f ⟨⟩).run).run t).run j := rfl

theorem run_modify_bind (g : σ → σ) (f : PUnit → ExceptT ε (StateT σ Logged) β) :
    (((modify g >>= f).run).run s).run j = (((f ⟨⟩).run).run (g s)).run j := rfl

end Stack

namespace CodecM

variable {σ α β : Type} {s s' : σ} {j j' : Array Record}

@[simp] theorem runOn_pure (a : α) : (pure a : CodecM σ α).runOn s j = ((.ok a, s), j) := rfl

@[simp] theorem runOn_throw (e : Error) : (throw e : CodecM σ α).runOn s j = ((.error e, s), j) := rfl

theorem runOn_bind_ok {m : CodecM σ α} {f : α → CodecM σ β} {a : α}
    (h : m.runOn s j = ((.ok a, s'), j')) : (m >>= f).runOn s j = (f a).runOn s' j' :=
  run_bind_ok h

theorem runOn_bind_error {m : CodecM σ α} {f : α → CodecM σ β} {e : Error}
    (h : m.runOn s j = ((.error e, s'), j')) : (m >>= f).runOn s j = ((.error e, s'), j') :=
  run_bind_error h

/-- A stream step runs as itself, its failure turned into an I/O error. -/
theorem runOn_ofRead {m : ReadM σ α} {r : Except IoError α} (h : ((m.run).run s).run j = ((r, s'), j')) :
    (ofRead m).runOn s j = ((r.mapError Error.io, s'), j') := by
  simp only [runOn, ofRead, ExceptT.run_adapt, StateT.run_map]
  rw [h]
  rfl

/-- A step of the state underneath runs as itself, and cannot fail. -/
theorem run_liftM {m : StateT σ Logged α} {x : α} (h : (m.run s).run j = ((x, s'), j')) :
    (((liftM m : CodecM σ α).run).run s).run j = ((.ok x, s'), j') := by
  simp only [liftM, monadLift, MonadLift.monadLift, ExceptT.lift, ExceptT.run_mk, StateT.run_map]
  rw [h]
  rfl

end CodecM

/-- A call into the PNG library returns what the library returned, its failure turned into the
codec's error. -/
theorem PngCodec.run_call {σ α : Type} {m : StateT σ Logged (Except PngFailure α)} {s s' : σ}
    {j j' : Array Record} {x : Except PngFailure α} (h : (m.run s).run j = ((x, s'), j')) :
    (((PngCodec.call m).run).run s).run j = ((x.mapError PngCodec.failureError, s'), j') := by
  unfold PngCodec.call
  rw [run_bind_ok (CodecM.run_liftM h)]
  cases x <;> rfl

/-- Bringing an image into a layout leaves the stream alone and returns the conversion. -/
theorem runOn_intoSpec {σ : Type} (img : Image) (spec : ColorSpec) (s : σ) (j : Array Record) :
    ((intoSpec img spec : CodecM σ Image).runOn s j).1 = (img.convert spec, s) := by
  unfold intoSpec
  split
  · next h => rw [CodecM.runOn_pure, ← h, Image.convert_self]
  · rw [runOn_liftM_bind, Image.convertLogged_run, runOn_ofExcept]

namespace MemoryReader

theorem take_eq (d : ByteArray) (p k : Nat) :
    (⟨d, p⟩ : MemoryReader).take k =
      (d.extract p (p + min k (d.size - p)), ⟨d, p + min k (d.size - p)⟩) :=
  rfl

theorem runOn_read (r : MemoryReader) (n : Nat) (j : Array Record) :
    (CodecM.ofRead (ByteReader.read n) : CodecM MemoryReader ByteArray).runOn r j =
      ((.ok (r.take n).1, (r.take n).2), j) :=
  rfl

theorem size_extract_of_le {d : ByteArray} {p k : Nat} (h : k ≤ d.size - p) :
    (d.extract p (p + k)).size = k := by
  simp only [ByteArray.size_extract]
  omega

/-- One turn of the fill loop: a read that hands out nothing ends it as a truncation. -/
theorem readFull_go_succ {n fuel : Nat} {acc bytes : ByteArray} {r r' : MemoryReader}
    (j : Array Record) (h : acc.size < n) (ht : r.take (n - acc.size) = (bytes, r')) :
    (readFull.go n acc (fuel + 1) : CodecM MemoryReader ByteArray).runOn r j =
      if bytes.isEmpty then
        ((.error (.invalidInput ("truncated input: expected " ++ toString n ++ " bytes, got " ++
          toString acc.size)), r'), j)
      else (readFull.go n (acc ++ bytes) fuel).runOn r' j := by
  rw [readFull.go, if_neg (by omega), CodecM.runOn_bind_ok (runOn_read r _ j), ht]
  split <;> rfl

/-- Filling `n` bytes from memory at `p`: the next `n` bytes when that many are left, and
otherwise a truncation naming the bytes that were left, with the cursor at the end. -/
theorem readFull_runOn (d : ByteArray) (p n : Nat) (j : Array Record) :
    (readFull n : CodecM MemoryReader ByteArray).runOn ⟨d, p⟩ j =
      if n ≤ d.size - p then ((.ok (d.extract p (p + n)), ⟨d, p + n⟩), j)
      else ((.error (.invalidInput ("truncated input: expected " ++ toString n ++ " bytes, got " ++
        toString (d.size - p))), ⟨d, p + (d.size - p)⟩), j) := by
  unfold readFull
  rcases Nat.eq_zero_or_pos n with rfl | hn
  · simp [readFull.go]
  obtain ⟨m, rfl⟩ : ∃ m, n = m + 1 := ⟨n - 1, by omega⟩
  by_cases hk : m + 1 ≤ d.size - p
  · -- one read hands out all the bytes asked for
    have ht : (⟨d, p⟩ : MemoryReader).take (m + 1 - ByteArray.empty.size) =
        (d.extract p (p + (m + 1)), ⟨d, p + (m + 1)⟩) := by
      rw [take_eq, ByteArray.size_empty, Nat.sub_zero, Nat.min_eq_left hk]
    rw [readFull_go_succ j (by simp) ht, if_neg (by simp [ByteArray.isEmpty, size_extract_of_le hk]),
      if_pos hk, readFull.go, if_pos (by simp [size_extract_of_le hk])]
    simp
  have ht : (⟨d, p⟩ : MemoryReader).take (m + 1 - ByteArray.empty.size) =
      (d.extract p (p + (d.size - p)), ⟨d, p + (d.size - p)⟩) := by
    rw [take_eq, ByteArray.size_empty, Nat.sub_zero, Nat.min_eq_right (by omega)]
  rw [readFull_go_succ j (by simp) ht, if_neg hk]
  have hsize := size_extract_of_le (Nat.le_refl (d.size - p))
  by_cases h0 : d.size - p = 0
  · rw [if_pos (by simp [ByteArray.isEmpty, h0]), h0, ByteArray.size_empty]
  have ht' : (⟨d, p + (d.size - p)⟩ : MemoryReader).take
      (m + 1 - (ByteArray.empty ++ d.extract p (p + (d.size - p))).size) =
      (d.extract (p + (d.size - p)) (p + (d.size - p)), ⟨d, p + (d.size - p)⟩) := by
    have hend : d.size - (p + (d.size - p)) = 0 := by omega
    rw [take_eq, Nat.min_eq_right (by omega), hend, Nat.add_zero]
  rw [if_neg (by simp [ByteArray.isEmpty, hsize, h0]), readFull_go_succ j (by simp [hsize]; omega) ht']
  simp [ByteArray.isEmpty, hsize]

end MemoryReader

namespace GrowingWriter

/-- A growing buffer takes the whole rest in one write. -/
theorem writeAll_go (g : GrowingWriter) (rest : ByteArray) (failure : IoError) :
    writeAll.go failure g rest = (.ok (), ⟨g.bytes ++ rest⟩) := by
  by_cases h : rest.size = 0
  · have hrest : rest = ByteArray.empty := ByteArray.ext (Array.eq_empty_of_size_eq_zero h)
    rw [writeAll_go_done h, hrest, ByteArray.append_empty]
  have hw : FallibleWriter.tryWrite g rest = (.ok rest.size, (⟨g.bytes ++ rest⟩ : GrowingWriter)) := rfl
  rw [writeAll_go_took (by omega) hw (by omega), writeAll_go_done (by simp)]

theorem writeFull_runOn (g : GrowingWriter) (bytes : ByteArray) (j : Array Record) :
    (writeFull bytes : CodecM GrowingWriter Unit).runOn g j = ((.ok (), ⟨g.bytes ++ bytes⟩), j) := by
  simp only [writeFull, writeOut, writeAll, writeAll_go]
  rfl

end GrowingWriter

end Pixmap
