import Pixmap.Proofs.ReaderCalls

/-! A reader over a stream latches where its bytes end or start to fail, and only clearing failures
lifts the latch (`StreamReader.latching`). -/
namespace Pixmap

namespace Cursor

/-- Where a stream's reads stop: the end of its bytes, or before it the position from which
its reads fail. -/
def stop (c : Cursor) : Nat :=
  match c.failFrom with
  | some f => min c.data.size f
  | none => c.data.size

/-- Whether a read attempted at `q` fails. -/
def failsAt (c : Cursor) (q : Nat) : Bool := c.failFrom.any (· ≤ q)

variable {c : Cursor}

@[simp] theorem stop_setPosition (q : Nat) (i : Option Nat) :
    ({ c with position := q, interruptAt := i } : Cursor).stop = c.stop := rfl

@[simp] theorem failsAt_setPosition (q q' : Nat) (i : Option Nat) :
    ({ c with position := q, interruptAt := i } : Cursor).failsAt q' = c.failsAt q' := rfl

/-- A plain stream stops at the end of its bytes. -/
theorem stop_of_failFrom_none (h : c.failFrom = none) : c.stop = c.data.size := by
  rw [stop, h]

/-- Reads never pass the failure point, so a stream failing at `q` stops there. -/
theorem stop_le_of_failsAt {q : Nat} (h : c.failsAt q = true) : c.stop ≤ q := by
  unfold failsAt at h
  unfold stop
  cases hf : c.failFrom with
  | none => simp [hf] at h
  | some f =>
    simp only [hf, Option.any_some, decide_eq_true_eq] at h
    dsimp only
    omega

theorem read_of_interrupt (h : c.interruptAt = some c.position) (m : Nat) :
    c.read m = (.error (.ofKind .interrupted), { c with interruptAt := none }) := by
  rw [read, if_pos h]

theorem read_of_failsAt (hi : c.interruptAt ≠ some c.position) (hf : c.failsAt c.position = true)
    (m : Nat) : c.read m = (.error ⟨.other, "unplugged"⟩, c) := by
  unfold failsAt at hf
  rw [read, if_neg hi]
  cases hff : c.failFrom with
  | none => simp [hff] at hf
  | some f =>
    simp only [hff, Option.any_some, decide_eq_true_eq] at hf
    simp only [ge_iff_le, if_pos hf]

/-- A read that neither is interrupted nor fails hands out the bytes at the cursor up to the
stop, as many as asked. -/
theorem read_of_not_failsAt (hi : c.interruptAt ≠ some c.position) (hf : c.failsAt c.position = false)
    (m : Nat) :
    c.read m = (.ok (c.data.extract c.position (c.position + min m (c.stop - c.position))),
      { c with position := c.position + min m (c.stop - c.position) }) := by
  unfold failsAt at hf
  rw [read, if_neg hi]
  cases hff : c.failFrom with
  | none => simp only [stop, hff]
  | some f =>
    simp only [hff, Option.any_some, decide_eq_false_iff_not, Nat.not_le] at hf
    have hk : min (min m (c.data.size - c.position)) (f - c.position) = min m (min c.data.size f - c.position) := by
      omega
    simp only [stop, hff, ge_iff_le, if_neg (Nat.not_le.2 hf), hk]

end Cursor

namespace StreamReader

variable {n fuel : Nat} {acc : ByteArray} {c : Cursor} {p : Nat} {l : Bool}

/-- One turn of the fill loop at an interruption retries the read, the interruption spent. -/
theorem fill_succ_of_interrupt (j : Array Record) (hacc : acc.size < n)
    (hi : c.interruptAt = some c.position) :
    (((fill n acc (fuel + 1)).run).run ⟨c, p, l⟩).run j =
      (((fill n acc fuel).run).run ⟨{ c with interruptAt := none }, p, l⟩).run j := by
  rw [fill, if_neg (by omega), run_get_bind]
  simp only [Cursor.read_of_interrupt hi]
  rw [run_set_bind]
  rfl

/-- One turn of the fill loop at a failing read latches the reader, and fails only when nothing
was filled before. -/
theorem fill_succ_of_failsAt (j : Array Record) (hacc : acc.size < n)
    (hi : c.interruptAt ≠ some c.position) (hf : c.failsAt c.position = true) :
    ∃ j', (((fill n acc (fuel + 1)).run).run ⟨c, p, l⟩).run j =
      ((if acc.size = 0 then .error ⟨.other, "unplugged"⟩ else .ok acc, ⟨c, p, true⟩), j') := by
  rw [fill, if_neg (by omega), run_get_bind]
  simp only [Cursor.read_of_failsAt hi hf]
  rw [run_set_bind]
  by_cases h0 : acc.size = 0
  · have hempty : acc.isEmpty = true := by simp [ByteArray.isEmpty, h0]
    simp only [if_pos h0]
    exact ⟨_, by simp [hempty]; rfl⟩
  · have hne : acc.isEmpty = false := by simp [ByteArray.isEmpty, h0]
    simp only [if_neg h0]
    exact ⟨_, by simp [hne]; rfl⟩

/-- One turn of the fill loop at a read that goes through: the bytes up to the stop, as many as
are still needed; none at all latch the reader. -/
theorem fill_succ_of_not_failsAt (j : Array Record) (hacc : acc.size < n)
    (hi : c.interruptAt ≠ some c.position) (hf : c.failsAt c.position = false) :
    (((fill n acc (fuel + 1)).run).run ⟨c, p, l⟩).run j =
      if min (n - acc.size) (c.stop - c.position) = 0 then
        ((.ok acc, ⟨c, p, true⟩), j.push ⟨.trace, .io, "end of stream at offset " ++ toString (p + acc.size)⟩)
      else (((fill n (acc ++ c.data.extract c.position (c.position + min (n - acc.size) (c.stop - c.position)))
          fuel).run).run ⟨{ c with position := c.position + min (n - acc.size) (c.stop - c.position) }, p, l⟩).run j := by
  have hsize := MemoryReader.size_extract_of_le (d := c.data) (p := c.position)
    (k := min (n - acc.size) (c.stop - c.position)) (by unfold Cursor.stop; split <;> omega)
  rw [fill, if_neg (by omega), run_get_bind]
  simp only [Cursor.read_of_not_failsAt hi hf]
  rw [run_set_bind]
  by_cases h0 : min (n - acc.size) (c.stop - c.position) = 0
  · have hempty : (c.data.extract c.position (c.position + min (n - acc.size) (c.stop - c.position))).isEmpty = true := by
      simp [ByteArray.isEmpty, h0]
    simp only [hempty, if_true, if_pos h0]
    rw [h0, Nat.add_zero]
    rfl
  · have hne : (c.data.extract c.position (c.position + min (n - acc.size) (c.stop - c.position))).isEmpty = false := by
      simp [ByteArray.isEmpty, hsize, h0]
    simp only [hne, Bool.false_eq_true, if_false, if_neg h0]

/-- The fill loop over a stream, given fuel for every byte still needed, for the read that finds
the stop and for one interruption: the bytes at the cursor up to the stop, as many as are still
needed, after those filled before. The reader latches when they are fewer than needed, and the
loop fails only when the read that found nothing failed and nothing was filled. The stream's
cursor moves past the bytes, an interruption on the way spent. -/
theorem fill_run (n : Nat) : ∀ (fuel : Nat) (acc : ByteArray) (c : Cursor) (p : Nat) (l : Bool)
    (j : Array Record), acc.size ≤ n →
    n - acc.size + 1 + (if c.interruptAt.isSome then 1 else 0) ≤ fuel →
    ∃ i j', (i = c.interruptAt ∨ i = none) ∧
      (((fill n acc fuel).run).run ⟨c, p, l⟩).run j =
        ((if min (n - acc.size) (c.stop - c.position) < n - acc.size ∧
              acc.size + min (n - acc.size) (c.stop - c.position) = 0 ∧
              c.failsAt (c.position + min (n - acc.size) (c.stop - c.position)) then
            .error ⟨.other, "unplugged"⟩
          else .ok (acc ++ c.data.extract c.position (c.position + min (n - acc.size) (c.stop - c.position))),
          ⟨{ c with position := c.position + min (n - acc.size) (c.stop - c.position), interruptAt := i }, p,
            l || decide (min (n - acc.size) (c.stop - c.position) < n - acc.size)⟩), j')
  | 0, _, _, _, _, _, _, hfuel => by omega
  | fuel + 1, acc, c, p, l, j, hacc, hfuel => by
    rcases Nat.lt_or_ge acc.size n with hlt | hge
    swap
    · -- nothing more is needed
      refine ⟨c.interruptAt, j, .inl rfl, ?_⟩
      rw [fill_of_le _ j hge, show n - acc.size = 0 by omega]
      simp
    by_cases hi : c.interruptAt = some c.position
    · -- an interruption is retried, spent
      have hfuel' : n - acc.size + 1 + (if ({ c with interruptAt := none } : Cursor).interruptAt.isSome then 1 else 0)
          ≤ fuel := by
        simp only [hi, Option.isSome_some, if_true] at hfuel
        simp only [Option.isSome_none, Bool.false_eq_true, if_false]
        omega
      obtain ⟨i, j', hi', h⟩ := fill_run n fuel acc { c with interruptAt := none } p l j hacc hfuel'
      refine ⟨i, j', .inr (hi'.elim id id), ?_⟩
      rw [fill_succ_of_interrupt j hlt hi, h]
      rfl
    cases hf : c.failsAt c.position with
    | true =>
      have hk : min (n - acc.size) (c.stop - c.position) = 0 := by
        have := Cursor.stop_le_of_failsAt hf
        omega
      obtain ⟨j', h⟩ := @fill_succ_of_failsAt n fuel acc c p l j hlt hi hf
      refine ⟨c.interruptAt, j', .inl rfl, ?_⟩
      rw [h, hk]
      by_cases h0 : acc.size = 0
      · simp [h0, hf, show 0 < n by omega]
      · simp [h0, show 0 < n - acc.size by omega]
    | false =>
      rw [fill_succ_of_not_failsAt j hlt hi hf]
      by_cases h0 : min (n - acc.size) (c.stop - c.position) = 0
      · -- the read finds the stop: the reader latches with what was filled
        refine ⟨c.interruptAt, j.push ⟨.trace, .io, "end of stream at offset " ++ toString (p + acc.size)⟩,
          .inl rfl, ?_⟩
        rw [if_pos h0, h0]
        simp [hf, show 0 < n - acc.size by omega]
      rw [if_neg h0]
      have hsize := MemoryReader.size_extract_of_le (d := c.data) (p := c.position)
        (k := min (n - acc.size) (c.stop - c.position)) (by unfold Cursor.stop; split <;> omega)
      have hfuel' : n - (acc ++ c.data.extract c.position (c.position + min (n - acc.size) (c.stop - c.position))).size + 1 +
          (if ({ c with position := c.position + min (n - acc.size) (c.stop - c.position) } : Cursor).interruptAt.isSome
            then 1 else 0) ≤ fuel := by
        rw [ByteArray.size_append, hsize]
        dsimp only
        split <;> split at hfuel <;> omega
      obtain ⟨i, j', hi', h⟩ := fill_run n fuel _ { c with position := c.position + min (n - acc.size) (c.stop - c.position) }
        p l j (by rw [ByteArray.size_append, hsize]; omega) hfuel'
      refine ⟨i, j', hi', ?_⟩
      rw [h]
      simp only [Cursor.stop_setPosition, Cursor.failsAt_setPosition, ByteArray.size_append, hsize]
      generalize hk : min (n - acc.size) (c.stop - c.position) = k at *
      have hk' : min (n - (acc.size + k)) (c.stop - (c.position + k)) = 0 := by omega
      have hne : acc.size + k ≠ 0 := by omega
      have hlatch : decide (0 < n - (acc.size + k)) = decide (k < n - acc.size) := by
        simp only [decide_eq_decide]
        omega
      rw [hk']
      simp only [Nat.add_zero, ByteArray.extract_same, ByteArray.append_empty, hne, false_and, and_false,
        if_false, hlatch]

/-- A read by a reader that has not latched fills from nothing: the bytes at the stream's cursor up
to the stop, as many as asked, and the reader's cursor moves past them; a short read latches,
and only a read that got nothing because the stream failed fails. -/
theorem read_run (n : Nat) (c : Cursor) (p : Nat) (j : Array Record) :
    ∃ i j', (i = c.interruptAt ∨ i = none) ∧
      (((ByteReader.read n : ReadM StreamReader ByteArray).run).run ⟨c, p, false⟩).run j =
        ((if 0 < n ∧ min n (c.stop - c.position) = 0 ∧ c.failsAt c.position then .error ⟨.other, "unplugged"⟩
          else .ok (c.data.extract c.position (c.position + min n (c.stop - c.position))),
          ⟨{ c with position := c.position + min n (c.stop - c.position), interruptAt := i },
            p + min n (c.stop - c.position), decide (min n (c.stop - c.position) < n)⟩), j') := by
  obtain ⟨i, j', hi, hfill⟩ := fill_run n (n + 2) ByteArray.empty c p false j (by simp)
    (by split <;> simp)
  simp only [ByteArray.size_empty, Nat.sub_zero, Nat.zero_add, ByteArray.empty_append, Bool.false_or] at hfill
  refine ⟨i, ?_⟩
  dsimp only [ByteReader.read]
  rw [run_get_bind, if_neg Bool.false_ne_true]
  by_cases hfail : 0 < n ∧ min n (c.stop - c.position) = 0 ∧ c.failsAt c.position = true
  · -- the stream failed before anything came: the failure, and the reader latched where it was
    have hk := hfail.2.1
    rw [if_pos ⟨by omega, hk, by rw [hk, Nat.add_zero]; exact hfail.2.2⟩] at hfill
    rw [if_pos hfail, run_bind_error hfill, hk, Nat.add_zero]
    exact ⟨j', hi, rfl⟩
  · have hok : ¬(min n (c.stop - c.position) < n ∧ min n (c.stop - c.position) = 0 ∧
        c.failsAt (c.position + min n (c.stop - c.position)) = true) := by
      rintro ⟨hlt, hk, hf⟩
      rw [hk, Nat.add_zero] at hf
      exact hfail ⟨by omega, hk, hf⟩
    have hsize := MemoryReader.size_extract_of_le (d := c.data) (p := c.position)
      (k := min n (c.stop - c.position)) (by unfold Cursor.stop; split <;> omega)
    rw [if_neg hok] at hfill
    rw [if_neg hfail, run_bind_ok hfill, run_modify_bind, hsize]
    exact ⟨j', hi, rfl⟩

theorem seek_run (c : Cursor) (p : Nat) (l : Bool) (o : Int) (j : Array Record) :
    ∃ j', (((ByteReader.seek o : ReadM StreamReader Nat).run).run ⟨c, p, l⟩).run j =
      ((.ok (moveCursor p o), ⟨{ c with position := moveCursor p o }, moveCursor p o, l⟩), j') :=
  ⟨_, rfl⟩

/-- A reader whose cursor is where the stream's is, over the stream `c₀` was: the same bytes and
the same failure point. -/
def OnStream (c₀ : Cursor) (r : StreamReader) : Prop :=
  r.inner.data = c₀.data ∧ r.inner.failFrom = c₀.failFrom ∧ r.inner.position = r.pos

theorem onStream_step (c₀ : Cursor) (call : ReaderCall) {r : StreamReader} (hr : OnStream c₀ r) :
    OnStream c₀ (call.step r).2 := by
  obtain ⟨c, p, l⟩ := r
  obtain ⟨hd, hf, hp⟩ := hr
  dsimp only at hd hf hp
  cases call with
  | read buf =>
    cases l with
    | true =>
      rw [ReaderCall.step_of_run ⟨#[], ReaderCall.run_read (read_latched _ buf.size #[] rfl)⟩]
      exact ⟨hd, hf, hp⟩
    | false =>
      obtain ⟨i, j', -, h⟩ := read_run buf.size c p #[]
      rw [ReaderCall.step_of_run ⟨j', ReaderCall.run_read h⟩]
      exact ⟨hd, hf, by dsimp only; omega⟩
  | seek o =>
    obtain ⟨j', h⟩ := seek_run c p l o #[]
    rw [ReaderCall.step_of_run ⟨j', ReaderCall.run_seek h⟩]
    exact ⟨hd, hf, rfl⟩
  | tell => exact ⟨hd, hf, hp⟩
  | clearErrors => exact ⟨hd, hf, hp⟩

/-- What a reader over a stream that started as `c₀` does from a state. Its cursor is the
stream's, over the same bytes and failure point. Unlatched, a read into a buffer of `b` bytes
gets the bytes at the cursor up to the stop, `k = min b (stop - p)` of them, puts them at the
front of the buffer and leaves the rest alone; the cursor moves by exactly `k`. The reader
latches exactly when `k < b`, that is when the read met the end of the bytes or a failure; it
fails, moving nothing, only when `k = 0` because the stream failed. Latched, a read hands out
nothing and changes nothing. A seek moves both cursors by the signed offset, saturating at the
ends of a 64-bit word, and keeps the latch; only clearing failures lifts it. -/
structure Latching (c₀ : Cursor) (r : StreamReader) : Prop where
  data : r.inner.data = c₀.data
  failFrom : r.inner.failFrom = c₀.failFrom
  position : r.inner.position = r.pos
  read : r.latched = false → ∀ buf : ByteArray, ∃ i : Option Nat,
    (ReaderCall.read buf).step r =
      (if 0 < buf.size ∧ min buf.size (c₀.stop - r.pos) = 0 ∧ c₀.failsAt r.pos then .error ⟨.other, "unplugged"⟩
        else .ok (.filled (min buf.size (c₀.stop - r.pos))
          (c₀.data.extract r.pos (r.pos + min buf.size (c₀.stop - r.pos)) ++
            buf.extract (min buf.size (c₀.stop - r.pos)) buf.size)),
        ⟨{ r.inner with position := r.pos + min buf.size (c₀.stop - r.pos), interruptAt := i },
          r.pos + min buf.size (c₀.stop - r.pos), decide (min buf.size (c₀.stop - r.pos) < buf.size)⟩)
  read_latched : r.latched = true → ∀ buf : ByteArray, (ReaderCall.read buf).step r = (.ok (.filled 0 buf), r)
  seek : ∀ o : Int, (ReaderCall.seek o).step r =
    (.ok (.position (moveCursor r.pos o)), ⟨{ r.inner with position := moveCursor r.pos o }, moveCursor r.pos o,
      r.latched⟩)
  tell : ReaderCall.tell.step r = (.ok (.position r.pos), r)
  clearErrors : ReaderCall.clearErrors.step r = (.ok .done, { r with latched := false })

/-- A reader over a stream, from any starting position of the stream and after any calls, latches
as `Latching` says. -/
theorem latching (c₀ : Cursor) (calls : List ReaderCall) :
    Latching c₀ (ReaderCall.runAll calls (ofCursor c₀)).2 := by
  obtain ⟨hd, hf, hp⟩ : OnStream c₀ (ReaderCall.runAll calls (ofCursor c₀)).2 :=
    ReaderCall.runAll_inv (onStream_step c₀) calls _ ⟨rfl, rfl, rfl⟩
  generalize (ReaderCall.runAll calls (ofCursor c₀)).2 = r at hd hf hp ⊢
  obtain ⟨c, p, l⟩ := r
  dsimp only at hd hf hp
  subst hp
  have hstop : c₀.stop = c.stop := by rw [Cursor.stop, Cursor.stop, hd, hf]
  have hfails : c₀.failsAt = c.failsAt := by
    unfold Cursor.failsAt
    rw [hf]
  refine ⟨hd, hf, rfl, ?_, ?_, fun o => ?_, rfl, rfl⟩
  · rintro rfl buf
    obtain ⟨i, j', -, h⟩ := read_run buf.size c c.position #[]
    refine ⟨i, ?_⟩
    rw [ReaderCall.step_of_run ⟨j', ReaderCall.run_read h⟩, hstop, hfails, ← hd]
    dsimp only
    split
    · rfl
    · have hsize := MemoryReader.size_extract_of_le (d := c.data) (p := c.position)
        (k := min buf.size (c.stop - c.position)) (by unfold Cursor.stop; split <;> omega)
      simp only [Except.map, hsize]
  · rintro rfl buf
    rw [ReaderCall.step_of_run ⟨#[], ReaderCall.run_read (read_latched _ buf.size #[] rfl)⟩]
    simp only [Except.map, ByteArray.size_empty, ByteArray.empty_append, ByteArray.extract_zero_size]
  · obtain ⟨j', h⟩ := seek_run c c.position l o #[]
    rw [ReaderCall.step_of_run ⟨j', ReaderCall.run_seek h⟩]
    rfl

end StreamReader

end Pixmap
