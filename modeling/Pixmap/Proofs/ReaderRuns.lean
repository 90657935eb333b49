import Pixmap.Proofs.Runs

/-! Runs of the two readers over plain bytes. A read from memory hands out the bytes at the
cursor; a stream reader that has not latched hands out the same bytes and latches once a read
comes up short (`StreamReader.read_plain`), and then hands out nothing (`StreamReader.read_latched`). -/
namespace Pixmap

theorem Cursor.read_plain (d : ByteArray) (q m : Nat) :
    ({ data := d, position := q } : Cursor).read m =
      (.ok (d.extract q (q + min m (d.size - q))), { data := d, position := q + min m (d.size - q) }) :=
  rfl

namespace StreamReader

theorem ofCursor_plain (d : ByteArray) (k : Nat) :
    StreamReader.ofCursor { data := d, position := k } = ⟨{ data := d, position := k }, k, false⟩ :=
  rfl

theorem fill_of_le {need fuel : Nat} {acc : ByteArray} (r : StreamReader) (j : Array Record)
    (h : need ≤ acc.size) : (((fill need acc (fuel + 1)).run).run r).run j = ((.ok acc, r), j) := by
  rw [fill, if_pos h]
  rfl

/-- One turn of the fill loop over plain bytes reads what is left up to what is needed; a read
that hands out nothing latches the reader. -/
theorem fill_succ_plain (d : ByteArray) (q p : Nat) (l : Bool) {need fuel : Nat} {acc : ByteArray}
    (j : Array Record) (hacc : acc.size < need) :
    (((fill need acc (fuel + 1)).run).run ⟨{ data := d, position := q }, p, l⟩).run j =
      if min (need - acc.size) (d.size - q) = 0 then
        ((.ok acc, ⟨{ data := d, position := q }, p, true⟩),
          j.push ⟨.trace, .io, "end of stream at offset " ++ toString (p + acc.size)⟩)
      else (((fill need (acc ++ d.extract q (q + min (need - acc.size) (d.size - q))) fuel).run).run
        ⟨{ data := d, position := q + min (need - acc.size) (d.size - q) }, p, l⟩).run j := by
  have hsize := MemoryReader.size_extract_of_le (Nat.min_le_right (need - acc.size) (d.size - q))
  rw [fill, if_neg (by omega), run_get_bind]
  simp only [Cursor.read_plain]
  rw [run_set_bind]
  by_cases h0 : min (need - acc.size) (d.size - q) = 0
  · have hempty : (d.extract q (q + min (need - acc.size) (d.size - q))).isEmpty = true := by
      simp [ByteArray.isEmpty, h0]
    simp only [hempty, if_true]
    rw [if_pos h0, h0, Nat.add_zero]
    rfl
  have hne : (d.extract q (q + min (need - acc.size) (d.size - q))).isEmpty = false := by
    simp [ByteArray.isEmpty, hsize, h0]
  simp only [hne, Bool.false_eq_true, if_false]
  rw [if_neg h0]

/-- The fill loop over plain bytes takes what is left up to what is needed, and latches the
reader when it comes up short. -/
theorem fill_plain (d : ByteArray) (q p : Nat) (l : Bool) {need fuel : Nat} {acc : ByteArray}
    (j : Array Record) (hacc : acc.size < need) (hfuel : 2 ≤ fuel) (hq : q ≤ d.size) :
    ∃ j', (((fill need acc fuel).run).run ⟨{ data := d, position := q }, p, l⟩).run j =
      ((.ok (acc ++ d.extract q (q + min (need - acc.size) (d.size - q))),
        ⟨{ data := d, position := q + min (need - acc.size) (d.size - q) }, p,
          l || decide (min (need - acc.size) (d.size - q) < need - acc.size)⟩), j') := by
  obtain ⟨f, rfl⟩ : ∃ f, fuel = f + 1 + 1 := ⟨fuel - 2, by omega⟩
  have hsize := MemoryReader.size_extract_of_le (Nat.min_le_right (need - acc.size) (d.size - q))
  rw [fill_succ_plain d q p l j hacc]
  by_cases h0 : min (need - acc.size) (d.size - q) = 0
  · -- nothing is left: the reader latches at once
    have hl : (l || decide (0 < need - acc.size)) = true := by simp; omega
    rw [if_pos h0, h0, Nat.add_zero, ByteArray.extract_same, ByteArray.append_empty, hl]
    exact ⟨_, rfl⟩
  rw [if_neg h0]
  by_cases hfull : min (need - acc.size) (d.size - q) = need - acc.size
  · -- the read hands out all that is needed
    have hl : (l || decide (min (need - acc.size) (d.size - q) < need - acc.size)) = l := by
      simp [hfull]
    rw [fill_of_le _ j (by simp only [ByteArray.size_append, hsize]; omega), hl]
    exact ⟨j, rfl⟩
  have hl : (l || decide (min (need - acc.size) (d.size - q) < need - acc.size)) = true := by
    simp only [Bool.or_eq_true, decide_eq_true_eq]
    omega
  rw [fill_succ_plain d _ p l j (by simp only [ByteArray.size_append, hsize]; omega),
    if_pos (by simp only [ByteArray.size_append, hsize]; omega), hl]
  exact ⟨_, rfl⟩

theorem read_latched (r : StreamReader) (n : Nat) (j : Array Record) (hl : r.latched = true) :
    (((ByteReader.read n : ReadM StreamReader ByteArray).run).run r).run j =
      ((.ok ByteArray.empty, r), j) := by
  obtain ⟨inner, pos, l⟩ := r
  cases hl
  rfl

/-- A read of a reader that has not latched, over plain bytes with its cursor at `p`: the bytes
left up to `n`, latching when fewer than `n` were left. -/
theorem read_plain (d : ByteArray) (p n : Nat) (j : Array Record) (hp : p ≤ d.size) :
    ∃ j', (((ByteReader.read n : ReadM StreamReader ByteArray).run).run
        ⟨{ data := d, position := p }, p, false⟩).run j =
      ((.ok (d.extract p (p + min n (d.size - p))),
        ⟨{ data := d, position := p + min n (d.size - p) }, p + min n (d.size - p),
          decide (min n (d.size - p) < n)⟩), j') := by
  dsimp only [ByteReader.read]
  rw [run_get_bind, if_neg Bool.false_ne_true]
  rcases Nat.eq_zero_or_pos n with rfl | hn
  · -- nothing asked, nothing read
    refine ⟨j, ?_⟩
    simp only [Nat.zero_min, Nat.add_zero, ByteArray.extract_same, Nat.lt_irrefl, decide_false]
    rfl
  obtain ⟨j', hfill⟩ := @fill_plain d p p false n (n + 2) ByteArray.empty j (by simp; omega)
    (by omega) hp
  refine ⟨j', ?_⟩
  rw [run_bind_ok hfill, run_modify_bind]
  simp only [ByteArray.size_empty, Nat.sub_zero, ByteArray.empty_append, Bool.false_or]
  rw [MemoryReader.size_extract_of_le (Nat.min_le_right _ _)]
  rfl

/-- Filling `n` bytes from a stream that holds them takes them in one read, without latching. -/
theorem readFull_of_le (d : ByteArray) (p n : Nat) (j : Array Record)
    (hn : n ≤ d.size - p) :
    ∃ j', (readFull n : CodecM StreamReader ByteArray).runOn ⟨{ data := d, position := p }, p, false⟩ j =
      ((.ok (d.extract p (p + n)), ⟨{ data := d, position := p + n }, p + n, false⟩), j') := by
  unfold readFull
  rcases Nat.eq_zero_or_pos n with rfl | hpos
  · refine ⟨j, ?_⟩
    rw [readFull.go, if_pos (Nat.zero_le _), Nat.add_zero, ByteArray.extract_same]
    rfl
  obtain ⟨j', hread⟩ := StreamReader.read_plain d p (n - ByteArray.empty.size) j (by omega)
  have hmin : min (n - ByteArray.empty.size) (d.size - p) = n := by simp; omega
  have hfull : decide (n < n - ByteArray.empty.size) = false := by simp
  rw [hmin, hfull] at hread
  refine ⟨j', ?_⟩
  have hsize := MemoryReader.size_extract_of_le hn
  obtain ⟨m, rfl⟩ : ∃ m, n = m + 1 := ⟨n - 1, by omega⟩
  rw [readFull.go, if_neg (by simp), CodecM.runOn_bind_ok (CodecM.runOn_ofRead hread)]
  dsimp only
  rw [if_neg (by simp [ByteArray.isEmpty, hsize]), readFull.go, if_pos (by simp [hsize]),
    ByteArray.empty_append]
  rfl

theorem run_seek (d : ByteArray) (q p : Nat) (l : Bool) (o : Int) (j : Array Record) :
    ∃ j', (((ByteReader.seek o : ReadM StreamReader Nat).run).run
        ⟨{ data := d, position := q }, p, l⟩).run j =
      ((.ok (moveCursor p o), ⟨{ data := d, position := moveCursor p o }, moveCursor p o, l⟩), j') :=
  ⟨_, rfl⟩

end StreamReader

namespace MemoryReader

theorem run_read (d : ByteArray) (q n : Nat) (j : Array Record) :
    (((ByteReader.read n : ReadM MemoryReader ByteArray).run).run ⟨d, q⟩).run j =
      ((.ok (d.extract q (q + min n (d.size - q))), ⟨d, q + min n (d.size - q)⟩), j) :=
  rfl

theorem run_seek (d : ByteArray) (q : Nat) (o : Int) (j : Array Record) :
    (((ByteReader.seek o : ReadM MemoryReader Nat).run).run ⟨d, q⟩).run j =
      ((.ok (min (moveCursor q o) d.size), ⟨d, min (moveCursor q o) d.size⟩), j) :=
  rfl

end MemoryReader

/-- Stepping back over the eight bytes of a signature. -/
theorem moveCursor_back_eight {p : Nat} (h : p ≤ wordMax) : moveCursor (p + 8) (-8) = p := by
  have hback : ((p + 8 : Nat) : Int) + -8 = (p : Int) := by omega
  rw [moveCursor, hback, Int.toNat_natCast, Nat.min_eq_left h]

theorem ByteArray.extract_extract_tail (d : ByteArray) {k q t : Nat} (h : k + q + t ≤ d.size) :
    (d.extract k d.size).extract q (q + t) = d.extract (k + q) (k + q + t) := by
  rw [ByteArray.extract_extract]
  congr 1
  omega

end Pixmap
