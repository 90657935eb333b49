import Pixmap.Proofs.PngReading
import Pixmap.Proofs.StoredStream

/-! Reading PNG data through a block buffer over bytes in memory: every step that takes bytes takes
them off the front of `Buffered.rest`, however the blocks fall. -/
namespace Pixmap

theorem ByteArray.extract_of_size_le {a : ByteArray} {i j : Nat} (h : a.size ≤ j) :
    a.extract i j = a.extract i a.size := by
  apply ByteArray.ext
  rw [ByteArray.data_extract, ByteArray.data_extract, Array.extract_eq_extract_right, ByteArray.size_data]
  omega

theorem ByteArray.extract_append_rest {a b : ByteArray} {n : Nat} (h : n ≤ a.size) :
    (a ++ b).extract n (a ++ b).size = a.extract n a.size ++ b := by
  rw [ByteArray.extract_append, Nat.sub_eq_zero_of_le h, ByteArray.size_append, Nat.add_sub_cancel_left,
    ByteArray.extract_zero_size, ByteArray.extract_of_size_le (by omega)]

namespace Png

/-- The bytes a buffered reader over memory still holds: those drawn but not used, then those
after the cursor. -/
def Buffered.rest (b : Buffered MemoryReader) : ByteArray :=
  b.pending ++ b.reader.data.extract b.reader.pos b.reader.data.size

namespace Buffered

variable {b : Buffered MemoryReader} {j : Array Record}

theorem take_rest (r : MemoryReader) (n : Nat) :
    (r.take n).1 ++ (r.take n).2.data.extract (r.take n).2.pos (r.take n).2.data.size =
      r.data.extract r.pos r.data.size := by
  simp only [MemoryReader.take, MemoryReader.remaining, ByteArray.extract_append_extract]
  by_cases h : r.pos ≤ r.data.size
  · rw [Nat.min_eq_left (by omega), Nat.max_eq_right (by omega)]
  · rw [Nat.min_eq_left (by omega), ByteArray.extract_eq_empty_iff.2 (by omega),
      ByteArray.extract_eq_empty_iff.2 (by omega)]

/-- A draw while bytes are left after the cursor takes some of them into the pending bytes and
leaves the rest as it was. -/
theorem run_draw_of_lt (h : b.pending.size < b.rest.size) :
    ∃ b', (((draw : DecodeM MemoryReader Bool).run).run b).run j = ((.ok true, b'), j) ∧
      b'.rest = b.rest ∧ b.pending.size < b'.pending.size := by
  have hread : (((ByteReader.read blockSize : ReadM MemoryReader ByteArray).run).run b.reader).run j =
      ((.ok (b.reader.take blockSize).1, (b.reader.take blockSize).2), j) := rfl
  have hleft : b.reader.pos < b.reader.data.size := by
    simp only [rest, ByteArray.size_append, ByteArray.size_extract] at h
    omega
  have hbytes : 0 < (b.reader.take blockSize).1.size := by
    simp only [MemoryReader.take, MemoryReader.remaining, ByteArray.size_extract, blockSize]
    omega
  have hne : (!(b.reader.take blockSize).1.isEmpty) = true := by
    simp only [ByteArray.isEmpty, Bool.not_eq_eq_eq_not, Bool.not_true, beq_eq_false_iff_ne]
    omega
  refine ⟨_, (run_draw_ok hread).trans (by rw [hne]), ?_, ?_⟩
  · simp only [rest, ByteArray.append_assoc, take_rest]
  · simp only [ByteArray.size_append]
    omega

/-- Taking bytes that the buffered reader still holds hands out the first of them, drawing
blocks while too few are pending. -/
theorem run_takeUpTo_go (n : Nat) : ∀ fuel (b : Buffered MemoryReader) (j : Array Record),
    n ≤ b.rest.size → n - b.pending.size < fuel →
    ∃ b', (((takeUpTo.go n fuel : DecodeM MemoryReader _).run).run b).run j =
      ((.ok (b.rest.extract 0 n, false), b'), j) ∧ b'.rest = b.rest.extract n b.rest.size := by
  intro fuel
  induction fuel with
  | zero => intro b j _ h; omega
  | succ fuel ih =>
    intro b j hn hfuel
    rw [takeUpTo.go, run_get_bind]
    by_cases hp : b.pending.size ≥ n
    · have hfirst : b.rest.extract 0 n = b.pending.extract 0 n := ByteArray.extract_append_of_le hp
      rw [if_pos hp, run_set_bind, hfirst]
      refine ⟨_, rfl, ?_⟩
      simp only [rest]
      rw [ByteArray.extract_append_rest hp]
    · rw [if_neg hp]
      obtain ⟨b', hdraw, hrest, hgrow⟩ := run_draw_of_lt (j := j) (show b.pending.size < b.rest.size by omega)
      rw [run_bind_ok hdraw]
      rw [← hrest] at hn ⊢
      exact ih b' j hn (by omega)

theorem rest_extract_append {A B : ByteArray} {k : Nat} (hk : k ≤ A.size) :
    (A ++ B).extract k (A ++ B).size = A.extract k A.size ++ B :=
  ByteArray.extract_append_rest hk

theorem run_takeUpTo {A B : ByteArray} (h : b.rest = A ++ B) :
    ∃ b', (((takeUpTo A.size : DecodeM MemoryReader _).run).run b).run j = ((.ok (A, false), b'), j) ∧
      b'.rest = B := by
  obtain ⟨b', hrun, hrest⟩ := run_takeUpTo_go A.size (A.size + 1) b j
    (by rw [h, ByteArray.size_append]; omega) (by omega)
  rw [h, ByteArray.extract_append_eq_left rfl] at hrun
  rw [h, rest_extract_append le_rfl, ByteArray.extract_same, ByteArray.empty_append] at hrest
  exact ⟨b', hrun, hrest⟩

theorem run_takeExact {A B : ByteArray} (h : b.rest = A ++ B) :
    ∃ b', (((takeExact A.size : DecodeM MemoryReader _).run).run b).run j = ((.ok A, b'), j) ∧
      b'.rest = B := by
  obtain ⟨b', hrun, hrest⟩ := run_takeUpTo (j := j) h
  refine ⟨b', ?_, hrest⟩
  rw [takeExact, run_bind_ok hrun]
  rfl

theorem run_takePiece? {A B : ByteArray} {n : Nat} (h : b.rest = A ++ B) (hn : 0 < n) (hA : n ≤ A.size) :
    ∃ k b', 0 < k ∧ k ≤ n ∧
      (((takePiece? n : DecodeM MemoryReader _).run).run b).run j = ((.ok (some (A.extract 0 k)), b'), j) ∧
      b'.rest = A.extract k A.size ++ B := by
  have hpiece : ∀ b₁ : Buffered MemoryReader, b₁.rest = A ++ B → 0 < b₁.pending.size →
      0 < min n b₁.pending.size ∧
      b₁.pending.extract 0 (min n b₁.pending.size) = A.extract 0 (min n b₁.pending.size) ∧
      (⟨b₁.reader, b₁.pending.extract (min n b₁.pending.size) b₁.pending.size⟩ : Buffered MemoryReader).rest =
        A.extract (min n b₁.pending.size) A.size ++ B := by
    intro b₁ hb₁ hpos
    have hk : min n b₁.pending.size ≤ b₁.pending.size := Nat.min_le_right _ _
    refine ⟨by omega, ?_, ?_⟩
    · rw [← ByteArray.extract_append_of_le (b := b₁.reader.data.extract b₁.reader.pos b₁.reader.data.size) hk]
      change b₁.rest.extract 0 _ = _
      rw [hb₁, ByteArray.extract_append_of_le (by omega)]
    · simp only [rest]
      rw [← rest_extract_append hk]
      change b₁.rest.extract _ b₁.rest.size = _
      rw [hb₁, rest_extract_append (by omega)]
  unfold takePiece?
  rw [run_get_bind]
  dsimp only
  by_cases he : b.pending.isEmpty = true
  · have hsize : b.pending.size < b.rest.size := by
      have : b.pending.size = 0 := by simpa [ByteArray.isEmpty] using he
      rw [h, ByteArray.size_append]
      omega
    obtain ⟨b₁, hdraw, hrest, hgrow⟩ := run_draw_of_lt (j := j) hsize
    rw [if_pos he, run_bind_ok hdraw]
    obtain ⟨hk, hv, hr⟩ := hpiece b₁ (hrest.trans h) (by omega)
    refine ⟨_, _, hk, Nat.min_le_left _ _, ?_, hr⟩
    rw [← hv]
    rfl
  · have hpos : 0 < b.pending.size := by
      simp only [ByteArray.isEmpty, beq_iff_eq] at he
      omega
    obtain ⟨hk, hv, hr⟩ := hpiece b h hpos
    rw [if_neg he]
    refine ⟨_, _, hk, Nat.min_le_left _ _, ?_, hr⟩
    rw [← hv]
    rfl

theorem run_readChunkHead {L T B : ByteArray} (h : b.rest = L ++ T ++ B) (hL : L.size = 4) (hT : T.size = 4) :
    ∃ b', (((readChunkHead : DecodeM MemoryReader _).run).run b).run j =
      ((.ok (Bytes.beValue L.data.toList, ⟨T.data.toList⟩), b'), j) ∧ b'.rest = B := by
  obtain ⟨b₁, h₁, hr₁⟩ := run_takeExact (j := j) (h.trans (ByteArray.append_assoc))
  obtain ⟨b₂, h₂, hr₂⟩ := run_takeExact (j := j) hr₁
  rw [hL] at h₁
  rw [hT] at h₂
  refine ⟨b₂, ?_, hr₂⟩
  rw [readChunkHead, run_bind_ok h₁, run_bind_ok h₂]
  rfl

theorem run_readCrc {C B : ByteArray} (h : b.rest = C ++ B) (hC : C.size = 4) :
    ∃ b', (((readCrc : DecodeM MemoryReader _).run).run b).run j =
      ((.ok (Bytes.beValue C.data.toList).toUInt32, b'), j) ∧ b'.rest = B := by
  obtain ⟨b₁, h₁, hr₁⟩ := run_takeExact (j := j) h
  rw [hC] at h₁
  refine ⟨b₁, ?_, hr₁⟩
  rw [readCrc, run_bind_ok h₁]
  rfl

theorem run_takeInRun {A B : ByteArray} (h : b.rest = A ++ B) (info : Info) (places : Array RowPlace)
    (st : Reading) :
    ∃ b', (((takeInRun info places st A.size : DecodeM MemoryReader _).run).run b).run j = ((.ok A, b'), j) ∧
      b'.rest = B := by
  obtain ⟨b', hrun, hrest⟩ := run_takeUpTo (j := j) h
  refine ⟨b', ?_, hrest⟩
  rw [takeInRun, run_bind_ok hrun]
  rfl

end Buffered

end Png

end Pixmap
