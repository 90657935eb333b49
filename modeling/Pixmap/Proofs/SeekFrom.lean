import Pixmap.Stream.Adapter
import Pixmap.Proofs.StreamLatch

/-! Seeking a reader as a general stream: from the start the target is translated into a signed
distance within a 64-bit word (`ByteReader.seekFrom_translates`). -/
namespace Pixmap

namespace ByteReader

variable {ρ : Type} [ByteReader ρ]

theorem seekFrom_current (n : Int) : seekFrom (ρ := ρ) (.current n) = ByteReader.seek n := rfl

theorem runOn_seekFrom_fromEnd (r : ρ) (j : Array Record) (o : Int) :
    (seekFrom (.fromEnd o)).runOn r j = ((.error ⟨.unsupported, "DataReader cannot seek from end"⟩, r), j) :=
  rfl

/-- A seek from the start is a seek by the signed distance from the cursor to the target, unless
that distance is beyond a signed 64-bit word either way; then it fails and changes nothing. -/
theorem runOn_seekFrom_start (r : ρ) (j : Array Record) (t : Nat) :
    (seekFrom (.start t)).runOn r j =
      if (maxOffset : Int) < |(t : Int) - tell r| then ((.error ⟨.invalidInput, "seek offset out of range"⟩, r), j)
      else (ByteReader.seek ((t : Int) - tell r)).runOn r j := by
  simp only [seekFrom, ReadM.runOn, run_get_bind]
  by_cases hge : t ≥ tell r
  · -- forward: the distance is `t - here` on both sides
    have hdist : ((t - tell r : Nat) : Int) = (t : Int) - tell r := by omega
    have habs : |(t : Int) - tell r| = ((t - tell r : Nat) : Int) := by rw [hdist]; exact abs_of_nonneg (by omega)
    rw [if_pos hge, habs, hdist]
    by_cases hfar : t - tell r > maxOffset
    · rw [if_pos hfar, if_pos (by exact_mod_cast hfar)]
      rfl
    · rw [if_neg hfar, if_neg (by exact_mod_cast hfar)]
  · -- backward: the distance is `here - t`, and the offset its negation
    have hdist : -((tell r - t : Nat) : Int) = (t : Int) - tell r := by omega
    have habs : |(t : Int) - tell r| = ((tell r - t : Nat) : Int) := by
      rw [← hdist, abs_neg]
      exact abs_of_nonneg (by omega)
    rw [if_neg hge, habs, hdist]
    by_cases hfar : tell r - t > maxOffset
    · rw [if_pos hfar, if_pos (by exact_mod_cast hfar)]
      rfl
    · rw [if_neg hfar, if_neg (by exact_mod_cast hfar)]

end ByteReader

@[simp] theorem MemoryReader.tell_eq (r : MemoryReader) : ByteReader.tell r = r.pos := rfl

@[simp] theorem StreamReader.tell_eq (r : StreamReader) : ByteReader.tell r = r.pos := rfl

/-- A move by the signed distance to a target lands on the target, saturated at `wordMax`. -/
theorem moveCursor_to (p t : Nat) : moveCursor p ((t : Int) - p) = min t wordMax := by
  simp [moveCursor]

/-- Over bytes in memory, a seek from the start within range lands on the target clamped to the
bytes. -/
theorem MemoryReader.runOn_seekFrom_start (d : ByteArray) (p t : Nat) (j : Array Record)
    (hd : d.size ≤ wordMax) (hnear : |(t : Int) - p| ≤ maxOffset) :
    (ByteReader.seekFrom (.start t)).runOn (⟨d, p⟩ : MemoryReader) j =
      ((.ok (min t d.size), ⟨d, min t d.size⟩), j) := by
  have hclamp : min (min t wordMax) d.size = min t d.size := by omega
  rw [ByteReader.runOn_seekFrom_start, MemoryReader.tell_eq, if_neg (not_lt.2 hnear)]
  rw [ReadM.runOn, MemoryReader.run_seek]
  simp only [moveCursor_to, hclamp]

/-- Over a stream, a seek from the start within range lands on the target, in the reader and in
the stream. -/
theorem StreamReader.runOn_seekFrom_start (c : Cursor) (p t : Nat) (l : Bool) (j : Array Record)
    (ht : t ≤ wordMax) (hnear : |(t : Int) - p| ≤ maxOffset) :
    ∃ j', (ByteReader.seekFrom (.start t)).runOn (⟨c, p, l⟩ : StreamReader) j =
      ((.ok t, ⟨{ c with position := t }, t, l⟩), j') := by
  rw [ByteReader.runOn_seekFrom_start, StreamReader.tell_eq, if_neg (not_lt.2 hnear)]
  obtain ⟨j', hj⟩ := StreamReader.seek_run c p l ((t : Int) - p) j
  rw [moveCursor_to, Nat.min_eq_left ht] at hj
  exact ⟨j', hj⟩

/-- Over bytes in memory that a signed 64-bit offset spans, with the cursor within them, a seek
from the start fails exactly when the target lies beyond a signed 64-bit word past the cursor. -/
theorem MemoryReader.seekFrom_start_fails_iff (d : ByteArray) (p t : Nat) (j : Array Record)
    (hp : p ≤ d.size) (hd : d.size ≤ maxOffset) :
    (∃ e, ((ByteReader.seekFrom (.start t)).runOn (⟨d, p⟩ : MemoryReader) j).1.1 = .error e) ↔
      maxOffset < t - p := by
  have hback : p - t ≤ maxOffset := by omega
  rw [ByteReader.runOn_seekFrom_start, MemoryReader.tell_eq]
  by_cases hfar : maxOffset < t - p
  · have habs : (maxOffset : Int) < |(t : Int) - p| := by
      rw [lt_abs]
      left
      omega
    simp only [if_pos habs]
    exact iff_of_true ⟨_, rfl⟩ hfar
  · have habs : ¬ (maxOffset : Int) < |(t : Int) - p| := by
      rw [lt_abs]
      omega
    simp only [if_neg habs, ReadM.runOn, MemoryReader.run_seek]
    exact iff_of_false (fun ⟨e, he⟩ => by cases he) hfar

/-- Seeking any reader as a general stream: from the cursor it is the reader's own seek; from
the end it fails as unsupported and changes nothing; from the start it fails as out of range and
changes nothing when the target lies beyond a signed 64-bit word from the cursor in either
direction, and is otherwise the reader's seek by the signed distance. Over bytes in memory that
lands on the target clamped to the bytes, and over a stream on the target; over bytes that a
signed 64-bit offset spans, with the cursor within them, it fails exactly when the target lies
beyond a signed 64-bit word past the cursor. -/
theorem ByteReader.seekFrom_translates :
    (∀ (ρ : Type) [ByteReader ρ] (n : Int), seekFrom (ρ := ρ) (.current n) = ByteReader.seek n) ∧
    (∀ (ρ : Type) [ByteReader ρ] (r : ρ) (j : Array Record) (o : Int),
      (seekFrom (.fromEnd o)).runOn r j = ((.error ⟨.unsupported, "DataReader cannot seek from end"⟩, r), j)) ∧
    (∀ (ρ : Type) [ByteReader ρ] (r : ρ) (j : Array Record) (t : Nat),
      (seekFrom (.start t)).runOn r j =
        if (maxOffset : Int) < |(t : Int) - tell r| then
          ((.error ⟨.invalidInput, "seek offset out of range"⟩, r), j)
        else (ByteReader.seek ((t : Int) - tell r)).runOn r j) ∧
    (∀ (d : ByteArray) (p t : Nat) (j : Array Record), d.size ≤ wordMax → |(t : Int) - p| ≤ maxOffset →
      (seekFrom (.start t)).runOn (⟨d, p⟩ : MemoryReader) j = ((.ok (min t d.size), ⟨d, min t d.size⟩), j)) ∧
    (∀ (c : Cursor) (p t : Nat) (l : Bool) (j : Array Record), t ≤ wordMax → |(t : Int) - p| ≤ maxOffset →
      ∃ j', (seekFrom (.start t)).runOn (⟨c, p, l⟩ : StreamReader) j =
        ((.ok t, ⟨{ c with position := t }, t, l⟩), j')) ∧
    (∀ (d : ByteArray) (p t : Nat) (j : Array Record), p ≤ d.size → d.size ≤ maxOffset →
      ((∃ e, ((seekFrom (.start t)).runOn (⟨d, p⟩ : MemoryReader) j).1.1 = .error e) ↔ maxOffset < t - p)) :=
  ⟨fun _ _ => seekFrom_current, fun _ _ => runOn_seekFrom_fromEnd, fun _ _ => runOn_seekFrom_start,
    fun d p t j hd hnear => MemoryReader.runOn_seekFrom_start d p t j hd hnear,
    fun c p t l j ht hnear => StreamReader.runOn_seekFrom_start c p t l j ht hnear,
    fun d p t j hp hd => MemoryReader.seekFrom_start_fails_iff d p t j hp hd⟩

/-- A stream reader at `2 ^ 63` seeks back to `1`, the farthest a signed offset reaches, and a
reader over five bytes, at the second, seeks to the fourth. -/
theorem ByteReader.seekFrom_translates_far :
    (⟨#[1, 2, 3, 4, 5]⟩ : ByteArray).size ≤ wordMax ∧ |((4 : Nat) : Int) - (1 : Nat)| ≤ maxOffset ∧
      (seekFrom (.start 4)).runOn (⟨⟨#[1, 2, 3, 4, 5]⟩, 1⟩ : MemoryReader) #[] =
        ((.ok (min 4 (⟨#[1, 2, 3, 4, 5]⟩ : ByteArray).size), ⟨⟨#[1, 2, 3, 4, 5]⟩, min 4 (⟨#[1, 2, 3, 4, 5]⟩ : ByteArray).size⟩), #[]) ∧
    1 ≤ wordMax ∧ |((1 : Nat) : Int) - (9223372036854775808 : Nat)| ≤ maxOffset ∧
      (∃ j', (seekFrom (.start 1)).runOn (⟨{ data := .empty }, 9223372036854775808, false⟩ : StreamReader) #[] =
        ((.ok 1, ⟨{ ({ data := .empty } : Cursor) with position := 1 }, 1, false⟩), j')) ∧
    1 ≤ (⟨#[1, 2, 3, 4, 5]⟩ : ByteArray).size ∧ (⟨#[1, 2, 3, 4, 5]⟩ : ByteArray).size ≤ maxOffset ∧
      ((∃ e, ((seekFrom (.start 4)).runOn (⟨⟨#[1, 2, 3, 4, 5]⟩, 1⟩ : MemoryReader) #[]).1.1 = .error e) ↔
        maxOffset < 4 - 1) := by
  have hfar : |((1 : Nat) : Int) - (9223372036854775808 : Nat)| ≤ maxOffset := by
    rw [abs_le]
    constructor <;> decide
  have hnear : |((4 : Nat) : Int) - (1 : Nat)| ≤ maxOffset := by
    rw [abs_le]
    constructor <;> decide
  exact ⟨by decide, hnear, seekFrom_translates.2.2.2.1 _ 1 4 #[] (by decide) hnear, by decide, hfar,
    seekFrom_translates.2.2.2.2.1 _ _ 1 false #[] (by decide) hfar, by decide, by decide,
    seekFrom_translates.2.2.2.2.2 _ 1 4 #[] (by decide) (by decide)⟩

end Pixmap
