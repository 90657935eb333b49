import Pixmap.Proofs.Runs

/-! Writers as their callers drive them; a writer over a fixed buffer truncates exactly
(`MemoryWriter.truncates_exactly`). -/
namespace Pixmap

/-- A call on a writer: a write of some bytes, or a flush. -/
inductive WriterCall where
  | write (bytes : ByteArray)
  | flush

namespace WriterCall

variable {ω : Type} [ByteWriter ω]

/-- One call on a writer: a write's count, and the writer after it. The library's writers hold
nothing back, so a flush answers nothing and changes nothing. -/
def step : WriterCall → ω → Option Nat × ω
  | write bytes, w => (some (ByteWriter.write w bytes).1, (ByteWriter.write w bytes).2)
  | flush, w => (none, w)

/-- Calls one after another: the answers in order and the writer at the end. -/
def runAll : List WriterCall → ω → List (Option Nat) × ω
  | [], w => ([], w)
  | c :: cs, w => ((c.step w).1 :: (runAll cs (c.step w).2).1, (runAll cs (c.step w).2).2)

/-- The bytes the writes of some calls hand over, in order. -/
def payload : List WriterCall → ByteArray
  | [] => ByteArray.empty
  | write bytes :: cs => bytes ++ payload cs
  | flush :: cs => payload cs

@[simp] theorem payload_nil : payload [] = ByteArray.empty := rfl

@[simp] theorem payload_write (bytes : ByteArray) (cs : List WriterCall) :
    payload (write bytes :: cs) = bytes ++ payload cs := rfl

@[simp] theorem payload_flush (cs : List WriterCall) : payload (flush :: cs) = payload cs := rfl

theorem payload_append (cs ds : List WriterCall) : payload (cs ++ ds) = payload cs ++ payload ds := by
  induction cs with
  | nil => simp
  | cons c cs ih =>
    cases c with
    | write bytes => simp [ih, ByteArray.append_assoc]
    | flush => simp [ih]

theorem runAll_append (cs ds : List WriterCall) (w : ω) :
    (runAll (cs ++ ds) w).2 = (runAll ds (runAll cs w).2).2 := by
  induction cs generalizing w with
  | nil => rfl
  | cons c cs ih => exact ih _

end WriterCall

namespace MemoryWriter

open WriterCall

/-- The bytes of an extract, as a list: a drop, then a take. -/
theorem toList_extract (a : ByteArray) (i j : Nat) :
    (a.extract i j).data.toList = (a.data.toList.drop i).take (j - i) := by
  rw [ByteArray.data_extract, Array.toList_extract, List.extract_eq_take_drop]

/-- A writer over a buffer `B` that has taken the bytes `P`: its cursor stands at the capacity or
at `|P|`, whichever is less, and the buffer holds that much of `P` followed by `B`'s own bytes
from there on. -/
def Holds (B P : ByteArray) (w : MemoryWriter) : Prop :=
  w.pos = min B.size P.size ∧ w.buf.data.toList = P.data.toList.take w.pos ++ B.data.toList.drop w.pos

theorem put_eq (buf bytes : ByteArray) (p : Nat) :
    (⟨buf, p⟩ : MemoryWriter).put bytes =
      (min bytes.size (buf.size - p),
        ⟨buf.extract 0 p ++ bytes.extract 0 (min bytes.size (buf.size - p)) ++
          buf.extract (p + min bytes.size (buf.size - p)) buf.size, p + min bytes.size (buf.size - p)⟩) :=
  rfl

/-- A write takes what fits after the cursor, and the writer then holds the bytes taken so far
followed by these. -/
theorem holds_put {B P : ByteArray} {w : MemoryWriter} (hw : Holds B P w) (bytes : ByteArray) :
    (w.put bytes).1 = min bytes.size (B.size - w.pos) ∧ Holds B (P ++ bytes) (w.put bytes).2 := by
  obtain ⟨buf, p⟩ := w
  obtain ⟨hp, hbuf⟩ := hw
  dsimp only at hp hbuf
  have hsize : buf.size = B.size := by
    rw [← ByteArray.size_data, ← Array.length_toList, hbuf]
    simp only [List.length_append, List.length_take, List.length_drop, Array.length_toList, ByteArray.size_data]
    omega
  rw [put_eq, hsize]
  refine ⟨rfl, by simp only [ByteArray.size_append]; omega, ?_⟩
  dsimp only
  simp only [ByteArray.data_append, Array.toList_append, toList_extract, hbuf, Nat.sub_zero, List.drop_zero]
  have hL : P.data.toList.length = P.size := by simp
  have hM : B.data.toList.length = B.size := by simp
  have hX : bytes.data.toList.length = bytes.size := by simp
  generalize P.data.toList = L at *
  generalize B.data.toList = M at *
  generalize bytes.data.toList = X at *
  rcases Nat.le_total P.size B.size with hle | hge
  · -- room was left: all of `P` is in the buffer
    have hp' : p = L.length := by omega
    subst hp'
    rw [List.take_length, List.take_left' rfl, List.drop_length_add_append, List.drop_drop,
      List.take_of_length_le (l := List.drop _ M) (by simp only [List.length_drop]; omega), List.take_length_add_append,
      List.append_assoc]
  · -- the buffer is full: the write takes nothing
    have hfull : B.size - p = 0 := by omega
    have hpL : (List.take p L).length = p := by simp only [List.length_take]; omega
    rw [hfull, Nat.min_zero, Nat.add_zero, hfull, List.take_zero, List.take_zero, List.append_nil, List.append_nil,
      List.take_left' hpL, List.take_append_of_le_length (by omega), List.drop_eq_nil_of_le (by omega),
      List.append_nil]

theorem holds_step {B P : ByteArray} {w : MemoryWriter} (hw : Holds B P w) (c : WriterCall) :
    Holds B (P ++ payload [c]) (c.step w).2 := by
  cases c with
  | write bytes =>
    rw [payload_write, payload_nil, ByteArray.append_empty]
    exact (holds_put hw bytes).2
  | flush =>
    rw [payload_flush, payload_nil, ByteArray.append_empty]
    exact hw

/-- A fresh writer over `B` has taken nothing. -/
theorem holds_start (B : ByteArray) : Holds B ByteArray.empty ⟨B, 0⟩ :=
  ⟨by simp, by simp⟩

/-- From the start, a writer over `B` holds everything its calls wrote. -/
theorem holds_runAll (B : ByteArray) (calls : List WriterCall) :
    Holds B (payload calls) (runAll calls (⟨B, 0⟩ : MemoryWriter)).2 := by
  induction calls using List.reverseRecOn with
  | nil => exact holds_start B
  | append_singleton calls c ih =>
    rw [runAll_append, payload_append]
    exact holds_step ih c

theorem Holds.size_buf {B P : ByteArray} {w : MemoryWriter} (hw : Holds B P w) : w.buf.size = B.size := by
  rw [← ByteArray.size_data, ← Array.length_toList, hw.2]
  simp only [List.length_append, List.length_take, List.length_drop, Array.length_toList, ByteArray.size_data]
  have := hw.1
  omega

/-- What a writer over a buffer `B` of capacity `c` that was handed the bytes `P` looks like, if
it truncates exactly: its cursor stands at `min c |P|`; the bytes written are that many of `P`;
the buffer keeps its capacity and its own bytes from the cursor on; and a write of any bytes
takes as many as fit in the room left. -/
structure Truncating (B P : ByteArray) (w : MemoryWriter) : Prop where
  pos : w.pos = min B.size P.size
  written : w.written = P.extract 0 w.pos
  size : w.buf.size = B.size
  rest : w.buf.extract w.pos B.size = B.extract w.pos B.size
  write : ∀ bytes : ByteArray, ((WriterCall.write bytes).step w).1 = some (min bytes.size (B.size - w.pos))

theorem Holds.truncating {B P : ByteArray} {w : MemoryWriter} (hw : Holds B P w) : Truncating B P w := by
  obtain ⟨hp, hbuf⟩ := hw
  have hlen : (P.data.toList.take w.pos).length = w.pos := by simp only [List.length_take]; simp; omega
  refine ⟨hp, ?_, Holds.size_buf ⟨hp, hbuf⟩, ?_, fun bytes => congrArg some (holds_put ⟨hp, hbuf⟩ bytes).1⟩
  · apply ByteArray.ext
    rw [← Array.toList_inj, written, toList_extract, toList_extract, hbuf, List.drop_zero, List.drop_zero, Nat.sub_zero,
      List.take_left' hlen]
  · apply ByteArray.ext
    rw [← Array.toList_inj, toList_extract, toList_extract, hbuf, List.drop_left' hlen]

/-- A writer over a fixed buffer truncates exactly: from the start, after any writes and flushes,
it is as `Truncating` says of all the bytes they handed over. So once the buffer is full, every
write takes nothing. -/
theorem truncates_exactly (B : ByteArray) (calls : List WriterCall) :
    Truncating B (payload calls) (runAll calls (⟨B, 0⟩ : MemoryWriter)).2 :=
  (holds_runAll B calls).truncating

end MemoryWriter

end Pixmap
