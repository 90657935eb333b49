import Pixmap.Proofs.ReaderRuns

/-! Readers as their callers drive them, call after call (`ReaderCall.runAll`); a reader over
memory is a clamped cursor (`MemoryReader.clamped_cursor`). -/
namespace Pixmap

/-- A call on a reader: a read into a buffer, a seek by a signed offset, a request for the
cursor, or the clearing of a remembered failure. -/
inductive ReaderCall where
  | read (buf : ByteArray)
  | seek (offset : Int)
  | tell
  | clearErrors

/-- The answer to a call: how many bytes a read put at the front of the buffer, with the
buffer after it; a cursor; or nothing. -/
inductive ReaderReply where
  | filled (count : Nat) (buf : ByteArray)
  | position (pos : Nat)
  | done

/-- The bytes an answer hands out: the front of a read's buffer, as far as its count. -/
def ReaderReply.bytes : Except IoError ReaderReply → List UInt8
  | .ok (.filled n buf) => (buf.extract 0 n).data.toList
  | _ => []

namespace ReaderCall

variable {ρ : Type} [ByteReader ρ]

/-- A call as a reader computation. A read asks for as many bytes as the buffer holds and puts
those it gets at the buffer's front; the rest of the buffer stays as it was. -/
def run : ReaderCall → ReadM ρ ReaderReply
  | read buf => do
    let bytes ← ByteReader.read buf.size
    return .filled bytes.size (bytes ++ buf.extract bytes.size buf.size)
  | seek offset => do return .position (← ByteReader.seek offset)
  | tell => do return .position (ByteReader.tell (← get))
  | clearErrors => do
    modify ByteReader.clearErrors
    return .done

/-- One call on a reader: its answer or failure, and the reader after it. -/
def step (c : ReaderCall) (r : ρ) : Except IoError ReaderReply × ρ :=
  ((((c.run).run).run r).run #[]).1

/-- Calls one after another, each on the reader the last one left, a failed one too: the
answers in order and the reader at the end. -/
def runAll : List ReaderCall → ρ → List (Except IoError ReaderReply) × ρ
  | [], r => ([], r)
  | c :: cs, r => ((c.step r).1 :: (runAll cs (c.step r).2).1, (runAll cs (c.step r).2).2)

@[simp] theorem runAll_nil (r : ρ) : runAll [] r = ([], r) := rfl

@[simp] theorem runAll_cons (c : ReaderCall) (cs : List ReaderCall) (r : ρ) :
    runAll (c :: cs) r = ((c.step r).1 :: (runAll cs (c.step r).2).1, (runAll cs (c.step r).2).2) :=
  rfl

/-- A property every call keeps holds of the reader after any calls. -/
theorem runAll_inv {P : ρ → Prop} (hstep : ∀ (c : ReaderCall) (r : ρ), P r → P (c.step r).2) :
    ∀ (cs : List ReaderCall) (r : ρ), P r → P (runAll cs r).2
  | [], _, hr => hr
  | c :: cs, r, hr => runAll_inv hstep cs _ (hstep c r hr)

theorem step_of_run {c : ReaderCall} {r r' : ρ} {x : Except IoError ReaderReply}
    (h : ∃ j', ((((c.run).run).run r).run #[]) = ((x, r'), j')) : c.step r = (x, r') := by
  obtain ⟨j', hj⟩ := h
  simp only [step, hj]

/-- A read call runs the reader's read and places what it hands out. -/
theorem run_read {buf : ByteArray} {r r' : ρ} {j j' : Array Record} {x : Except IoError ByteArray}
    (h : (((ByteReader.read buf.size : ReadM ρ ByteArray).run).run r).run j = ((x, r'), j')) :
    ((((read buf).run : ReadM ρ ReaderReply).run).run r).run j =
      ((x.map fun bytes => .filled bytes.size (bytes ++ buf.extract bytes.size buf.size), r'), j') := by
  cases x with
  | ok bytes => rw [run, run_bind_ok h]; rfl
  | error e => rw [run, run_bind_error h]; rfl

/-- A seek call runs the reader's seek and answers the cursor it reports. -/
theorem run_seek {o : Int} {r r' : ρ} {j j' : Array Record} {x : Except IoError Nat}
    (h : (((ByteReader.seek o : ReadM ρ Nat).run).run r).run j = ((x, r'), j')) :
    ((((seek o).run : ReadM ρ ReaderReply).run).run r).run j = ((x.map .position, r'), j') := by
  cases x with
  | ok p => rw [run, run_bind_ok h]; rfl
  | error e => rw [run, run_bind_error h]; rfl

end ReaderCall

namespace MemoryReader

open ReaderCall

/-- A reader over `d` with its cursor within the bytes. -/
def Within (d : ByteArray) (r : MemoryReader) : Prop := r.data = d ∧ r.pos ≤ d.size

/-- A read from `p` hands out the bytes at `p`, as many as the buffer holds and the bytes have,
at the buffer's front, and moves past them. -/
theorem step_read (d buf : ByteArray) (p : Nat) :
    (read buf).step (⟨d, p⟩ : MemoryReader) =
      (.ok (.filled (min buf.size (d.size - p))
        (d.extract p (p + min buf.size (d.size - p)) ++ buf.extract (min buf.size (d.size - p)) buf.size)),
        ⟨d, p + min buf.size (d.size - p)⟩) := by
  have hsize := size_extract_of_le (d := d) (p := p) (Nat.min_le_right buf.size (d.size - p))
  refine step_of_run ⟨#[], ?_⟩
  rw [ReaderCall.run_read (MemoryReader.run_read d p buf.size #[]), Except.map, hsize]

theorem step_seek (d : ByteArray) (p : Nat) (o : Int) :
    (seek o).step (⟨d, p⟩ : MemoryReader) =
      (.ok (.position (min (moveCursor p o) d.size)), ⟨d, min (moveCursor p o) d.size⟩) :=
  step_of_run ⟨#[], by rw [ReaderCall.run_seek (MemoryReader.run_seek d p o #[])]; rfl⟩

/-- Over bytes that fit the address space, a move clamped to the bytes is the signed sum
clamped to `0` and the bytes, computed on the integers. -/
theorem moveCursor_clamp {n : Nat} (hn : n ≤ wordMax) (p : Nat) (o : Int) :
    ((min (moveCursor p o) n : Nat) : Int) = min (max (p + o) 0) n := by
  have hword : (n : Int) ≤ wordMax := by exact_mod_cast hn
  simp only [moveCursor, Nat.cast_min, Int.toNat_eq_max]
  omega

/-- Every call keeps the cursor within the bytes. -/
theorem within_step (d : ByteArray) (c : ReaderCall) {r : MemoryReader} (hr : Within d r) :
    Within d (c.step r).2 := by
  obtain ⟨d', p⟩ := r
  obtain ⟨hd, hp⟩ := hr
  dsimp only at hd hp
  subst hd
  cases c with
  | read buf => rw [step_read]; exact ⟨rfl, show p + min buf.size (d'.size - p) ≤ d'.size by omega⟩
  | seek o => rw [step_seek]; exact ⟨rfl, Nat.min_le_right _ _⟩
  | tell => exact ⟨rfl, hp⟩
  | clearErrors => exact ⟨rfl, hp⟩

/-- Reads with no seek between them hand out consecutive bytes, from the cursor to where they
leave it, which is within the bytes. -/
theorem runAll_reads (d : ByteArray) :
    ∀ (bufs : List ByteArray) (p : Nat), p ≤ d.size →
      let run := runAll (bufs.map read) (⟨d, p⟩ : MemoryReader)
      run.2.data = d ∧ p ≤ run.2.pos ∧ run.2.pos ≤ d.size ∧
        run.1.flatMap ReaderReply.bytes = (d.extract p run.2.pos).data.toList
  | [], p, hp => by simpa using hp
  | buf :: bufs, p, hp => by
    have hsize := size_extract_of_le (d := d) (p := p) (Nat.min_le_right buf.size (d.size - p))
    obtain ⟨hd, hle, hend, hbytes⟩ := runAll_reads d bufs (p + min buf.size (d.size - p)) (by omega)
    simp only [List.map_cons, runAll_cons, step_read, List.flatMap_cons]
    generalize runAll (bufs.map read) (⟨d, p + min buf.size (d.size - p)⟩ : MemoryReader) = rest at *
    refine ⟨hd, by omega, hend, ?_⟩
    have hfront : (d.extract p (p + min buf.size (d.size - p)) ++
        buf.extract (min buf.size (d.size - p)) buf.size).extract 0 (min buf.size (d.size - p)) =
        d.extract p (p + min buf.size (d.size - p)) :=
      ByteArray.extract_append_eq_left hsize.symm
    have hjoin : d.extract p (p + min buf.size (d.size - p)) ++
        d.extract (p + min buf.size (d.size - p)) rest.2.pos = d.extract p rest.2.pos := by
      rw [ByteArray.extract_append_extract, Nat.min_eq_left (by omega), Nat.max_eq_right hle]
    rw [ReaderReply.bytes, hfront, hbytes, ← hjoin, ByteArray.data_append, Array.toList_append]

/-- What a reader over `d` does from a state as a clamped cursor: the cursor `p` is within the
bytes; a read into a buffer of `b` bytes hands out `n = min b (|d| - p)` bytes, the bytes at the
cursor, at the front of the buffer, leaves the rest of the buffer as it was and moves past them,
so at the end every read hands out nothing; a seek by any offset lands on the cursor plus the
offset clamped to `0` and `|d|`, computed on the integers; asking for the cursor and clearing
failures change nothing; and reads with no seek between them hand out consecutive bytes. -/
structure Clamped (d : ByteArray) (r : MemoryReader) : Prop where
  data : r.data = d
  pos_le : r.pos ≤ d.size
  read : ∀ buf : ByteArray, (ReaderCall.read buf).step r =
    (.ok (.filled (min buf.size (d.size - r.pos))
      (d.extract r.pos (r.pos + min buf.size (d.size - r.pos)) ++
        buf.extract (min buf.size (d.size - r.pos)) buf.size)),
      ⟨d, r.pos + min buf.size (d.size - r.pos)⟩)
  read_at_end : r.pos = d.size → ∀ buf : ByteArray, (ReaderCall.read buf).step r = (.ok (.filled 0 buf), r)
  seek : ∀ o : Int, ∃ t : Nat, (t : Int) = min (max (r.pos + o) 0) d.size ∧
    (ReaderCall.seek o).step r = (.ok (.position t), ⟨d, t⟩)
  tell : ReaderCall.tell.step r = (.ok (.position r.pos), r)
  clearErrors : ReaderCall.clearErrors.step r = (.ok .done, r)
  reads : ∀ bufs : List ByteArray,
    r.pos ≤ (runAll (bufs.map ReaderCall.read) r).2.pos ∧ (runAll (bufs.map ReaderCall.read) r).2.pos ≤ d.size ∧
      (runAll (bufs.map ReaderCall.read) r).1.flatMap ReaderReply.bytes =
        (d.extract r.pos (runAll (bufs.map ReaderCall.read) r).2.pos).data.toList

/-- A reader over bytes in memory that fit the address space is, from the start and after any
calls, a clamped cursor over them. -/
theorem clamped_cursor (d : ByteArray) (hd : d.size ≤ wordMax) (calls : List ReaderCall) :
    Clamped d (runAll calls (⟨d, 0⟩ : MemoryReader)).2 := by
  obtain ⟨hdata, hpos⟩ : Within d (runAll calls (⟨d, 0⟩ : MemoryReader)).2 :=
    runAll_inv (within_step d) calls _ ⟨rfl, Nat.zero_le _⟩
  generalize (runAll calls (⟨d, 0⟩ : MemoryReader)).2 = r at hdata hpos ⊢
  obtain ⟨d', p⟩ := r
  change d' = d at hdata
  subst hdata
  refine ⟨rfl, hpos, fun buf => step_read d' buf p, ?_, fun o => ⟨_, moveCursor_clamp hd p o, step_seek d' p o⟩,
    rfl, rfl, fun bufs => (runAll_reads d' bufs p hpos).2⟩
  intro hend buf
  change p = d'.size at hend
  rw [step_read, hend, Nat.sub_self, Nat.min_zero, Nat.add_zero, ByteArray.extract_same,
    ByteArray.empty_append, ByteArray.extract_zero_size]

theorem clamped_cursor_five :
    (⟨#[1, 2, 3, 4, 5]⟩ : ByteArray).size ≤ wordMax ∧
      Clamped ⟨#[1, 2, 3, 4, 5]⟩ (runAll [.read ⟨#[0, 0, 0]⟩, .seek (-100)] (⟨⟨#[1, 2, 3, 4, 5]⟩, 0⟩ : MemoryReader)).2 :=
  ⟨by decide, clamped_cursor ⟨#[1, 2, 3, 4, 5]⟩ (by decide) [.read ⟨#[0, 0, 0]⟩, .seek (-100)]⟩

end MemoryReader

end Pixmap
