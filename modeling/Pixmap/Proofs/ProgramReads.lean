import Pixmap.Proofs.StreamSlice
import Pixmap.Proofs.SeekFrom
import Pixmap.Png.Library

/-! PNG libraries made of reader programs: a program whose seeks shift with the stream and stay
confined reads a stream from `k` as it reads the bytes from `k` (`ReadProgram.Shifts.run`). -/
namespace Pixmap

/-- A seek as a program makes it from an origin `k` bytes further on: a target counted from the
start moves by `k`. -/
def SeekFrom.shift (k : Nat) : SeekFrom → SeekFrom
  | .start target => .start (target + k)
  | .current offset => .current offset
  | .fromEnd offset => .fromEnd offset

/-- The cursor a seek from `pos` asks for; none for a seek from the end. -/
def SeekFrom.target (pos : Nat) : SeekFrom → Option Int
  | .start target => some target
  | .current offset => some (pos + offset)
  | .fromEnd _ => none

/-- Where a program stands on the bytes it reads: its cursor, and whether a read came up short. -/
structure Standing where
  pos : Nat
  ended : Bool

namespace ReadProgram

variable {α : Type}

/-- `p` run on a stream does what `q` does on the stream's bytes from `k` on: the same reads, the
seeks counted from the start moved by `k`, each cursor the stream answers `k` further on, and the
same value at the end. A program that seeks only to positions the stream told it relates to
itself at every `k`. -/
inductive Shifts (k : Nat) : ReadProgram α → ReadProgram α → Prop
  | done (a : α) : Shifts k (done a) (done a)
  | read (n : Nat) {f g : Except IoError ByteArray → ReadProgram α} (h : ∀ r, Shifts k (f r) (g r)) :
      Shifts k (read n f) (read n g)
  | seek (w : SeekFrom) {f g : Except IoError Nat → ReadProgram α}
      (hok : ∀ q, Shifts k (f (.ok (q + k))) (g (.ok q)))
      (herr : ∀ e, Shifts k (f (.error e)) (g (.error e))) :
      Shifts k (seek (w.shift k) f) (seek w g)

/-- Run on the bytes `d`, the program seeks only within them, and only to where it stands once a
read has come up short; `post` holds of where it ends and of its value. -/
def Confined (d : ByteArray) (post : Standing → α → Prop) : Standing → ReadProgram α → Prop
  | st, done a => post st a
  | st, read n next =>
    let t := min n (d.size - st.pos)
    Confined d post ⟨st.pos + t, st.ended || decide (t < n)⟩ (next (.ok (d.extract st.pos (st.pos + t))))
  | st, seek w next =>
    match w.target st.pos with
    | none => ∀ e, Confined d post st (next (.error e))
    | some q => 0 ≤ q ∧ q ≤ d.size ∧ (st.ended = true → q = st.pos) ∧
        Confined d post ⟨q.toNat, st.ended⟩ (next (.ok q.toNat))

section Run

variable {ρ : Type} [ByteReader ρ] {r r' : ρ} {j j' : Array Record}

theorem run_done (a : α) : ((((done a).run : StateT ρ Logged α).run r).run j) = ((a, r), j) := rfl

theorem run_read {n : Nat} {next : Except IoError ByteArray → ReadProgram α}
    {x : Except IoError ByteArray} (h : (((ByteReader.read n : ReadM ρ ByteArray).run).run r).run j = ((x, r'), j')) :
    ((((read n next).run : StateT ρ Logged α).run r).run j) = ((((next x).run : StateT ρ Logged α).run r').run j') := by
  simp only [ReadProgram.run, StateT.run_bind]
  rw [h]
  rfl

theorem run_seek {w : SeekFrom} {next : Except IoError Nat → ReadProgram α}
    {x : Except IoError Nat} (h : (((ByteReader.seekFrom w : ReadM ρ Nat).run).run r).run j = ((x, r'), j')) :
    ((((seek w next).run : StateT ρ Logged α).run r).run j) = ((((next x).run : StateT ρ Logged α).run r').run j') := by
  simp only [ReadProgram.run, StateT.run_bind]
  rw [h]
  rfl

end Run

end ReadProgram

/-- The readers over the bytes of `d` from `k` on and over the stream `d` from `k`, at the byte
where a program stands, the stream latched only after a read came up short. -/
structure Stands (d : ByteArray) (k : Nat) (st : Standing) (m : MemoryReader) (s : StreamReader) :
    Prop where
  tracks : Tracks d k m s
  pos : m.pos = st.pos
  latched : s.latched = true → st.ended = true

namespace Stands

variable {d : ByteArray} {k : Nat} {st : Standing} {m : MemoryReader} {s : StreamReader}

theorem start (hk : k ≤ d.size) :
    Stands d k ⟨0, false⟩ ⟨d.extract k d.size, 0⟩ (StreamReader.ofCursor { data := d, position := k }) :=
  ⟨Tracks.at_start (q := 0) hk (Nat.zero_le _), rfl, nofun⟩

theorem memory_eq (h : Stands d k st m s) : m = ⟨d.extract k d.size, st.pos⟩ := by
  obtain ⟨data, pos⟩ := m
  obtain ⟨⟨-, hdata, -⟩, hpos, -⟩ := h
  dsimp only at hdata hpos
  rw [hdata, hpos]

/-- A read moves the standing past the bytes memory hands out, which the stream hands out too,
and marks a read that came up short. -/
theorem run_read (h : Stands d k st m s) (n : Nat) (j : Array Record) :
    ∃ s' j', (((ByteReader.read n : ReadM StreamReader ByteArray).run).run s).run j =
        ((.ok (m.take n).1, s'), j') ∧
      Stands d k ⟨st.pos + min n m.remaining, st.ended || decide (min n m.remaining < n)⟩
        (m.take n).2 s' := by
  obtain ⟨s', j', hs, ht, hl⟩ := h.tracks.run_read n j
  refine ⟨s', j', hs, ht, by simp only [MemoryReader.take_pos, MemoryReader.remaining, h.pos], fun hlat => ?_⟩
  rcases hl hlat with hold | hshort
  · simp [h.latched hold]
  · simp [hshort]

/-- A seek to a cursor within the bytes, and where the program stands once a read came up short,
lands memory there and the stream `k` further on, the answers `k` apart. -/
theorem run_seek (hsize : d.size ≤ maxOffset) (h : Stands d k st m s) {w : SeekFrom} {q : Int}
    (hq : w.target st.pos = some q) (h0 : 0 ≤ q) (hle : q ≤ (d.extract k d.size).size)
    (hend : st.ended = true → q = st.pos) (j₁ j₂ : Array Record) :
    (((ByteReader.seekFrom w : ReadM MemoryReader Nat).run).run m).run j₁ =
        ((.ok q.toNat, ⟨d.extract k d.size, q.toNat⟩), j₁) ∧
      ∃ s' j', (((ByteReader.seekFrom (w.shift k) : ReadM StreamReader Nat).run).run s).run j₂ =
        ((.ok (q.toNat + k), s'), j') ∧ Stands d k ⟨q.toNat, st.ended⟩ ⟨d.extract k d.size, q.toNat⟩ s' := by
  obtain rfl := h.memory_eq
  obtain ⟨inner, spos, l⟩ := s
  obtain ⟨⟨hk, -, hwithin, hinner, hpos, hl⟩, -, hlat⟩ := h
  dsimp only at hinner hpos hl hlat hwithin
  subst hinner hpos
  obtain ⟨t, rfl⟩ : ∃ t : Nat, q = t := ⟨q.toNat, by omega⟩
  have hsize' : (d.extract k d.size).size = d.size - k := by simp
  have hword : maxOffset < wordMax := by decide
  have hlatch : l = true → t = (d.extract k d.size).size := fun hl' => by
    have hat := hend (hlat hl')
    have hfull := hl hl'
    omega
  have hstands : ∀ (c : Cursor) (p : Nat), c = { data := d, position := k + t } → p = k + t →
      Stands d k ⟨t, st.ended⟩ ⟨d.extract k d.size, t⟩ ⟨c, p, l⟩ := fun c p hc hp =>
    ⟨⟨hk, rfl, by simp only [Int.ofNat_le] at hle; exact hle, hc, hp, hlatch⟩, rfl, hlat⟩
  simp only [Int.toNat_natCast]
  cases w with
  | start target =>
    cases hq
    have hnear : |(t : Int) - st.pos| ≤ maxOffset := by
      rw [abs_le]
      constructor <;> omega
    have hnear' : |((t + k : Nat) : Int) - (k + st.pos : Nat)| ≤ maxOffset := by
      rw [abs_le]
      constructor <;> omega
    have hmem := MemoryReader.runOn_seekFrom_start (d.extract k d.size) st.pos t j₁ (by omega) hnear
    rw [Nat.min_eq_left (by omega)] at hmem
    obtain ⟨j', hs⟩ := StreamReader.runOn_seekFrom_start { data := d, position := k + st.pos }
      (k + st.pos) (t + k) l j₂ (by omega) hnear'
    exact ⟨hmem, _, j', hs, hstands _ _ (by rw [Nat.add_comm t k]) (Nat.add_comm t k)⟩
  | current offset =>
    simp only [SeekFrom.target, Option.some.injEq] at hq
    have hmove : moveCursor st.pos offset = t := by
      simp only [moveCursor]
      omega
    have hmove' : moveCursor (k + st.pos) offset = t + k := by
      simp only [moveCursor]
      omega
    have hmem : (((ByteReader.seekFrom (.current offset) : ReadM MemoryReader Nat).run).run
        ⟨d.extract k d.size, st.pos⟩).run j₁ = _ := MemoryReader.run_seek _ _ _ _
    rw [hmove, Nat.min_eq_left (by omega)] at hmem
    obtain ⟨j', hs⟩ := StreamReader.run_seek d (k + st.pos) (k + st.pos) l offset j₂
    rw [hmove'] at hs
    exact ⟨hmem, _, j', hs, hstands _ _ (by rw [Nat.add_comm t k]) (Nat.add_comm t k)⟩
  | fromEnd offset => cases hq

end Stands

namespace ReadProgram

variable {α : Type}

/-- A program that seeks only to positions the stream told it, run from two readers that stand
where it stands, and confined to the bytes from `k` on: memory and the stream give the same
value, and end where the program ends. -/
theorem Shifts.run {k : Nat} {p q : ReadProgram α} (hs : Shifts k p q) {d : ByteArray}
    (hsize : d.size ≤ maxOffset) {post : Standing → α → Prop} :
    ∀ {st : Standing} {m : MemoryReader} {s : StreamReader}, Stands d k st m s →
      Confined (d.extract k d.size) post st q → ∀ j₁ j₂, ∃ a st' m' s' k₁ k₂,
        (((q.run : StateT MemoryReader Logged α).run m).run j₁ = ((a, m'), k₁)) ∧
        (((p.run : StateT StreamReader Logged α).run s).run j₂ = ((a, s'), k₂)) ∧
        post st' a ∧ Stands d k st' m' s' := by
  induction hs with
  | done a =>
    intro st m s h hc j₁ j₂
    exact ⟨a, st, m, s, j₁, j₂, rfl, rfl, hc, h⟩
  | read n _ ih =>
    intro st m s h hc j₁ j₂
    obtain ⟨s', j', hs, h'⟩ := h.run_read n j₂
    obtain rfl := h.memory_eq
    rw [run_read (rfl : (((ByteReader.read n : ReadM MemoryReader ByteArray).run).run _).run j₁ = _),
      run_read hs]
    exact ih _ h' hc j₁ j'
  | seek w _ _ ihok iherr =>
    intro st m s h hc j₁ j₂
    unfold Confined at hc
    cases hw : w.target st.pos with
    | none =>
      -- only a seek from the end asks for no cursor: both readers refuse it alike
      obtain ⟨offset, rfl⟩ : ∃ offset, w = .fromEnd offset := by
        cases w <;> simp_all [SeekFrom.target]
      rw [hw] at hc
      simp only [SeekFrom.shift]
      rw [run_seek (ByteReader.runOn_seekFrom_fromEnd m j₁ offset),
        run_seek (ByteReader.runOn_seekFrom_fromEnd s j₂ offset)]
      exact iherr _ h (hc _) j₁ j₂
    | some q =>
      rw [hw] at hc
      obtain ⟨h0, hle, hend, hnext⟩ := hc
      obtain ⟨hm, s', j', hs, h'⟩ := h.run_seek hsize hw h0 hle hend j₁ j₂
      rw [run_seek hm, run_seek hs]
      exact ihok q.toNat h' hnext j₁ j'

end ReadProgram

namespace PngPrograms

/-- Every decoding step of the library seeks only to positions the stream told it. -/
structure Relative (png : PngPrograms) : Prop where
  readInfo : ∀ k strip16, (png.readInfo strip16).Shifts k (png.readInfo strip16)
  nextFrame : ∀ k session bufferSize,
    (png.nextFrame session bufferSize).Shifts k (png.nextFrame session bufferSize)

/-- Run on the bytes `d` from their start, the header step, and then the frame step of each
session it returns, seek only within the bytes, and not back once a read came up short. -/
def ConfinedOn (png : PngPrograms) (d : ByteArray) : Prop :=
  ∀ strip16, ReadProgram.Confined d (fun st r => ∀ session, r = .ok session → ∀ bufferSize,
    ReadProgram.Confined d (fun _ _ => True) st (png.nextFrame session bufferSize)) ⟨0, false⟩
    (png.readInfo strip16)

/-- A library of programs that keep to positions the stream told them, and to the bytes of `d`
from `k` on, reads those bytes alike from memory and from the stream. -/
theorem readsAlike (png : PngPrograms) (hrel : png.Relative) {d : ByteArray} {k : Nat}
    (hk : k ≤ d.size) (hsize : d.size ≤ maxOffset) (hconf : png.ConfinedOn (d.extract k d.size)) :
    png.library.ReadsAlike d k := by
  intro strip16 j₁ j₂
  obtain ⟨a, st, m, s, k₁, k₂, h₁, h₂, hframe, h⟩ :=
    (hrel.readInfo k strip16).run hsize (Stands.start hk) (hconf strip16) j₁ j₂
  simp only [PngPrograms.library]
  rw [h₁, h₂]
  refine ⟨rfl, fun session hs n j₁' j₂' => ?_⟩
  obtain ⟨b, _, _, _, _, _, e₁, e₂, -, -⟩ :=
    (hrel.nextFrame k session n).run hsize h (hframe session hs n) j₁' j₂'
  rw [e₁, e₂]
  exact ⟨rfl, trivial⟩

end PngPrograms

namespace Png

/-- Opens bytes held in memory with this project's decoder: the session, and the reader where the
header left it. -/
def openInMemory (strip16 : Bool) (bytes : ByteArray) : Except PngFailure (Session × MemoryReader) :=
  let ((result, reader), _) := ((library.readInfo strip16).run ⟨bytes, 0⟩).run #[]
  result.map (·, reader)

/-- Reads the rest of the stream in one read and opens it in memory. -/
def bufferingRest (strip16 : Bool) : ReadProgram (Except PngFailure (Session × MemoryReader)) :=
  .read maxOffset fun r => .done (match r with
    | .ok bytes => openInMemory strip16 bytes
    | .error e => .error (.io e))

/-- Seeks back to `start`, a position the stream told, then reads the rest. -/
def bufferingRewind (strip16 : Bool) (start : Nat) :
    ReadProgram (Except PngFailure (Session × MemoryReader)) :=
  .seek (.start start) fun
    | .ok _ => bufferingRest strip16
    | .error e => .done (.error (.io e))

/-- Peeks at the eight bytes of the signature from `start` and steps back, refusing a stream
that ends first. -/
def bufferingPeek (strip16 : Bool) (start : Nat) :
    ReadProgram (Except PngFailure (Session × MemoryReader)) :=
  .read 8 fun
    | .ok sig => if sig.size < 8 then .done (.error (.codec "truncated signature"))
      else bufferingRewind strip16 start
    | .error e => .done (.error (.io e))

/-- Asks the stream where it stands, then peeks at the signature from there. -/
def bufferingInfo (strip16 : Bool) : ReadProgram (Except PngFailure (Session × MemoryReader)) :=
  .seek (.current 0) fun
    | .ok start => bufferingPeek strip16 start
    | .error e => .done (.error (.io e))

/-- This project's decoder over a stream taken into memory: it asks the stream where it stands,
peeks at the signature, seeks back there and reads the rest at once. -/
def buffering : PngPrograms where
  Session := Session × MemoryReader
  readInfo := bufferingInfo
  width s := library.width s.1
  height s := library.height s.1
  outputColor s := library.outputColor s.1
  outputBufferSize s := library.outputBufferSize s.1
  nextFrame s bufferSize := .done (((library.nextFrame s.1 bufferSize).run s.2).run #[]).1.1
  encode := library.encode

theorem bufferingRest_shifts (k : Nat) (strip16 : Bool) :
    (bufferingRest strip16).Shifts k (bufferingRest strip16) :=
  .read _ fun _ => .done _

theorem bufferingPeek_shifts (k : Nat) (strip16 : Bool) (start : Nat) :
    (bufferingPeek strip16 (start + k)).Shifts k (bufferingPeek strip16 start) := by
  refine .read 8 fun r => ?_
  cases r with
  | ok sig =>
    by_cases hshort : sig.size < 8
    · simp only [hshort, if_true]
      exact .done _
    · simp only [hshort, if_false]
      exact .seek (.start start) (fun _ => bufferingRest_shifts k strip16) fun _ => .done _
  | error e => exact .done _

/-- The buffering library seeks only to the position the stream told it. -/
theorem buffering_relative : buffering.Relative where
  readInfo k strip16 :=
    .seek (.current 0) (fun start => bufferingPeek_shifts k strip16 start) fun _ => .done _
  nextFrame _ _ _ := .done _

/-- On any bytes, the buffering library seeks back only after a signature read in full, and its
frame step does not read. -/
theorem buffering_confined (d : ByteArray) : buffering.ConfinedOn d := by
  intro strip16
  simp [buffering, bufferingInfo, bufferingPeek, bufferingRewind, bufferingRest, ReadProgram.Confined,
    SeekFrom.target]
  by_cases hshort : d.size < 8
  · simp [hshort, ReadProgram.Confined]
  · simp [hshort, ReadProgram.Confined, SeekFrom.target]

end Png

/-- Decoding a stream from its position `k` gives what decoding the bytes from `k` on gives, the
same image or the same error with the same message, with a PNG library whose steps seek only to
positions the stream told them, within the bytes, and not back once a read came up short. -/
theorem DecodeRequest.decodeStream_eq_decodeBytes (png : PngPrograms) (hrel : png.Relative)
    (req : DecodeRequest) (d : ByteArray) (k : Nat) (hk : k ≤ d.size) (hsize : d.size ≤ maxOffset)
    (hconf : png.ConfinedOn (d.extract k d.size)) (j₁ j₂ : Array Record) :
    ((req.decodeStream png.library { data := d, position := k }).run j₁).1 =
      ((req.decodeBytes png.library (d.extract k d.size)).run j₂).1 := by
  have hword : maxOffset < wordMax := by decide
  exact req.decodeStream_eq_of_readsAlike (png.readsAlike hrel hk hsize hconf) hk (by omega) j₁ j₂

/-- A PNG request over a stream that stands at its second byte, read by the buffering library. -/
theorem DecodeRequest.decodeStream_eq_decodeBytes_buffering :
    Png.buffering.Relative ∧ 1 ≤ (⟨#[0, 137, 80, 78, 71, 13, 10, 26, 10]⟩ : ByteArray).size ∧
      (⟨#[0, 137, 80, 78, 71, 13, 10, 26, 10]⟩ : ByteArray).size ≤ maxOffset ∧
      Png.buffering.ConfinedOn ((⟨#[0, 137, 80, 78, 71, 13, 10, 26, 10]⟩ : ByteArray).extract 1
        (⟨#[0, 137, 80, 78, 71, 13, 10, 26, 10]⟩ : ByteArray).size) ∧
      ((({} : DecodeRequest).withFormat .png).decodeStream Png.buffering.library
          { data := ⟨#[0, 137, 80, 78, 71, 13, 10, 26, 10]⟩, position := 1 } |>.run #[]).1 =
        ((({} : DecodeRequest).withFormat .png).decodeBytes Png.buffering.library
          ((⟨#[0, 137, 80, 78, 71, 13, 10, 26, 10]⟩ : ByteArray).extract 1
            (⟨#[0, 137, 80, 78, 71, 13, 10, 26, 10]⟩ : ByteArray).size) |>.run #[]).1 :=
  ⟨Png.buffering_relative, by decide, by decide, Png.buffering_confined _,
    DecodeRequest.decodeStream_eq_decodeBytes Png.buffering Png.buffering_relative _ _ 1 (by decide)
      (by decide) (Png.buffering_confined _) #[] #[]⟩

end Pixmap
