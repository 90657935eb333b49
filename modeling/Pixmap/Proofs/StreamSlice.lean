import Pixmap.Proofs.ReaderRuns
import Pixmap.Proofs.Agree
import Pixmap.Request

/-! Decoding a stream from its position or the bytes from there: readers started at the same byte
stay together (`Tracks`), so a library that reads both alike decodes both alike. -/
namespace Pixmap

/-- A reader over the bytes of `d` from `k` on, and a reader of the stream `d` that started at
`k`, standing at the same byte: the stream's cursor is `k` bytes further on, and the stream has
latched only at the end. -/
structure Tracks (d : ByteArray) (k : Nat) (m : MemoryReader) (s : StreamReader) : Prop where
  start : k ≤ d.size
  data : m.data = d.extract k d.size
  within : m.pos ≤ m.data.size
  inner : s.inner = { data := d, position := k + m.pos }
  pos : s.pos = k + m.pos
  latched : s.latched = true → m.pos = m.data.size

theorem Tracks.at_start {d : ByteArray} {k q : Nat} (hk : k ≤ d.size) (hq : q ≤ d.size - k) :
    Tracks d k ⟨d.extract k d.size, q⟩ ⟨{ data := d, position := k + q }, k + q, false⟩ :=
  ⟨hk, rfl, by simp; omega, rfl, rfl, nofun⟩

/-- A read of `n` bytes from two readers at the same byte: the stream hands out what memory hands
out, the bytes left up to `n`, stays at the same byte, and latches only when they are fewer. -/
theorem Tracks.run_read {d : ByteArray} {k : Nat} {m : MemoryReader} {s : StreamReader}
    (h : Tracks d k m s) (n : Nat) (j : Array Record) :
    ∃ s' j', (((ByteReader.read n : ReadM StreamReader ByteArray).run).run s).run j =
        ((.ok (m.take n).1, s'), j') ∧ Tracks d k (m.take n).2 s' ∧
        (s'.latched = true → s.latched = true ∨ min n m.remaining < n) := by
  obtain ⟨data, q⟩ := m
  obtain ⟨inner, pos, l⟩ := s
  obtain ⟨hk, hdata, hq, hinner, hpos, hl⟩ := h
  dsimp only at hdata hq hinner hpos hl
  subst hdata hinner hpos
  have hsize : (d.extract k d.size).size = d.size - k := by simp
  rw [MemoryReader.take_eq]
  cases l with
  | true =>
    have hend := hl rfl
    have ht : min n ((d.extract k d.size).size - q) = 0 := by omega
    rw [ht, Nat.add_zero, ByteArray.extract_same]
    exact ⟨_, _, StreamReader.read_latched _ n j rfl, ⟨hk, rfl, hq, rfl, rfl, fun _ => hend⟩,
      fun _ => .inl rfl⟩
  | false =>
    obtain ⟨j', hrun⟩ := StreamReader.read_plain d (k + q) n j (by omega)
    have ht : min n ((d.extract k d.size).size - q) = min n (d.size - (k + q)) := by
      rw [hsize]
      omega
    rw [ht]
    have hfit : k + q + min n (d.size - (k + q)) ≤ d.size := by omega
    have hlatch : min n (d.size - (k + q)) < n →
        q + min n (d.size - (k + q)) = (d.extract k d.size).size := by omega
    have hrem : MemoryReader.remaining ⟨d.extract k d.size, q⟩ = d.size - (k + q) := by
      simp only [MemoryReader.remaining, hsize]
      omega
    rw [hrem]
    generalize min n (d.size - (k + q)) = t at hfit hlatch hrun ⊢
    refine ⟨⟨{ data := d, position := k + q + t }, k + q + t, decide (t < n)⟩, j', ?_,
      ⟨hk, rfl, ?_, ?_, ?_, fun hshort => hlatch (of_decide_eq_true hshort)⟩,
      fun hshort => .inr (of_decide_eq_true hshort)⟩
    · rw [hrun, ByteArray.extract_extract_tail d hfit]
    · show q + t ≤ (d.extract k d.size).size
      omega
    · rw [Nat.add_assoc]
    · rw [Nat.add_assoc]

/-- Reading the bytes from `k` on in memory, or the stream from `k` on, hands out the same
bytes and keeps the two readers at the same byte. -/
theorem Tracks.agree_read (d : ByteArray) (k n : Nat) :
    Agree (Tracks d k) Eq (ByteReader.read n : ReadM MemoryReader ByteArray)
      (ByteReader.read n : ReadM StreamReader ByteArray) := by
  intro m s h j₁ j₂
  obtain ⟨s', j', hs, ht, -⟩ := h.run_read n j₂
  rw [hs]
  exact ⟨rfl, ht⟩

/-- Runs of one step of a library from a reader of memory and a reader of a stream return the
same, whatever the journals, and `next` holds of what they return and of the readers they leave. -/
def StepsAlike {α : Type} (m₁ : StateT MemoryReader Logged α) (m₂ : StateT StreamReader Logged α)
    (r₁ : MemoryReader) (r₂ : StreamReader) (next : α → MemoryReader → StreamReader → Prop) : Prop :=
  ∀ j₁ j₂, ((m₁.run r₁).run j₁).1.1 = ((m₂.run r₂).run j₂).1.1 ∧
    next ((m₁.run r₁).run j₁).1.1 ((m₁.run r₁).run j₁).1.2 ((m₂.run r₂).run j₂).1.2

/-- The library reads the bytes of `d` from `k` on alike from memory and from a stream standing
at `k`: the header, and then, from where the header left the two readers, the frame of the
session it returned, whatever the buffer size. -/
def PngLibrary.ReadsAlike (png : PngLibrary) (d : ByteArray) (k : Nat) : Prop :=
  ∀ strip16, StepsAlike (png.readInfo strip16) (png.readInfo strip16) ⟨d.extract k d.size, 0⟩
    (StreamReader.ofCursor { data := d, position := k }) fun r t₁ t₂ =>
      ∀ session, r = .ok session → ∀ n,
        StepsAlike (png.nextFrame session n) (png.nextFrame session n) t₁ t₂ fun _ _ _ => True

namespace PngCodec

theorem agreeFrom_call_bind {α β : Type} {m₁ : StateT MemoryReader Logged (Except PngFailure α)}
    {m₂ : StateT StreamReader Logged (Except PngFailure α)} {r₁ : MemoryReader} {r₂ : StreamReader}
    {next : Except PngFailure α → MemoryReader → StreamReader → Prop}
    {f₁ : α → CodecM MemoryReader β} {f₂ : α → CodecM StreamReader β} (h : StepsAlike m₁ m₂ r₁ r₂ next)
    (hf : ∀ a t₁ t₂, next (.ok a) t₁ t₂ → AgreeFrom (fun _ _ => True) Eq t₁ t₂ (f₁ a) (f₂ a)) :
    AgreeFrom (fun _ _ => True) Eq r₁ r₂ (call m₁ >>= f₁) (call m₂ >>= f₂) := by
  intro j₁ j₂
  obtain ⟨hres, hnext⟩ := h j₁ j₂
  rcases e₁ : (m₁.run r₁).run j₁ with ⟨⟨x₁, t₁⟩, k₁⟩
  rcases e₂ : (m₂.run r₂).run j₂ with ⟨⟨x₂, t₂⟩, k₂⟩
  rw [e₁, e₂] at hres hnext
  dsimp only at hres hnext
  subst hres
  cases x₁ with
  | ok a =>
    rw [run_bind_ok (run_call e₁), run_bind_ok (run_call e₂)]
    exact hf a t₁ t₂ hnext k₁ k₂
  | error f =>
    rw [run_bind_error (run_call e₁), run_bind_error (run_call e₂)]
    exact ⟨rfl, trivial⟩

theorem agreeFrom_readImage {png : PngLibrary} {d : ByteArray} {k : Nat} (h : png.ReadsAlike d k)
    (limits : Limits) (spec : ColorSpec) :
    AgreeFrom (fun _ _ => True) Eq (⟨d.extract k d.size, 0⟩ : MemoryReader)
      (StreamReader.ofCursor { data := d, position := k }) (readImage png limits spec)
      (readImage png limits spec) := by
  unfold readImage
  refine agreeFrom_call_bind (h _) fun session t₁ t₂ hframe => ?_
  refine AgreeFrom.bind_stay (agree_plan png limits spec session) (fun p => ?_) trivial
  refine agreeFrom_call_bind (hframe session rfl p.bufferSize) fun ⟨frame, lineSize⟩ _ _ _ => ?_
  exact (agree_adopt _ _ p spec frame lineSize).agreeFrom trivial

/-- The PNG decoder over the bytes from `k` on and over the stream from `k`: both fill the same
eight bytes and step back to where they began, and a library that reads both alike from there
gives the same result. -/
theorem agreeFrom_decode {png : PngLibrary} {d : ByteArray} {k : Nat} (h : png.ReadsAlike d k)
    (hk : k ≤ d.size) (hword : k ≤ wordMax) (limits : Limits) (spec : ColorSpec) :
    AgreeFrom (fun _ _ => True) Eq (⟨d.extract k d.size, 0⟩ : MemoryReader)
      (StreamReader.ofCursor { data := d, position := k }) (decode png limits spec)
      (decode png limits spec) := by
  intro j₁ j₂
  have hstart : Tracks d k ⟨d.extract k d.size, 0⟩ ⟨{ data := d, position := k }, k, false⟩ :=
    Tracks.at_start (q := 0) hk (Nat.zero_le _)
  unfold decode
  by_cases h8 : 8 ≤ d.size - k
  · have hm := MemoryReader.readFull_runOn (d.extract k d.size) 0 8 j₁
    rw [if_pos (by simp; omega)] at hm
    obtain ⟨j', hs⟩ := StreamReader.readFull_of_le d k 8 j₂ h8
    rw [StreamReader.ofCursor_plain, run_bind_ok (run_tryCatch_ok hm), run_bind_ok (run_tryCatch_ok hs),
      ByteArray.extract_extract_tail d (by omega), Nat.add_zero]
    dsimp only
    by_cases hsig : (d.extract k (k + 8) != signature) = true
    · rw [if_pos hsig, if_pos hsig]
      exact ⟨rfl, trivial⟩
    rw [if_neg hsig, if_neg hsig]
    obtain ⟨j'', hback⟩ := StreamReader.run_seek d (k + 8) (k + 8) false (-8) j'
    rw [moveCursor_back_eight hword] at hback
    have hfront := MemoryReader.run_seek (d.extract k d.size) (0 + 8) (-8) j₁
    rw [moveCursor_back_eight (Nat.zero_le _), Nat.min_eq_left (Nat.zero_le _)] at hfront
    rw [run_bind_ok (CodecM.runOn_ofRead hfront), run_bind_ok (CodecM.runOn_ofRead hback)]
    exact agreeFrom_readImage h limits spec j₁ j''
  have hm := MemoryReader.readFull_runOn (d.extract k d.size) 0 8 j₁
  rw [if_neg (by simp; omega)] at hm
  simp only [CodecM.runOn] at hm
  have hagree := agree_readFull (Tracks.agree_read d k) 8 _ _ hstart j₁ j₂
  rw [StreamReader.ofCursor_plain]
  rcases hs : (((readFull 8 : CodecM StreamReader ByteArray).run).run
    ⟨{ data := d, position := k }, k, false⟩).run j₂ with ⟨⟨r₂, t₂⟩, k₂⟩
  rw [hm, hs] at hagree
  obtain ⟨hres, -⟩ := hagree
  cases r₂ with
  | ok sig => exact hres.elim
  | error e =>
    cases hres
    rw [run_bind_ok ((run_tryCatch_error hm).trans (run_pure _)),
      run_bind_ok ((run_tryCatch_error hs).trans (run_pure _))]
    have hne : (ByteArray.empty != signature) = true := by decide
    dsimp only
    rw [if_pos hne, if_pos hne]
    exact ⟨rfl, trivial⟩

end PngCodec

/-- With a PNG library that reads the bytes of `d` from `k` on alike from memory and from a
stream standing at `k`, every decode request gives the same result from the stream and from the
bytes. -/
theorem DecodeRequest.decodeStream_eq_of_readsAlike (req : DecodeRequest) {png : PngLibrary}
    {d : ByteArray} {k : Nat} (h : png.ReadsAlike d k) (hk : k ≤ d.size) (hword : k ≤ wordMax)
    (j₁ j₂ : Array Record) :
    ((req.decodeStream png { data := d, position := k }).run j₁).1 =
      ((req.decodeBytes png (d.extract k d.size)).run j₂).1 := by
  have hstart : Tracks d k ⟨d.extract k d.size, 0⟩ (StreamReader.ofCursor { data := d, position := k }) :=
    Tracks.at_start (q := 0) hk (Nat.zero_le _)
  suffices hdec : AgreeFrom (fun _ _ => True) Eq (⟨d.extract k d.size, 0⟩ : MemoryReader)
      (StreamReader.ofCursor { data := d, position := k }) (req.decode png) (req.decode png) from
    (ResultRel.eq (hdec j₂ j₁).1).symm
  unfold DecodeRequest.decode
  rcases req.format with _ | format
  · exact (agree_throw _).agreeFrom trivial
  refine AgreeFrom.emit_bind _ _ _ ?_
  cases format with
  | raw =>
    rcases req.rawLayout with _ | ⟨width, height, stored⟩
    · exact (agree_throw _).agreeFrom trivial
    · exact ((RawCodec.agree_decode (Tracks.agree_read d k) _ _).agreeFrom hstart).results
  | png => exact PngCodec.agreeFrom_decode h hk hword _ _
  | jpeg => exact (agree_throw _).agreeFrom trivial
  | gif => exact (agree_throw _).agreeFrom trivial

end Pixmap
