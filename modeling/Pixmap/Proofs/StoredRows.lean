import Pixmap.Proofs.EncodedChunks

/-! Reading the image data of the encoder's file: wherever the pieces fall, the rows found are the
first rows, and the run ends with every row found (`run_readFrame`). -/
namespace Pixmap

namespace Png

theorem unfilter_zero (stride : Nat) (prev cur : ByteArray) : unfilter 0 stride prev cur = .ok cur := by
  have hfold : ∀ n, n ≤ cur.size →
      (List.range n).foldl (fun out i => out.push (cur[i]?.getD 0)) ByteArray.empty = cur.extract 0 n := by
    intro n
    induction n with
    | zero => intro _; simp
    | succ n ih =>
      intro hn
      rw [List.range_succ, List.foldl_append, ih (by omega), List.foldl_cons, List.foldl_nil,
        ← ByteArray.append_toByteArray_singleton, getElem?_pos cur n (by omega), Option.getD_some,
        ← ByteArray.extract_add_one (by omega), ByteArray.extract_append_extract]
      simp
  unfold unfilter
  rw [if_neg (by decide)]
  have h0 : UInt8.ofNat 0 = 0 := rfl
  simp only [predict, Nat.toUInt8, h0, UInt8.add_zero]
  rw [hfold cur.size le_rfl, ByteArray.extract_zero_size]

/-- Image data of rows stored unfiltered: each row of `len` bytes behind the filter type 0. -/
structure Unfiltered (S : ByteArray) (rows : List ByteArray) (len : Nat) : Prop where
  size : S.size = rows.length * (len + 1)
  filter : ∀ r < rows.length, S[r * (len + 1)]? = some 0
  row : ∀ r (hr : r < rows.length), S.extract (r * (len + 1) + 1) (r * (len + 1) + 1 + len) = rows[r]

/-- The first `r` rows found, the next one starting after them. -/
def rowsFound (rows : List ByteArray) (len r : Nat) : Rows := ⟨(rows.take r).toArray, r * (len + 1)⟩

section Advance

variable {S : ByteArray} {R : List ByteArray} {len : Nat} {info : Info} {places : Array RowPlace}

theorem rowsFound_push {r : Nat} (hr : r < R.length) :
    (⟨(rowsFound R len r).done.push R[r], r * (len + 1) + 1 + len⟩ : Rows) = rowsFound R len (r + 1) := by
  simp only [rowsFound, List.take_succ_eq_append_getElem hr, List.push_toArray, Rows.mk.injEq, true_and]
  ring

/-- Unfiltering goes through the rows lying whole in the first `final` bytes, from any number
of rows found; with all the data final it finds every row. -/
theorem advance_unfiltered (hS : Unfiltered S R len) (hsize : places.size = R.length)
    (hwidth : ∀ p ∈ places, info.header.rowBytes p.width = len) (hcolor : info.header.colorType ≠ .indexed)
    {q final : Nat} (hq : q ≤ S.size) (hfinal : final ≤ q) :
    ∀ fuel r, r ≤ R.length → ∃ r', Rows.advance info places (S.extract 0 q) final fuel (rowsFound R len r) =
      .ok (rowsFound R len r') ∧ r' ≤ R.length ∧ (final = S.size → R.length < fuel + r → r' = R.length) := by
  intro fuel
  induction fuel with
  | zero => exact fun r hr => ⟨r, rfl, hr, fun _ h => by omega⟩
  | succ fuel ih =>
    intro r hr
    have hdone : (rowsFound R len r).done.size = r := by simp [rowsFound]; omega
    rw [Rows.advance, hdone]
    rcases Nat.lt_or_ge r R.length with hlt | hge
    · have hp : r < places.size := by omega
      rw [getElem?_pos places r hp]
      dsimp only
      rw [hwidth places[r] (Array.getElem_mem hp), show (rowsFound R len r).offset = r * (len + 1) from rfl]
      have hend := Nat.mul_le_mul_right (len + 1) (show r + 1 ≤ R.length from hlt)
      rw [Nat.succ_mul] at hend
      by_cases hroom : r * (len + 1) + 1 + len > final
      · rw [if_pos hroom]
        refine ⟨r, rfl, hr, fun hf _ => ?_⟩
        rw [hS.size] at hf
        omega
      rw [if_neg hroom]
      have hfilter : ((S.extract 0 q)[r * (len + 1)]?.getD 0).toNat = 0 := by
        rw [Deflate.getElem?_prefix hq, if_pos (by omega), hS.filter r hlt]
        rfl
      have hrow : (S.extract 0 q).extract (r * (len + 1) + 1) (r * (len + 1) + 1 + len) = R[r] := by
        rw [ByteArray.extract_extract, Nat.zero_add, Nat.zero_add, Nat.min_eq_left (by omega), hS.row r hlt]
      rw [hfilter, hrow, unfilter_zero]
      dsimp only
      rw [if_neg (fun h => hcolor h.2), rowsFound_push hlt]
      obtain ⟨r', h, hle, hall⟩ := ih (r + 1) hlt
      exact ⟨r', h, hle, fun hf hfuel => hall hf (by omega)⟩
    · rw [getElem?_neg places r (by omega)]
      exact ⟨r, rfl, hr, fun _ _ => by omega⟩

/-- A reading state over the first `m` bytes of the stored stream of `S`: the decoder rests in
that stream and the rows found are the first rows. -/
structure Reading.Over (S : ByteArray) (R : List ByteArray) (len m : Nat) (st : Reading) : Prop where
  input : st.input = (Deflate.zlibStored S).extract 0 m
  within : m ≤ (Deflate.zlibStored S).size
  decoder : Deflate.StoredAt S st.decoder
  rows : ∃ r ≤ R.length, st.rows = rowsFound R len r

theorem Reading.over_start : Reading.Over S R len 0 {} :=
  ⟨by simp, Nat.zero_le _, Deflate.StoredAt.start, 0, Nat.zero_le _, by simp [rowsFound]⟩

variable (hS : Unfiltered S R len) (hsize : places.size = R.length)
  (hwidth : ∀ p ∈ places, info.header.rowBytes p.width = len) (hcolor : info.header.colorType ≠ .indexed)
include hS hsize hwidth hcolor

/-- Decompressing the stored stream received so far never fails; when it reports every row
found, the rows are all the rows. -/
theorem decompress_over {m : Nat} : ∀ fuel st, Reading.Over S R len m st →
    ∃ st' complete, Reading.decompress info places fuel st = .ok (st', complete) ∧
      Reading.Over S R len m st' ∧ (complete = true → st'.rows = rowsFound R len R.length) := by
  intro fuel
  induction fuel with
  | zero => exact fun st hst => ⟨st, false, rfl, hst, by simp⟩
  | succ fuel ih =>
    intro st hst
    rw [Reading.decompress]
    split
    · exact ⟨st, false, rfl, hst, by simp⟩
    obtain ⟨d, stop, hcall, hd⟩ := hst.decoder.call hst.within
      (min (st.decoder.out.size + callGrowth) info.dataLimit)
    obtain ⟨k, hk, hout⟩ := hd.out_prefix
    obtain ⟨r, hr, hrows⟩ := hst.rows
    have hfinal : (if stop = Deflate.Stop.done ∨ d.out.size ≥ info.dataLimit then d.out.size
        else d.out.size - lookback) ≤ k := by
      have : d.out.size = k := by rw [hout, ByteArray.size_extract]; omega
      split <;> omega
    obtain ⟨r', hadv, hr', -⟩ := advance_unfiltered hS hsize hwidth hcolor hk (hout ▸ hfinal)
      (places.size + 1) r hr
    rw [hst.input]
    dsimp only
    rw [hcall]
    dsimp only
    rw [hrows, hout, hadv]
    dsimp only
    have hover : Reading.Over S R len m ⟨d, (Deflate.zlibStored S).extract 0 m, rowsFound R len r'⟩ :=
      ⟨rfl, hst.within, hd, r', hr', rfl⟩
    split
    · exact ⟨_, true, rfl, hover, fun _ => by
        simp [rowsFound] at *
        omega⟩
    split
    · exact ih _ hover
    · exact ⟨_, false, rfl, hover, by simp⟩

/-- At the end of the run the decoder is given the whole stream with room for the data: it
writes all of it, and every row is found. -/
theorem finish_over {st : Reading} (hst : Reading.Over S R len (Deflate.zlibStored S).size st)
    (hcap : info.dataLimit = S.size) :
    Reading.finish info places st = .ok (rowsFound R len R.length) := by
  obtain ⟨d, hcall, hout, -⟩ := hst.decoder.call_whole (show S.size ≤ info.dataLimit by omega)
  obtain ⟨r, hr, hrows⟩ := hst.rows
  obtain ⟨r', hadv, -, hall⟩ := advance_unfiltered hS hsize hwidth hcolor (le_refl S.size) (le_refl S.size)
    (places.size + 1) r hr
  have hr' := hall rfl (by omega)
  subst hr'
  rw [ByteArray.extract_zero_size] at hadv
  have hall_rows : ¬ (rowsFound R len R.length).done.size < places.size := by
    simp [rowsFound, hsize]
  rw [Reading.finish, hst.input, hcall]
  simp only [bne_self_eq_false, Bool.false_eq_true, false_and, if_false, hout, hrows, hadv, hall_rows]

end Advance

section RunEnd

variable {b : Buffered MemoryReader} {j : Array Record}

theorem dataCrcHolds_crcBytes (Z : ByteArray) : dataCrcHolds Z (Buffered.crcBytes .idat Z) = .ok () := by
  simp [dataCrcHolds, Buffered.crcBytes, beValue_crc]

/-- After the last image-data chunk, the rest of the run is its CRC and the end chunk. -/
theorem run_skipRun_last {D : ByteArray} (hb : b.rest = Buffered.crcBytes .idat D ++ chunkBytes .iend .empty)
    (fuel : Nat) :
    ∃ b', (((skipRun D (fuel + 1) : DecodeM MemoryReader _).run).run b).run j = ((.ok (), b'), j) := by
  obtain ⟨b₁, h₁, hr₁⟩ := Buffered.run_takeExact (j := j) hb
  obtain ⟨b₂, h₂, -⟩ := Buffered.run_readChunkHead_chunk (j := j) (B := .empty)
    (hr₁.trans ByteArray.append_empty.symm) rfl (by decide)
  refine ⟨b₂, ?_⟩
  change (((takeExact 4 : DecodeM MemoryReader _).run).run b).run j = _ at h₁
  rw [skipRun, run_bind_ok h₁, dataCrcHolds_crcBytes, run_bind_ok rfl, run_bind_ok h₂]
  rfl

/-- Past the rows, the rest of the run is read without decompressing: the CRC of the chunk read,
then every image-data chunk of the stream `Z` from `e` on, and the end chunk's head. -/
theorem run_skipRun {Z : ByteArray} : ∀ fuel e (D : ByteArray) (b : Buffered MemoryReader), e ≤ Z.size →
    Z.size - e ≤ fuel * dataChunkLimit →
    b.rest = Buffered.crcBytes .idat D ++ (dataChunksFrom Z e ++ chunkBytes .iend .empty) →
    ∃ b', (((skipRun D (fuel + 1) : DecodeM MemoryReader _).run).run b).run j = ((.ok (), b'), j) := by
  intro fuel
  induction fuel with
  | zero =>
    intro e D b he hfuel hb
    rw [dataChunksFrom_of_le (by omega), ByteArray.empty_append] at hb
    exact run_skipRun_last hb 0
  | succ fuel ih =>
    intro e D b he hfuel hb
    rcases Nat.lt_or_ge e Z.size with hlt | hge
    case inr =>
      rw [dataChunksFrom_of_le hge, ByteArray.empty_append] at hb
      exact run_skipRun_last hb (fuel + 1)
    rw [dataChunksFrom_of_lt hlt, ByteArray.append_assoc] at hb
    obtain ⟨b₁, h₁, hr₁⟩ := Buffered.run_takeExact (j := j) hb
    change (((takeExact 4 : DecodeM MemoryReader _).run).run b).run j = _ at h₁
    obtain ⟨b₂, h₂, hr₂⟩ := Buffered.run_readChunkHead_chunk (j := j) hr₁ rfl size_chunk_lt
    obtain ⟨b₃, h₃, hr₃⟩ := Buffered.run_takeExact (j := j) hr₂
    have hnext : Z.size - chunkEnd Z e ≤ fuel * dataChunkLimit := by
      rw [Nat.succ_mul] at hfuel
      unfold chunkEnd
      omega
    obtain ⟨b', h'⟩ := ih (chunkEnd Z e) _ b₃ chunkEnd_le hnext hr₃
    refine ⟨b', ?_⟩
    rw [skipRun, run_bind_ok h₁, dataCrcHolds_crcBytes, run_bind_ok rfl, run_bind_ok h₂]
    dsimp only
    rw [if_pos rfl, run_bind_ok h₃, h']

/-- Between two chunks of the run the decoder reads the CRC of the chunk read and the head of the
next chunk, four bytes at a time. -/
theorem run_crcHead {D d B : ByteArray} {t : ChunkType} (info : Info) (places : Array RowPlace) (st : Reading)
    (hb : b.rest = Buffered.crcBytes .idat D ++ (chunkBytes t d ++ B)) (ht : t.bytes.length = 4) :
    ∃ b₂ b₃ b₄,
      (((takeInRun info places st 4 : DecodeM MemoryReader _).run).run b).run j =
        ((.ok (Buffered.crcBytes .idat D), b₂), j) ∧
      (((takeInRun info places st 4 : DecodeM MemoryReader _).run).run b₂).run j =
        ((.ok ⟨(Bytes.be32 d.size).toArray⟩, b₃), j) ∧
      (((takeInRun info places st 4 : DecodeM MemoryReader _).run).run b₃).run j =
        ((.ok ⟨t.bytes.toArray⟩, b₄), j) ∧
      b₄.rest = d ++ (Buffered.crcBytes t d ++ B) := by
  have hb' : b.rest = Buffered.crcBytes .idat D ++ (⟨(Bytes.be32 d.size).toArray⟩ ++
      (⟨t.bytes.toArray⟩ ++ (d ++ (Buffered.crcBytes t d ++ B)))) := by
    rw [hb, chunkBytes]
    simp only [Buffered.crcBytes, ByteArray.append_assoc]
  obtain ⟨b₂, h₂, hr₂⟩ := Buffered.run_takeInRun (j := j) hb' info places st
  obtain ⟨b₃, h₃, hr₃⟩ := Buffered.run_takeInRun (j := j) hr₂ info places st
  obtain ⟨b₄, h₄, hr₄⟩ := Buffered.run_takeInRun (j := j) hr₃ info places st
  rw [show (⟨t.bytes.toArray⟩ : ByteArray).size = 4 by simpa using ht] at h₄
  exact ⟨b₂, b₃, b₄, h₂, h₃, h₄, hr₄⟩

/-- The stored stream reaches past its chunks only within the chunks' count. -/
theorem size_le_chunks {Z : ByteArray} (hZ : Z.size < chunkBound) (e : Nat) :
    Z.size - e ≤ (chunkBound - 1) * dataChunkLimit := by
  have hL : 0 < dataChunkLimit := by decide
  calc Z.size - e ≤ chunkBound - 1 := by omega
    _ ≤ (chunkBound - 1) * dataChunkLimit := Nat.le_mul_of_pos_right _ hL

end RunEnd

section Pieces

variable {S B : ByteArray} {R : List ByteArray} {len : Nat} {info : Info} {places : Array RowPlace}
  {j : Array Record}
variable (hS : Unfiltered S R len) (hsize : places.size = R.length)
  (hwidth : ∀ p ∈ places, info.header.rowBytes p.width = len) (hcolor : info.header.colorType ≠ .indexed)
include hS hsize hwidth hcolor

/-- Reading the pieces of the image-data chunk that holds bytes `c` to `e` of the stored stream,
from byte `m` on: each piece is handed to the decoder, until every row is found or the chunk ends. -/
theorem run_readPieces {c e : Nat} (he : e ≤ (Deflate.zlibStored S).size) :
    ∀ fuel m (st : Reading) (b : Buffered MemoryReader), Reading.Over S R len m st →
    c ≤ m → m < e → e - m < fuel → b.rest = (Deflate.zlibStored S).extract m e ++ B →
    ∃ m' st' complete b', (((readPieces info places (e - m)
        ((Deflate.zlibStored S).extract c m) st fuel : DecodeM MemoryReader _).run).run b).run j =
        ((.ok (st', (Deflate.zlibStored S).extract c m', complete), b'), j) ∧
      b'.rest = (Deflate.zlibStored S).extract m' e ++ B ∧ m < m' ∧ m' ≤ e ∧
      Reading.Over S R len m' st' ∧ (complete = true → st'.rows = rowsFound R len R.length) ∧
      (complete = false → m' = e) := by
  intro fuel
  induction fuel with
  | zero => intro m st b _ _ _ hfuel; omega
  | succ fuel ih =>
    intro m st b hst hcm hm hfuel hb
    obtain ⟨k, b₁, hk, hkn, hpiece, hr₁⟩ := Buffered.run_takePiece? (j := j) hb
      (n := e - m) (by omega) (by rw [ByteArray.size_extract]; omega)
    have hpiece_eq : ((Deflate.zlibStored S).extract m e).extract 0 k = (Deflate.zlibStored S).extract m (m + k) := by
      rw [ByteArray.extract_extract, Nat.add_zero, Nat.min_eq_left (by omega)]
    have hrest : ((Deflate.zlibStored S).extract m e).extract k ((Deflate.zlibStored S).extract m e).size =
        (Deflate.zlibStored S).extract (m + k) e := by
      rw [ByteArray.extract_extract, ByteArray.size_extract]
      congr 1
      omega
    have hinput : (Deflate.zlibStored S).extract 0 m ++ (Deflate.zlibStored S).extract m (m + k) =
        (Deflate.zlibStored S).extract 0 (m + k) :=
      (ByteArray.extract_eq_extract_append_extract m (Nat.zero_le m) (by omega)).symm
    have hchunk : (Deflate.zlibStored S).extract c m ++ (Deflate.zlibStored S).extract m (m + k) =
        (Deflate.zlibStored S).extract c (m + k) :=
      (ByteArray.extract_eq_extract_append_extract m hcm (by omega)).symm
    rw [hpiece_eq] at hpiece
    rw [hrest] at hr₁
    -- the piece joins what the decoder was given, which stays a prefix of the stream
    have hst₁ : Reading.Over S R len (m + k) { st with input := st.input ++ (Deflate.zlibStored S).extract m (m + k) } :=
      ⟨by rw [hst.input, hinput], by omega, hst.decoder, hst.rows⟩
    obtain ⟨st', complete, hdec, hover, hall⟩ := decompress_over hS hsize hwidth hcolor _ _ hst₁
    rw [readPieces, run_bind_ok hpiece]
    dsimp only
    rw [hdec, run_bind_ok rfl]
    dsimp only
    rw [hchunk, ByteArray.size_extract, Nat.min_eq_left (by omega)]
    by_cases hstop : complete = true ∨ e - m ≤ m + k - m
    · rw [if_pos hstop]
      refine ⟨m + k, st', complete, b₁, rfl, hr₁, by omega, by omega, hover, hall, fun hc => ?_⟩
      simp only [hc, Bool.false_eq_true, false_or] at hstop
      omega
    · rw [if_neg hstop, show e - m - (m + k - m) = e - (m + k) by omega]
      obtain ⟨m', st'', complete', b', h, hr, hlt, hle, hover', hall', hend'⟩ :=
        ih (m + k) st' b₁ hover (by omega) (by omega) (by omega) hr₁
      exact ⟨m', st'', complete', b', h, hr, by omega, hle, hover', hall', hend'⟩

/-- The run of image-data chunks from the one holding bytes from `c` of the stored stream, whose
head was read: every row is found, and the run ends at the end chunk. -/
theorem run_readRun (hcap : info.dataLimit = S.size) (hZ : (Deflate.zlibStored S).size < chunkBound) :
    ∀ fuel c (st : Reading) (b : Buffered MemoryReader), Reading.Over S R len c st →
    c < (Deflate.zlibStored S).size → (Deflate.zlibStored S).size - c ≤ fuel * dataChunkLimit →
    b.rest = (Deflate.zlibStored S).extract c (chunkEnd (Deflate.zlibStored S) c) ++
      (Buffered.crcBytes .idat ((Deflate.zlibStored S).extract c (chunkEnd (Deflate.zlibStored S) c)) ++
        (dataChunksFrom (Deflate.zlibStored S) (chunkEnd (Deflate.zlibStored S) c) ++ chunkBytes .iend .empty)) →
    ∃ b', (((readRun info places ((Deflate.zlibStored S).extract c (chunkEnd (Deflate.zlibStored S) c)).size st
      fuel : DecodeM MemoryReader _).run).run b).run j = ((.ok (rowsFound R len R.length).done, b'), j) := by
  intro fuel
  induction fuel with
  | zero => intro c st b _ hc hfuel; omega
  | succ fuel ih =>
    intro c st b hst hc hfuel hb
    have hce : c < chunkEnd (Deflate.zlibStored S) c := lt_chunkEnd hc
    have he : chunkEnd (Deflate.zlibStored S) c ≤ (Deflate.zlibStored S).size := chunkEnd_le
    obtain ⟨m, st', complete, b₁, h₁, hr₁, hcm, hme, hover, hall, hend⟩ := run_readPieces hS hsize hwidth hcolor
      (j := j) he (chunkEnd (Deflate.zlibStored S) c - c + 1) c st b hst le_rfl hce (by omega) hb
    rw [ByteArray.extract_same] at h₁
    rw [readRun, size_chunk, run_bind_ok h₁]
    dsimp only
    cases complete with
    | true =>
      obtain ⟨b₂, h₂, hr₂⟩ := Buffered.run_takeExact (j := j) hr₁
      have hsz : chunkEnd (Deflate.zlibStored S) c - c - ((Deflate.zlibStored S).extract c m).size =
          ((Deflate.zlibStored S).extract m (chunkEnd (Deflate.zlibStored S) c)).size := by
        rw [ByteArray.size_extract, ByteArray.size_extract, Nat.min_eq_left (le_trans hme he), Nat.min_eq_left he]
        exact Nat.sub_sub_sub_cancel_right (Nat.le_of_lt hcm)
      have hjoin : (Deflate.zlibStored S).extract c m ++
          (Deflate.zlibStored S).extract m (chunkEnd (Deflate.zlibStored S) c) =
          (Deflate.zlibStored S).extract c (chunkEnd (Deflate.zlibStored S) c) :=
        (ByteArray.extract_eq_extract_append_extract m (Nat.le_of_lt hcm) hme).symm
      obtain ⟨b₃, h₃⟩ := run_skipRun (j := j) (chunkBound - 1) _ _ b₂ he (size_le_chunks hZ _) hr₂
      rw [if_pos rfl, hsz, run_bind_ok h₂, hjoin, show chunkBound = chunkBound - 1 + 1 by decide, run_bind_ok h₃,
        hall rfl]
      exact ⟨b₃, rfl⟩
    | false =>
      have hm := hend rfl
      subst hm
      rw [ByteArray.extract_same, ByteArray.empty_append] at hr₁
      rcases Nat.lt_or_ge (chunkEnd (Deflate.zlibStored S) c) (Deflate.zlibStored S).size with hlt | hge
      case inl =>
        rw [dataChunksFrom_of_lt hlt] at hr₁
        generalize hD : (Deflate.zlibStored S).extract c (chunkEnd (Deflate.zlibStored S) c) = D at hr₁ ⊢
        generalize hD' : (Deflate.zlibStored S).extract (chunkEnd (Deflate.zlibStored S) c)
          (chunkEnd (Deflate.zlibStored S) (chunkEnd (Deflate.zlibStored S) c)) = D' at hr₁
        obtain ⟨b₂, b₃, b₄, h₂, h₃, h₄, hr₄⟩ := run_crcHead (j := j) info places st'
          (by rw [hr₁, ByteArray.append_assoc]) rfl
        have hnext : (Deflate.zlibStored S).size - chunkEnd (Deflate.zlibStored S) c ≤ fuel * dataChunkLimit := by
          rw [chunkEnd_of_lt hlt, ← Nat.sub_sub]
          exact Nat.sub_le_of_le_add (by rwa [Nat.succ_mul] at hfuel)
        obtain ⟨b', h'⟩ := ih _ st' b₄ hover hlt hnext (hD' ▸ hr₄)
        have hlen : Bytes.beValue (⟨(Bytes.be32 D'.size).toArray⟩ : ByteArray).data.toList = D'.size :=
          Bytes.beValue_be32 (hD' ▸ size_chunk_lt)
        rw [if_neg Bool.false_ne_true, run_bind_ok h₂, dataCrcHolds_crcBytes, run_bind_ok rfl, run_bind_ok h₃,
          run_bind_ok h₄]
        dsimp only
        rw [if_pos rfl, hlen, ← hD', h']
        exact ⟨b', rfl⟩
      case inr =>
        have hfull : chunkEnd (Deflate.zlibStored S) c = (Deflate.zlibStored S).size := Nat.le_antisymm he hge
        rw [dataChunksFrom_of_le hge, ByteArray.empty_append] at hr₁
        rw [hfull] at hover
        obtain ⟨b₂, b₃, b₄, h₂, h₃, h₄, -⟩ := run_crcHead (j := j) (B := .empty) info places st'
          (by rw [hr₁, ByteArray.append_empty]) rfl
        have hfin := finish_over hS hsize hwidth hcolor hover hcap
        rw [if_neg Bool.false_ne_true, run_bind_ok h₂, dataCrcHolds_crcBytes, run_bind_ok rfl, run_bind_ok h₃,
          run_bind_ok h₄, if_neg (by decide), hfin]
        exact ⟨_, rfl⟩

end Pieces

/-- The image data of the stored stream of unfiltered rows, in the chunks the encoder cuts it into,
each followed by its CRC, and then the end chunk, reads back as the rows expanded and placed. -/
theorem run_readFrame {S : ByteArray} {R : List ByteArray} {len : Nat} {info : Info} (strip16 : Bool)
    (hS : Unfiltered S R len) (hsize : info.header.rowPlaces.length = R.length)
    (hwidth : ∀ p ∈ info.header.rowPlaces, info.header.rowBytes p.width = len)
    (hcolor : info.header.colorType ≠ .indexed) (hcap : info.dataLimit = S.size)
    (hZ : (Deflate.zlibStored S).size < chunkBound) {b : Buffered MemoryReader} {j : Array Record}
    (hb : b.rest = (Deflate.zlibStored S).extract 0 (chunkEnd (Deflate.zlibStored S) 0) ++
      (Buffered.crcBytes .idat ((Deflate.zlibStored S).extract 0 (chunkEnd (Deflate.zlibStored S) 0)) ++
        (dataChunksFrom (Deflate.zlibStored S) (chunkEnd (Deflate.zlibStored S) 0) ++ chunkBytes .iend .empty))) :
    ∃ b', (((readFrame ⟨info, ((Deflate.zlibStored S).extract 0 (chunkEnd (Deflate.zlibStored S) 0)).size⟩ strip16 :
      DecodeM MemoryReader _).run).run b).run j = ((.ok (assemble info strip16 R), b'), j) := by
  have hpos : 0 < (Deflate.zlibStored S).size := by
    rw [Deflate.size_zlibStored]
    omega
  have hfuel : (Deflate.zlibStored S).size - 0 ≤ chunkBound * dataChunkLimit :=
    le_trans (size_le_chunks hZ 0) (Nat.mul_le_mul_right _ (Nat.sub_le _ _))
  obtain ⟨b', h⟩ := run_readRun (j := j) hS
    (show info.header.rowPlaces.toArray.size = R.length by simpa using hsize)
    (fun p hp => hwidth p (by simpa using hp)) hcolor hcap hZ chunkBound 0 {} b Reading.over_start hpos hfuel hb
  refine ⟨b', ?_⟩
  rw [readFrame, run_bind_ok h]
  simp only [rowsFound, List.take_length, List.toList_toArray]
  rfl

end Png

end Pixmap
