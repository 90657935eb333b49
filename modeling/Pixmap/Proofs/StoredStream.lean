import Pixmap.Deflate.Inflate
import Pixmap.Deflate.Compress
import Mathlib

/-! Inflating a stored zlib stream: on every prefix the decoder rests in one of a few states
(`StoredAt`), never fails, and on the whole stream writes all of it (`StoredAt.call_whole`). -/
namespace Pixmap

theorem ByteArray.extract_append_of_le {a b : ByteArray} {i j : Nat} (h : j ≤ a.size) :
    (a ++ b).extract i j = a.extract i j := by
  have hb : b.extract (i - a.size) 0 = ByteArray.empty := ByteArray.extract_eq_empty_iff.2 (by simp)
  rw [ByteArray.extract_append, Nat.sub_eq_zero_of_le h, hb, ByteArray.append_empty]

theorem ByteArray.getElem?_extract_of_lt {a : ByteArray} {p q t : Nat} (ht : t < (a.extract p q).size) :
    (a.extract p q)[t]? = a[p + t]? := by
  rw [getElem?_pos (a.extract p q) t ht, ByteArray.getElem_extract,
    getElem?_pos a (p + t) (ByteArray.getElem_extract_aux ht)]

theorem ByteArray.getElem?_of_extract_eq {a b : ByteArray} {p q t : Nat} (h : a.extract p q = b)
    (ht : t < b.size) : a[p + t]? = b[t]? := by
  subst h
  exact (ByteArray.getElem?_extract_of_lt ht).symm

namespace Deflate

section Layout

variable (data : ByteArray)

/-- The index of the last stored block. -/
def lastBlock : Nat := (data.size - 1) / storedLimit

/-- The bytes stored block `i` holds: a full block before the last one. -/
def blockLength (i : Nat) : Nat := min storedLimit (data.size - storedLimit * i)

/-- The bytes of stored block `i`. -/
def blockData (i : Nat) : ByteArray :=
  data.extract (storedLimit * i) (storedLimit * i + blockLength data i)

/-- The stored blocks from block `i` on. -/
def blocksFrom (i : Nat) : ByteArray := storedBlocks data (storedLimit * i) ByteArray.empty

/-- Where stored block `i` starts in the stream, after the two header bytes. -/
def blockStart (i : Nat) : Nat := 2 + (storedLimit + 5) * i

/-- Where the checksum starts, after the last block. -/
def checksumStart : Nat := blockStart (lastBlock data) + 5 + blockLength data (lastBlock data)

end Layout

variable {data : ByteArray} {i : Nat}

theorem storedBlocks_of_le {pos : Nat} (acc : ByteArray) (h : data.size ≤ pos + storedLimit) :
    storedBlocks data pos acc = acc ++ storedBlock true (data.extract pos data.size) := by
  rw [storedBlocks, dif_pos h]

theorem storedBlocks_of_lt {pos : Nat} (acc : ByteArray) (h : ¬ data.size ≤ pos + storedLimit) :
    storedBlocks data pos acc =
      storedBlocks data (pos + storedLimit) (acc ++ storedBlock false (data.extract pos (pos + storedLimit))) := by
  rw [storedBlocks, dif_neg h]

theorem storedBlocks_append (pos : Nat) (acc₁ acc₂ : ByteArray) :
    storedBlocks data pos (acc₁ ++ acc₂) = acc₁ ++ storedBlocks data pos acc₂ := by
  induction pos, acc₂ using storedBlocks.induct data with
  | case1 pos acc h =>
    rw [storedBlocks_of_le _ h, storedBlocks_of_le _ h, ByteArray.append_assoc]
  | case2 pos acc h ih =>
    rw [storedBlocks_of_lt _ h, storedBlocks_of_lt _ h, ByteArray.append_assoc, ih]

theorem lastBlock_le_iff : lastBlock data ≤ i ↔ data.size ≤ storedLimit * i + storedLimit := by
  unfold lastBlock storedLimit
  omega

theorem blockLength_of_lt (h : i < lastBlock data) : blockLength data i = storedLimit := by
  have : ¬ data.size ≤ storedLimit * i + storedLimit := fun h' => absurd (lastBlock_le_iff.2 h') (by omega)
  unfold blockLength
  omega

theorem blockLength_last : storedLimit * lastBlock data + blockLength data (lastBlock data) = data.size := by
  have : data.size ≤ storedLimit * lastBlock data + storedLimit := lastBlock_le_iff.1 le_rfl
  unfold blockLength lastBlock storedLimit at *
  omega

theorem blockEnd_le_checksumStart (hi : i ≤ lastBlock data) :
    blockStart i + 5 + blockLength data i ≤ checksumStart data := by
  rcases Nat.lt_or_eq_of_le hi with h | rfl
  · have : blockStart (i + 1) ≤ blockStart (lastBlock data) := by
      unfold blockStart
      exact Nat.add_le_add_left (Nat.mul_le_mul_left _ h) 2
    rw [blockLength_of_lt h]
    unfold checksumStart
    unfold blockStart at this ⊢
    rw [Nat.mul_succ] at this
    omega
  · exact le_rfl

theorem blockEnd_le (hi : i ≤ lastBlock data) : storedLimit * i + blockLength data i ≤ data.size := by
  have hlast : storedLimit * lastBlock data + blockLength data (lastBlock data) = data.size := blockLength_last
  rcases Nat.lt_or_eq_of_le hi with h | rfl
  · rw [blockLength_of_lt h]
    have : ¬ data.size ≤ storedLimit * i + storedLimit := fun h' => absurd (lastBlock_le_iff.2 h') (by omega)
    omega
  · omega

theorem size_blockData (i : Nat) (hi : i ≤ lastBlock data) : (blockData data i).size = blockLength data i := by
  have := blockEnd_le hi
  simp only [blockData, ByteArray.size_extract]
  omega

theorem blocksFrom_last : blocksFrom data (lastBlock data) = storedBlock true (blockData data (lastBlock data)) := by
  rw [blocksFrom, storedBlocks_of_le _ ((lastBlock_le_iff).1 le_rfl), ByteArray.empty_append,
    blockData, blockLength_last]

theorem blocksFrom_of_lt (h : i < lastBlock data) :
    blocksFrom data i = storedBlock false (blockData data i) ++ blocksFrom data (i + 1) := by
  have hnot : ¬ data.size ≤ storedLimit * i + storedLimit := fun h' => by
    have : lastBlock data ≤ i := lastBlock_le_iff.2 h'
    omega
  rw [blocksFrom, storedBlocks_of_lt _ hnot, ByteArray.empty_append,
    ← ByteArray.append_empty (b := storedBlock false _), storedBlocks_append, blockData,
    blockLength_of_lt h, blocksFrom, Nat.mul_succ]

theorem size_blocksFrom (i : Nat) (hi : i ≤ lastBlock data) :
    (blocksFrom data i).size = (storedLimit + 5) * (lastBlock data - i) + blockLength data (lastBlock data) + 5 := by
  induction h : lastBlock data - i generalizing i with
  | zero =>
    obtain rfl : i = lastBlock data := by omega
    rw [blocksFrom_last, storedBlock_size, size_blockData _ le_rfl]
    omega
  | succ k ih =>
    rw [blocksFrom_of_lt (by omega), ByteArray.size_append, storedBlock_size, size_blockData _ hi,
      blockLength_of_lt (by omega), ih (i + 1) (by omega) (by omega)]
    unfold storedLimit
    rw [Nat.mul_succ]
    omega

theorem extract_blocksFrom (k : Nat) : ∀ i, i + k ≤ lastBlock data →
    (blocksFrom data i).extract ((storedLimit + 5) * k) ((storedLimit + 5) * k + blockLength data (i + k) + 5) =
      storedBlock (i + k == lastBlock data) (blockData data (i + k)) := by
  induction k with
  | zero =>
    intro i hi
    simp only [Nat.add_zero, Nat.mul_zero, Nat.zero_add] at hi ⊢
    rcases Nat.lt_or_eq_of_le hi with h | rfl
    · rw [blocksFrom_of_lt h, Nat.add_comm, ← size_blockData _ hi, ← storedBlock_size false,
        ByteArray.extract_append_eq_left rfl, beq_eq_false_iff_ne.2 (Nat.ne_of_lt h)]
    · rw [blocksFrom_last, ← size_blockData _ le_rfl, ← storedBlock_size true,
        ByteArray.extract_zero_size, beq_self_eq_true]
  | succ k ih =>
    intro i hi
    have hsize : (storedBlock false (blockData data i)).size = storedLimit + 5 := by
      rw [storedBlock_size, size_blockData _ (by omega), blockLength_of_lt (by omega)]
    rw [blocksFrom_of_lt (by omega), Nat.mul_succ, Nat.add_comm ((storedLimit + 5) * k),
      Nat.add_assoc (storedLimit + 5), Nat.add_assoc (storedLimit + 5),
      ByteArray.extract_append_size_add' hsize.symm, ← Nat.add_assoc, Nat.add_right_comm i k 1,
      ih (i + 1) (by omega)]

theorem zlibStored_eq :
    zlibStored data = zlibHeader ++ blocksFrom data 0 ++ ⟨(Bytes.be32 (Adler32.of data)).toArray⟩ := by
  have h : storedBlocks data 0 (zlibHeader ++ ByteArray.empty) = zlibHeader ++ storedBlocks data 0 ByteArray.empty :=
    storedBlocks_append 0 zlibHeader ByteArray.empty
  rw [ByteArray.append_empty] at h
  rw [zlibStored, h, blocksFrom, Nat.mul_zero]

theorem size_zlibStored : (zlibStored data).size = checksumStart data + 4 := by
  rw [zlibStored_eq, ByteArray.size_append, ByteArray.size_append, size_blocksFrom 0 (Nat.zero_le _),
    checksumStart, blockStart, Nat.sub_zero]
  simp [zlibHeader, Bytes.be32]
  omega

theorem extract_zlibStored_header : (zlibStored data).extract 0 2 = zlibHeader := by
  rw [zlibStored_eq, ByteArray.append_assoc,
    ByteArray.extract_append_eq_left (show 2 = zlibHeader.size from rfl)]

theorem extract_zlibStored_block (hi : i ≤ lastBlock data) :
    (zlibStored data).extract (blockStart i) (blockStart i + blockLength data i + 5) =
      storedBlock (i == lastBlock data) (blockData data i) := by
  have hle : (storedLimit + 5) * i + blockLength data i + 5 ≤ (blocksFrom data 0).size := by
    rw [size_blocksFrom 0 (Nat.zero_le _), Nat.sub_zero]
    rcases Nat.lt_or_eq_of_le hi with h | rfl
    · rw [blockLength_of_lt h]
      have : (storedLimit + 5) * (i + 1) ≤ (storedLimit + 5) * lastBlock data :=
        Nat.mul_le_mul_left _ (by omega)
      rw [Nat.mul_succ] at this
      omega
    · omega
  rw [zlibStored_eq, ByteArray.append_assoc, blockStart, Nat.add_assoc 2, Nat.add_assoc 2,
    ByteArray.extract_append_size_add' (show 2 = zlibHeader.size from rfl), ByteArray.extract_append_of_le hle]
  simpa using extract_blocksFrom i 0 (show 0 + i ≤ lastBlock data by omega)

/-! ### Reading bits -/

section Bits

variable {src : ByteArray} {pos n : Nat}

theorem bitsAt?_eq (src : ByteArray) (pos n : Nat) :
    bitsAt? src pos n = if pos + n ≤ 8 * src.size then some (bitsPadded src pos n) else none := rfl

/-- Bits read after a start value shift it past them. -/
theorem foldr_double_add (g : Nat → Nat) (l : List Nat) (init : Nat) :
    l.foldr (fun k acc => acc * 2 + g k) init =
      l.foldr (fun k acc => acc * 2 + g k) 0 + init * 2 ^ l.length := by
  induction l with
  | nil => simp
  | cons k l ih =>
    simp only [List.foldr_cons, List.length_cons, ih, Nat.pow_succ]
    ring

/-- Reading `a + b` bits reads `a` bits, then `b` bits worth `2 ^ a` each. -/
theorem bitsPadded_add (src : ByteArray) (pos a b : Nat) :
    bitsPadded src pos (a + b) = bitsPadded src pos a + 2 ^ a * bitsPadded src (pos + a) b := by
  unfold bitsPadded
  rw [List.range_add, List.foldr_append, foldr_double_add, List.foldr_map, List.length_range]
  simp only [Nat.add_assoc]
  ring

/-- The eight bits of an aligned byte are its value. -/
theorem bitsPadded_byte (src : ByteArray) (c : Nat) : bitsPadded src (8 * c) 8 = (src[c]?.getD 0).toNat := by
  have hbyte : ∀ v < 256,
      (List.range 8).foldr (fun k acc => acc * 2 + if v >>> k % 2 = 1 then 1 else 0) 0 = v := by
    decide +kernel
  unfold bitsPadded
  rw [List.foldr_ext _ (fun k acc => acc * 2 + if (src[c]?.getD 0).toNat >>> k % 2 = 1 then 1 else 0)]
  · exact hbyte _ (src[c]?.getD 0).toNat_lt
  · intro k hk acc
    have hk : k < 8 := List.mem_range.1 hk
    rw [show (8 * c + k) / 8 = c by omega, show (8 * c + k) % 8 = k by omega]

/-- Sixteen aligned bits are a little-endian number of two bytes. -/
theorem bitsPadded_le16 (src : ByteArray) (c : Nat) :
    bitsPadded src (8 * c) 16 = (src[c]?.getD 0).toNat + 256 * (src[c + 1]?.getD 0).toNat := by
  rw [show 16 = 8 + 8 from rfl, bitsPadded_add, bitsPadded_byte, show 8 * c + 8 = 8 * (c + 1) by ring,
    bitsPadded_byte]
  rfl

/-- Bits within the first `m` bytes read the same in those bytes alone. -/
theorem bitsPadded_extract {a : ByteArray} {m : Nat} (ha : m ≤ a.size) (h : pos + n ≤ 8 * m) :
    bitsPadded (a.extract 0 m) pos n = bitsPadded a pos n := by
  unfold bitsPadded
  refine List.foldr_ext _ _ _ fun k hk acc => ?_
  have hk : k < n := List.mem_range.1 hk
  have hlt : (pos + k) / 8 < (a.extract 0 m).size := by
    rw [ByteArray.size_extract]
    omega
  rw [ByteArray.getElem?_extract_of_lt hlt, Nat.zero_add]

theorem bitsPadded_header_bits (src : ByteArray) (c : Nat) :
    bitsPadded src (8 * c) 1 + 2 * bitsPadded src (8 * c + 1) 2 + 8 * bitsPadded src (8 * c + 3) 5 =
      (src[c]?.getD 0).toNat := by
  rw [← bitsPadded_byte, show 8 = 1 + 2 + 5 from rfl, bitsPadded_add, bitsPadded_add, Nat.add_assoc (8 * c) 1 2]
  ring

/-- Bits of a prefix of `a`: those within it as in `a`, none past it. -/
theorem bitsAt?_prefix {a : ByteArray} {m : Nat} (ha : m ≤ a.size) (pos n : Nat) :
    bitsAt? (a.extract 0 m) pos n = if pos + n ≤ 8 * m then some (bitsPadded a pos n) else none := by
  have hsize : (a.extract 0 m).size = m := by
    rw [ByteArray.size_extract]
    omega
  rw [bitsAt?_eq, hsize]
  split
  · next h => rw [bitsPadded_extract ha h]
  · rfl

end Bits

/-! ### The bytes of a stored stream -/

/-- The five header bytes of a stored block: the final flag, then the length and its
complement, low byte first. -/
def blockHeaderBytes (final : Bool) (len : Nat) : ByteArray :=
  ⟨#[if final then 1 else 0, (len % 256).toUInt8, (len / 256 % 256).toUInt8,
    ((storedLimit - len) % 256).toUInt8, ((storedLimit - len) / 256 % 256).toUInt8]⟩

theorem blockHeaderBytes_bytes (final : Bool) (len : Nat) :
    (blockHeaderBytes final len)[0]? = some (if final then 1 else 0) ∧
      (blockHeaderBytes final len)[1]? = some (len % 256).toUInt8 ∧
      (blockHeaderBytes final len)[2]? = some (len / 256 % 256).toUInt8 ∧
      (blockHeaderBytes final len)[3]? = some ((storedLimit - len) % 256).toUInt8 ∧
      (blockHeaderBytes final len)[4]? = some ((storedLimit - len) / 256 % 256).toUInt8 :=
  ⟨rfl, rfl, rfl, rfl, rfl⟩

theorem size_blockHeaderBytes (final : Bool) (len : Nat) : (blockHeaderBytes final len).size = 5 := rfl

theorem storedBlock_eq (final : Bool) (piece : ByteArray) :
    storedBlock final piece = blockHeaderBytes final piece.size ++ piece := by
  simp only [storedBlock, blockHeaderBytes, Bytes.le16]
  rfl

theorem extract_zlibStored_blockHeader (hi : i ≤ lastBlock data) :
    (zlibStored data).extract (blockStart i) (blockStart i + 5) =
      blockHeaderBytes (i == lastBlock data) (blockLength data i) := by
  have h := congrArg (fun a : ByteArray => a.extract 0 5) (extract_zlibStored_block hi)
  simp only [ByteArray.extract_extract, Nat.add_zero] at h
  rw [Nat.min_eq_left (by omega)] at h
  rw [h, storedBlock_eq, size_blockData _ hi,
    ByteArray.extract_append_eq_left (show 5 = (blockHeaderBytes _ _).size from rfl)]

theorem extract_zlibStored_blockData (hi : i ≤ lastBlock data) {t n : Nat} (htn : t + n ≤ blockLength data i) :
    (zlibStored data).extract (blockStart i + 5 + t) (blockStart i + 5 + t + n) =
      data.extract (storedLimit * i + t) (storedLimit * i + t + n) := by
  have h := congrArg (fun a : ByteArray => a.extract (5 + t) (5 + t + n)) (extract_zlibStored_block hi)
  simp only [ByteArray.extract_extract] at h
  rw [Nat.min_eq_left (by omega)] at h
  rw [show blockStart i + 5 + t + n = blockStart i + (5 + t + n) by omega, Nat.add_assoc _ 5 t, h,
    storedBlock_eq, Nat.add_assoc 5 t n,
    ByteArray.extract_append_size_add' (show 5 = (blockHeaderBytes _ _).size from rfl), blockData,
    ByteArray.extract_extract, Nat.min_eq_left (by omega), Nat.add_assoc]

theorem blockLength_le (data : ByteArray) (i : Nat) : blockLength data i ≤ storedLimit :=
  Nat.min_le_left _ _

/-- The first bit of a stored block marks the last block, the next two give type 0. -/
theorem bitsPadded_blockFlag (hi : i ≤ lastBlock data) :
    bitsPadded (zlibStored data) (8 * blockStart i) 1 = (if i = lastBlock data then 1 else 0) ∧
      bitsPadded (zlibStored data) (8 * blockStart i + 1) 2 = 0 := by
  have hbyte := ByteArray.getElem?_of_extract_eq (t := 0) (extract_zlibStored_blockHeader hi)
    (by simp [size_blockHeaderBytes])
  have hbits := bitsPadded_header_bits (zlibStored data) (blockStart i)
  rw [Nat.add_zero] at hbyte
  rw [hbyte, (blockHeaderBytes_bytes _ _).1] at hbits
  by_cases hl : i = lastBlock data
  · simp only [hl, beq_self_eq_true, if_true] at hbits ⊢
    simp at hbits
    omega
  · simp only [hl, if_false, beq_eq_false_iff_ne.2 hl] at hbits ⊢
    simp at hbits
    omega

/-- The two little-endian lengths after a stored block's first byte. -/
theorem bitsPadded_blockLength (hi : i ≤ lastBlock data) :
    bitsPadded (zlibStored data) (8 * (blockStart i + 1)) 16 = blockLength data i ∧
      bitsPadded (zlibStored data) (8 * (blockStart i + 1) + 16) 16 = storedLimit - blockLength data i := by
  have hb := extract_zlibStored_blockHeader hi
  obtain ⟨-, b1, b2, b3, b4⟩ := blockHeaderBytes_bytes (i == lastBlock data) (blockLength data i)
  have h1 := ByteArray.getElem?_of_extract_eq (t := 1) hb (by simp [size_blockHeaderBytes])
  have h2 := ByteArray.getElem?_of_extract_eq (t := 2) hb (by simp [size_blockHeaderBytes])
  have h3 := ByteArray.getElem?_of_extract_eq (t := 3) hb (by simp [size_blockHeaderBytes])
  have h4 := ByteArray.getElem?_of_extract_eq (t := 4) hb (by simp [size_blockHeaderBytes])
  have hle := blockLength_le data i
  rw [show 8 * (blockStart i + 1) + 16 = 8 * (blockStart i + 3) by ring, bitsPadded_le16, bitsPadded_le16,
    Nat.add_assoc, Nat.add_assoc, show 1 + 1 = 2 from rfl, show 3 + 1 = 4 from rfl, h1, h2, h3, h4,
    b1, b2, b3, b4]
  simp only [Option.getD_some, Nat.toUInt8, UInt8.toNat_ofNat', storedLimit] at hle ⊢
  omega

/-! ### Steps of the decoder -/

section Steps

variable {src : ByteArray} {limit fuel drawn : Nat} {out : ByteArray}

theorem alignUp_mul (c : Nat) : alignUp (8 * c) = 8 * c := by
  unfold alignUp
  omega

/-- A step inside a stored block copies what the input and the limit allow of what is left. -/
theorem run_stored_step {p left n : Nat} {last : Bool}
    (hn : n = min left (min (src.size - p) (limit - out.size))) :
    run src limit (fuel + 1) ⟨.stored left last, 8 * p, out, .nothing, drawn⟩ =
      if n < left then
        .stopped ⟨.stored (left - n) last, 8 * (p + n), out ++ src.extract p (p + n), .nothing,
          max drawn (p + n)⟩ (if (out ++ src.extract p (p + n)).size ≥ limit then .full else .waiting)
      else
        run src limit fuel ⟨if last then .checksum else .blockHeader, 8 * (p + n),
          out ++ src.extract p (p + n), .nothing, max drawn (p + n)⟩ := by
  have h8 : 8 * p / 8 = p := by omega
  simp only [run, h8, ← hn]
  rw [show 8 * p + 8 * n = 8 * (p + n) by ring, show 8 * (p + n) / 8 = p + n by omega]

end Steps

theorem run_checksum_step (src : ByteArray) (limit fuel : Nat) (out : ByteArray) (drawn c : Nat) :
    ∃ drawn', run src limit (fuel + 1) ⟨.checksum, 8 * c, out, .nothing, drawn⟩ =
      if c + 4 ≤ src.size then .stopped ⟨.done, 8 * c + 32, out, .nothing, drawn'⟩ .done
      else .stopped ⟨.checksum, 8 * c, out, .nothing, drawn'⟩ .waiting := by
  refine ⟨max drawn (min src.size ((8 * c + 63) / 8)), ?_⟩
  simp only [run, Decoder.draw, alignUp_mul]
  by_cases h : c + 4 ≤ src.size
  · rw [if_pos (by omega), if_pos h]
  · rw [if_neg (by omega), if_neg h]

theorem run_done_step (src : ByteArray) (limit fuel : Nat) (out : ByteArray) (drawn pos : Nat) :
    ∃ drawn', run src limit (fuel + 1) ⟨.done, pos, out, .nothing, drawn⟩ =
      .stopped ⟨.done, pos, out, .nothing, drawn'⟩ .done :=
  ⟨_, rfl⟩

section StoredSteps

variable {data : ByteArray} {m : Nat} (limit fuel drawn : Nat) (out : ByteArray)

theorem getElem?_prefix {a : ByteArray} (ha : m ≤ a.size) (j : Nat) :
    (a.extract 0 m)[j]? = if j < m then a[j]? else none := by
  split
  · next h =>
    rw [ByteArray.getElem?_extract_of_lt (by rw [ByteArray.size_extract]; omega), Nat.zero_add]
  · next h =>
    exact getElem?_neg (a.extract 0 m) j (by rw [ByteArray.size_extract]; omega)

theorem run_zlibHeader_step (hm : m ≤ (zlibStored data).size) :
    ∃ drawn', run ((zlibStored data).extract 0 m) limit (fuel + 1) ⟨.zlibHeader, 0, out, .nothing, drawn⟩ =
      if 2 ≤ m then
        run ((zlibStored data).extract 0 m) limit fuel ⟨.blockHeader, 16, out, .nothing, drawn'⟩
      else .stopped ⟨.zlibHeader, 0, out, .nothing, drawn'⟩ .waiting := by
  have hhead : (zlibStored data).extract 0 2 = zlibHeader := extract_zlibStored_header
  have h0 := ByteArray.getElem?_of_extract_eq (t := 0) hhead (by decide)
  have h1 := ByteArray.getElem?_of_extract_eq (t := 1) hhead (by decide)
  refine ⟨max drawn (min ((zlibStored data).extract 0 m).size ((0 + 63) / 8)), ?_⟩
  simp only [run, Decoder.draw, getElem?_prefix hm]
  rw [Nat.add_zero] at h0
  rw [Nat.zero_add] at h1
  rcases Nat.lt_or_ge m 2 with h | h
  · rw [if_neg (show ¬ 2 ≤ m by omega)]
    by_cases h0m : 0 < m
    · rw [if_pos h0m, if_neg (show ¬ 1 < m by omega), h0]
      rfl
    · rw [if_neg h0m]
  · rw [if_pos (show 0 < m by omega), if_pos (show 1 < m by omega), if_pos h, h0, h1]
    rfl

theorem size_extract_front {a : ByteArray} (ha : m ≤ a.size) : (a.extract 0 m).size = m := by
  rw [ByteArray.size_extract]
  omega

theorem run_blockHeader_step (hm : m ≤ (zlibStored data).size) {i : Nat} (hi : i ≤ lastBlock data) :
    ∃ drawn', run ((zlibStored data).extract 0 m) limit (fuel + 1)
        ⟨.blockHeader, 8 * blockStart i, out, .nothing, drawn⟩ =
      if blockStart i + 5 ≤ m then
        run ((zlibStored data).extract 0 m) limit fuel ⟨.stored (blockLength data i) (i == lastBlock data),
          8 * (blockStart i + 5), out, .nothing, drawn'⟩
      else .stopped ⟨.blockHeader, 8 * blockStart i, out, .nothing, drawn'⟩ .waiting := by
  refine ⟨max drawn (min ((zlibStored data).extract 0 m).size ((8 * blockStart i + 63) / 8)), ?_⟩
  obtain ⟨hflag, htype⟩ := bitsPadded_blockFlag hi
  obtain ⟨hlen, hnlen⟩ := bitsPadded_blockLength hi
  have halign : alignUp (8 * blockStart i + 3) = 8 * (blockStart i + 1) := by
    unfold alignUp
    omega
  simp only [run, Decoder.draw, bitsLeft, size_extract_front hm, halign, bitsAt?_prefix hm]
  by_cases h2 : blockStart i + 2 ≤ m
  · rw [if_neg (show ¬ 8 * m - 8 * blockStart i < 10 by omega),
      if_pos (show 8 * blockStart i + 1 + 2 ≤ 8 * m by omega), Option.getD_some, htype]
    by_cases h5 : blockStart i + 5 ≤ m
    · rw [if_pos (show 8 * (blockStart i + 1) + 16 ≤ 8 * m by omega),
        if_pos (show 8 * (blockStart i + 1) + 16 + 16 ≤ 8 * m by omega), hlen, hnlen,
        if_pos (show 8 * blockStart i + 1 ≤ 8 * m by omega), Option.getD_some, hflag, if_pos h5]
      have hlast : decide ((if i = lastBlock data then 1 else 0) = 1) = (i == lastBlock data) := by
        by_cases h : i = lastBlock data <;> simp [h]
      dsimp only
      simp only [storedLimit, bne_self_eq_false, Bool.false_eq_true, if_false, hlast]
      rw [show 8 * (blockStart i + 1) + 32 = 8 * (blockStart i + 5) by ring]
    · rw [if_neg h5]
      by_cases h3 : blockStart i + 3 ≤ m
      · rw [if_pos (show 8 * (blockStart i + 1) + 16 ≤ 8 * m by omega),
          if_neg (show ¬ 8 * (blockStart i + 1) + 16 + 16 ≤ 8 * m by omega)]
        rfl
      · rw [if_neg (show ¬ 8 * (blockStart i + 1) + 16 ≤ 8 * m by omega)]
        rfl
  · rw [if_pos (show 8 * m - 8 * blockStart i < 10 by omega), if_neg (show ¬ blockStart i + 5 ≤ m by omega)]

end StoredSteps

/-! ### Where the decoder rests -/

section States

variable (data : ByteArray)

/-- The decoder before stored block `i`, with the blocks before it copied. -/
def blockState (i drawn : Nat) : Decoder :=
  ⟨.blockHeader, 8 * blockStart i, data.extract 0 (storedLimit * i), .nothing, drawn⟩

/-- The decoder inside stored block `i`, with `t` of its bytes copied. -/
def copyState (i t drawn : Nat) : Decoder :=
  ⟨.stored (blockLength data i - t) (i == lastBlock data), 8 * (blockStart i + 5 + t),
    data.extract 0 (storedLimit * i + t), .nothing, drawn⟩

/-- The decoder before the checksum, with all the data copied. -/
def checksumState (drawn : Nat) : Decoder := ⟨.checksum, 8 * checksumStart data, data, .nothing, drawn⟩

/-- The decoder after stored block `i`: before the next block, or before the checksum. -/
def endState (i drawn : Nat) : Decoder :=
  if i = lastBlock data then checksumState data drawn else blockState data (i + 1) drawn

end States

/-- The states a decoder rests in while it inflates the stored stream of `data`: before the
header, before a block, inside a block, before the checksum, and done. -/
inductive StoredAt (data : ByteArray) : Decoder → Prop
  | header (drawn : Nat) : StoredAt data ⟨.zlibHeader, 0, ByteArray.empty, .nothing, drawn⟩
  | block (i drawn : Nat) (hi : i ≤ lastBlock data) : StoredAt data (blockState data i drawn)
  | copy (i t drawn : Nat) (hi : i ≤ lastBlock data) (ht : t ≤ blockLength data i) :
      StoredAt data (copyState data i t drawn)
  | checksum (drawn : Nat) : StoredAt data (checksumState data drawn)
  | done (pos drawn : Nat) : StoredAt data ⟨.done, pos, data, .nothing, drawn⟩

theorem StoredAt.endState (hi : i ≤ lastBlock data) (drawn : Nat) : StoredAt data (endState data i drawn) := by
  unfold Deflate.endState
  split
  · exact .checksum drawn
  · exact .block (i + 1) drawn (by omega)

section StateSteps

variable {m : Nat} (limit fuel drawn : Nat)

theorem run_blockState (hm : m ≤ (zlibStored data).size) (hi : i ≤ lastBlock data) :
    ∃ drawn', run ((zlibStored data).extract 0 m) limit (fuel + 1) (blockState data i drawn) =
      if blockStart i + 5 ≤ m then run ((zlibStored data).extract 0 m) limit fuel (copyState data i 0 drawn')
      else .stopped (blockState data i drawn') .waiting := by
  obtain ⟨drawn', h⟩ := run_blockHeader_step limit fuel drawn (data.extract 0 (storedLimit * i)) hm hi
  refine ⟨drawn', ?_⟩
  rw [blockState, h]
  simp only [copyState, blockState, Nat.sub_zero, Nat.add_zero]

/-- A prefix of the stored stream holds the bytes of a block that it reaches. -/
theorem extract_prefix_blockData (hi : i ≤ lastBlock data) {t n : Nat}
    (htn : t + n ≤ blockLength data i) (hn : n ≤ m - (blockStart i + 5 + t)) :
    ((zlibStored data).extract 0 m).extract (blockStart i + 5 + t) (blockStart i + 5 + t + n) =
      data.extract (storedLimit * i + t) (storedLimit * i + t + n) := by
  rw [ByteArray.extract_extract, Nat.zero_add, Nat.zero_add]
  rcases Nat.eq_zero_or_pos n with rfl | hpos
  · simp
  · rw [Nat.min_eq_left (by omega), extract_zlibStored_blockData hi htn]

theorem run_copyState (hm : m ≤ (zlibStored data).size) (hi : i ≤ lastBlock data) {t n : Nat}
    (ht : t ≤ blockLength data i)
    (hn : n = min (blockLength data i - t) (min (m - (blockStart i + 5 + t)) (limit - (storedLimit * i + t)))) :
    ∃ drawn', run ((zlibStored data).extract 0 m) limit (fuel + 1) (copyState data i t drawn) =
      if n < blockLength data i - t then
        .stopped (copyState data i (t + n) drawn') (if limit ≤ storedLimit * i + t + n then .full else .waiting)
      else run ((zlibStored data).extract 0 m) limit fuel (endState data i drawn') := by
  have hend := blockEnd_le hi
  have hout : (data.extract 0 (storedLimit * i + t)).size = storedLimit * i + t := by
    rw [ByteArray.size_extract]
    omega
  have hcopy : data.extract 0 (storedLimit * i + t) ++
      ((zlibStored data).extract 0 m).extract (blockStart i + 5 + t) (blockStart i + 5 + t + n) =
      data.extract 0 (storedLimit * i + t + n) := by
    rw [extract_prefix_blockData hi (by omega) (by omega), ByteArray.extract_append_extract,
      Nat.min_eq_left (Nat.zero_le _), Nat.max_eq_right (by omega)]
  refine ⟨max drawn (blockStart i + 5 + t + n), ?_⟩
  rw [copyState, run_stored_step (n := n) (by rw [size_extract_front hm, hout]; exact hn), hcopy]
  by_cases hlt : n < blockLength data i - t
  · rw [if_pos hlt, if_pos hlt, ByteArray.size_extract, copyState, Nat.sub_sub,
      Nat.min_eq_left (show storedLimit * i + t + n ≤ data.size by omega), Nat.sub_zero,
      ← Nat.add_assoc _ t n, ← Nat.add_assoc _ t n]
  · rw [if_neg hlt, if_neg hlt]
    have hfull : t + n = blockLength data i := by omega
    unfold Deflate.endState
    by_cases hl : i = lastBlock data
    · subst hl
      rw [if_pos rfl, beq_self_eq_true, if_pos rfl, checksumState, checksumStart, Nat.add_assoc _ t n, hfull,
        Nat.add_assoc _ t n, hfull, blockLength_last, ByteArray.extract_zero_size]
    · rw [beq_eq_false_iff_ne.2 hl, if_neg Bool.false_ne_true, if_neg hl, blockState,
        Nat.add_assoc _ t n, hfull, blockLength_of_lt (by omega), Nat.add_assoc _ t n, hfull,
        blockLength_of_lt (by omega), blockStart, blockStart, Nat.mul_succ, Nat.mul_succ]
      ring_nf

end StateSteps

/-! ### Runs -/

section Runs

variable {d : Decoder} {m limit : Nat}

theorem blockState_zero (data : ByteArray) (drawn : Nat) :
    blockState data 0 drawn = ⟨.blockHeader, 16, ByteArray.empty, .nothing, drawn⟩ := by
  simp [blockState, blockStart]

theorem StoredAt.owed (hd : StoredAt data d) : d.owed = .nothing := by
  cases hd <;> rfl

theorem StoredAt.start : StoredAt data {} := .header 0

/-- Whatever the decoder has written is a prefix of the data. -/
theorem StoredAt.out_prefix (hd : StoredAt data d) : ∃ k ≤ data.size, d.out = data.extract 0 k := by
  cases hd with
  | header => exact ⟨0, Nat.zero_le _, by simp⟩
  | block i drawn hi =>
    have := blockEnd_le hi
    exact ⟨storedLimit * i, by omega, rfl⟩
  | copy i t drawn hi ht =>
    have := blockEnd_le hi
    exact ⟨storedLimit * i + t, by omega, rfl⟩
  | checksum => exact ⟨data.size, le_rfl, by simp [checksumState]⟩
  | done => exact ⟨data.size, le_rfl, by simp⟩

/-- On any prefix of the stored stream, a run from a resting state stops in a resting state:
it never fails. -/
theorem StoredAt.run_stops (hm : m ≤ (zlibStored data).size) (limit : Nat) :
    ∀ fuel d, StoredAt data d →
      ∃ d' why, run ((zlibStored data).extract 0 m) limit fuel d = .stopped d' why ∧ StoredAt data d' := by
  intro fuel
  induction fuel with
  | zero => exact fun d hd => ⟨d, .waiting, rfl, hd⟩
  | succ fuel ih =>
    intro d hd
    cases hd with
    | header drawn =>
      obtain ⟨drawn', h⟩ := run_zlibHeader_step limit fuel drawn ByteArray.empty hm
      rw [h]
      split
      · exact ih _ (blockState_zero data drawn' ▸ .block 0 drawn' (Nat.zero_le _))
      · exact ⟨_, _, rfl, .header drawn'⟩
    | block i drawn hi =>
      obtain ⟨drawn', h⟩ := run_blockState limit fuel drawn hm hi
      rw [h]
      split
      · exact ih _ (.copy i 0 drawn' hi (Nat.zero_le _))
      · exact ⟨_, _, rfl, .block i drawn' hi⟩
    | copy i t drawn hi ht =>
      obtain ⟨drawn', h⟩ := run_copyState limit fuel drawn hm hi ht rfl
      rw [h]
      split
      · exact ⟨_, _, rfl, .copy i _ drawn' hi (by omega)⟩
      · exact ih _ (.endState hi drawn')
    | checksum drawn =>
      obtain ⟨drawn', h⟩ := run_checksum_step ((zlibStored data).extract 0 m) limit fuel data drawn
        (checksumStart data)
      rw [checksumState, h]
      split
      · exact ⟨_, _, rfl, .done _ drawn'⟩
      · exact ⟨_, _, rfl, .checksum drawn'⟩
    | done pos drawn =>
      obtain ⟨drawn', h⟩ := run_done_step ((zlibStored data).extract 0 m) limit fuel data drawn pos
      rw [h]
      exact ⟨_, _, rfl, .done pos drawn'⟩

/-- A run over the whole stream that reaches its end with all the data written. -/
def RunsToEnd (data : ByteArray) (limit fuel : Nat) (d : Decoder) : Prop :=
  ∃ d', run ((zlibStored data).extract 0 (zlibStored data).size) limit fuel d = .stopped d' .done ∧
    d'.out = data ∧ StoredAt data d'

theorem runsToEnd_checksumState (fuel drawn : Nat) : RunsToEnd data limit (fuel + 1) (checksumState data drawn) := by
  obtain ⟨drawn', h⟩ := run_checksum_step ((zlibStored data).extract 0 (zlibStored data).size) limit fuel data
    drawn (checksumStart data)
  rw [RunsToEnd, checksumState, h, if_pos (by rw [size_extract_front le_rfl, size_zlibStored])]
  exact ⟨_, rfl, rfl, .done _ drawn'⟩

theorem RunsToEnd.step {fuel : Nat} {d d' : Decoder}
    (h : run ((zlibStored data).extract 0 (zlibStored data).size) limit (fuel + 1) d =
      run ((zlibStored data).extract 0 (zlibStored data).size) limit fuel d')
    (h' : RunsToEnd data limit fuel d') : RunsToEnd data limit (fuel + 1) d := by
  rw [RunsToEnd, h]
  exact h'

/-- With the whole stream at hand a block header is read at once. -/
theorem run_blockState_whole (hi : i ≤ lastBlock data) (limit fuel drawn : Nat) :
    ∃ drawn', run ((zlibStored data).extract 0 (zlibStored data).size) limit (fuel + 1) (blockState data i drawn) =
      run ((zlibStored data).extract 0 (zlibStored data).size) limit fuel (copyState data i 0 drawn') := by
  obtain ⟨drawn', h⟩ := run_blockState limit fuel drawn le_rfl hi
  have := blockEnd_le_checksumStart hi
  rw [h, if_pos (by rw [size_zlibStored]; omega)]
  exact ⟨drawn', rfl⟩

/-- With the whole stream at hand and room for the data, the rest of a block is copied at once. -/
theorem run_copyState_whole (hlim : data.size ≤ limit) (hi : i ≤ lastBlock data) {t : Nat}
    (ht : t ≤ blockLength data i) (fuel drawn : Nat) :
    ∃ drawn', run ((zlibStored data).extract 0 (zlibStored data).size) limit (fuel + 1) (copyState data i t drawn) =
      run ((zlibStored data).extract 0 (zlibStored data).size) limit fuel (endState data i drawn') := by
  have h1 := blockEnd_le_checksumStart hi
  have h2 := blockEnd_le hi
  obtain ⟨drawn', h⟩ := run_copyState limit fuel drawn (n := blockLength data i - t)
    le_rfl hi ht (by rw [size_zlibStored]; omega)
  rw [h, if_neg (Nat.lt_irrefl _)]
  exact ⟨drawn', rfl⟩

theorem runsToEnd_blockState (hi : i ≤ lastBlock data) {fuel : Nat}
    (hcopy : ∀ drawn, RunsToEnd data limit fuel (copyState data i 0 drawn)) (drawn : Nat) :
    RunsToEnd data limit (fuel + 1) (blockState data i drawn) := by
  obtain ⟨drawn', h⟩ := run_blockState_whole hi limit fuel drawn
  exact RunsToEnd.step h (hcopy drawn')

/-- With the whole stream at hand and room for all the data, the decoder goes from inside
block `i` to the end of the stream, in two steps a block. -/
theorem runsToEnd_copyState (hlim : data.size ≤ limit) (k : Nat) :
    ∀ i, lastBlock data - i = k → i ≤ lastBlock data → ∀ t, t ≤ blockLength data i →
      ∀ fuel drawn, RunsToEnd data limit (fuel + 2 * k + 2) (copyState data i t drawn) := by
  induction k with
  | zero =>
    intro i hk hi t ht fuel drawn
    obtain rfl : i = lastBlock data := by omega
    obtain ⟨drawn', h⟩ := run_copyState_whole hlim hi ht (fuel + 1) drawn
    refine RunsToEnd.step h ?_
    rw [endState, if_pos rfl]
    exact runsToEnd_checksumState fuel drawn'
  | succ k ih =>
    intro i hk hi t ht fuel drawn
    have hlt : i < lastBlock data := by omega
    obtain ⟨drawn', h⟩ := run_copyState_whole hlim hi ht (fuel + 2 * k + 3) drawn
    rw [show fuel + 2 * (k + 1) + 2 = fuel + 2 * k + 3 + 1 by ring]
    refine RunsToEnd.step h ?_
    rw [endState, if_neg (Nat.ne_of_lt hlt)]
    exact runsToEnd_blockState (by omega)
      (ih (i + 1) (by omega) (by omega) 0 (Nat.zero_le _) fuel) drawn'

/-- With the whole stream at hand and room for all the data, a decoder resting anywhere in it
reads to the end within twice the blocks and four more steps. -/
theorem StoredAt.runsToEnd (hd : StoredAt data d) (hlim : data.size ≤ limit) {fuel : Nat}
    (hfuel : 2 * lastBlock data + 4 ≤ fuel) : RunsToEnd data limit fuel d := by
  obtain ⟨f, rfl⟩ : ∃ f, fuel = f + (2 * lastBlock data + 4) := ⟨fuel - (2 * lastBlock data + 4), by omega⟩
  cases hd with
  | header drawn =>
    obtain ⟨drawn', h⟩ := run_zlibHeader_step limit (f + (2 * lastBlock data + 3)) drawn ByteArray.empty
      (le_refl (zlibStored data).size)
    rw [show f + (2 * lastBlock data + 4) = f + (2 * lastBlock data + 3) + 1 by ring]
    refine RunsToEnd.step (h.trans (if_pos ?_)) ?_
    · rw [size_zlibStored, checksumStart, blockStart]
      omega
    · rw [← blockState_zero data, show f + (2 * lastBlock data + 3) = f + 2 * (lastBlock data - 0) + 2 + 1 by omega]
      exact runsToEnd_blockState (Nat.zero_le _)
        (runsToEnd_copyState hlim _ 0 rfl (Nat.zero_le _) 0 (Nat.zero_le _) f) drawn'
  | block i drawn hi =>
    rw [show f + (2 * lastBlock data + 4) = f + 2 * i + 1 + 2 * (lastBlock data - i) + 2 + 1 by omega]
    exact runsToEnd_blockState hi (runsToEnd_copyState hlim _ i rfl hi 0 (Nat.zero_le _) _) drawn
  | copy i t drawn hi ht =>
    rw [show f + (2 * lastBlock data + 4) = f + 2 * i + 2 + 2 * (lastBlock data - i) + 2 by omega]
    exact runsToEnd_copyState hlim _ i rfl hi t ht _ drawn
  | checksum drawn =>
    rw [show f + (2 * lastBlock data + 4) = f + 2 * lastBlock data + 3 + 1 by omega]
    exact runsToEnd_checksumState _ drawn
  | done pos drawn =>
    obtain ⟨drawn', h⟩ := run_done_step ((zlibStored data).extract 0 (zlibStored data).size) limit
      (f + 2 * lastBlock data + 3) data drawn pos
    rw [show f + (2 * lastBlock data + 4) = f + 2 * lastBlock data + 3 + 1 by omega]
    exact ⟨_, h, rfl, .done pos drawn'⟩

/-- A decoder that owes nothing runs at once, with fuel for every bit and every byte of room. -/
theorem call_of_owed (h : d.owed = .nothing) (src : ByteArray) (limit : Nat) :
    d.call src limit = run src limit (2 * (8 * src.size + limit) + 8) d := by
  obtain ⟨phase, pos, out, owed, drawn⟩ := d
  subst h
  rfl

/-- A call on any prefix of the stored stream stops in a resting state. -/
theorem StoredAt.call (hd : StoredAt data d) (hm : m ≤ (zlibStored data).size) (limit : Nat) :
    ∃ d' why, d.call ((zlibStored data).extract 0 m) limit = .stopped d' why ∧ StoredAt data d' := by
  rw [call_of_owed hd.owed]
  exact StoredAt.run_stops hm limit _ d hd

/-- A call on the whole stored stream with room for all the data reads it to its end. -/
theorem StoredAt.call_whole (hd : StoredAt data d) (hlim : data.size ≤ limit) :
    ∃ d', d.call ((zlibStored data).extract 0 (zlibStored data).size) limit = .stopped d' .done ∧
      d'.out = data ∧ StoredAt data d' := by
  rw [call_of_owed hd.owed]
  refine hd.runsToEnd hlim ?_
  have hsize : (zlibStored data).size = checksumStart data + 4 := size_zlibStored
  rw [size_extract_front le_rfl, hsize]
  unfold checksumStart blockStart storedLimit
  omega

end Runs

end Deflate

end Pixmap
