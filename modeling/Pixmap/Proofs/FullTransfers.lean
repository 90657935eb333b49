import Pixmap.Proofs.EncodeSinks

/-! Filling a buffer from a reader and writing one out, over scripted readers and writers that
keep their promise: both succeed exactly when the whole buffer passes (`transfers_exact`). -/
namespace Pixmap

/-- The next answer of a script of outcomes, and the script after it; a spent script answers
`done`. -/
def nextAnswer {α : Type} (done : α) :
    List (Except IoError α) → Except IoError α × List (Except IoError α)
  | [] => (.ok done, [])
  | outcome :: rest => (outcome, rest)

/-- A script of byte counts keeps within `need`: until `need` bytes have passed, no answer
counts more bytes than are still wanted. This is the promise of readers and writers, seen by a
loop that asks for what is left each time. -/
def AnswersWithin (need : Nat) : List (Except IoError Nat) → Prop
  | [] => True
  | .error _ :: _ => True
  | .ok c :: rest => need = 0 ∨ c ≤ need ∧ (c = 0 ∨ AnswersWithin (need - c) rest)

instance decidableAnswersWithin (need : Nat) :
    (s : List (Except IoError Nat)) → Decidable (AnswersWithin need s)
  | [] => isTrue trivial
  | .error _ :: _ => isTrue trivial
  | .ok c :: rest =>
    haveI := decidableAnswersWithin (need - c) rest
    inferInstanceAs (Decidable (need = 0 ∨ c ≤ need ∧ (c = 0 ∨ AnswersWithin (need - c) rest)))

/-- Chunks of bytes, one after another. -/
def joinChunks (bs : List ByteArray) : ByteArray := bs.foldr (· ++ ·) ByteArray.empty

@[simp] theorem joinChunks_nil : joinChunks [] = ByteArray.empty := rfl

@[simp] theorem joinChunks_cons (b : ByteArray) (bs : List ByteArray) :
    joinChunks (b :: bs) = b ++ joinChunks bs := rfl

/-- Nonempty chunks are no more than their bytes. -/
theorem length_le_size_joinChunks : ∀ {bs : List ByteArray}, (∀ b ∈ bs, 0 < b.size) →
    bs.length ≤ (joinChunks bs).size
  | [], _ => Nat.zero_le _
  | b :: bs, h => by
    obtain ⟨hb, hbs⟩ := List.forall_mem_cons.1 h
    have ih := length_le_size_joinChunks hbs
    rw [joinChunks_cons, ByteArray.size_append, List.length_cons]
    omega

section FillLoop
variable {ρ : Type} [ByteReader ρ]

/-- The fill loop's fuel never decides its answer: a round that goes on adds at least one byte,
so any two fuels above the bytes left to fill give the same computation. -/
theorem readFull_go_fuel (n : Nat) : ∀ (f g : Nat) (acc : ByteArray), n - acc.size < f →
    n - acc.size < g → (readFull.go n acc f : CodecM ρ ByteArray) = readFull.go n acc g
  | 0, _, _, hf, _ => absurd hf (Nat.not_lt_zero _)
  | _, 0, _, _, hg => absurd hg (Nat.not_lt_zero _)
  | f + 1, g + 1, acc, hf, hg => by
    rw [readFull.go, readFull.go]
    by_cases hn : acc.size ≥ n
    · rw [if_pos hn, if_pos hn]
    rw [if_neg hn, if_neg hn]
    congr 1
    funext bytes
    by_cases he : bytes.isEmpty
    · -- no bytes: both fail alike, whatever fuel is left
      rw [if_pos he, if_pos he]
      rfl
    rw [if_neg he, if_neg he]
    have hpos : 0 < bytes.size := by
      simp only [ByteArray.isEmpty, beq_iff_eq] at he
      omega
    exact readFull_go_fuel n f g (acc ++ bytes) (by simp; omega) (by simp; omega)

/-- A round on a full buffer returns it. -/
theorem readFull_go_full {n fuel : Nat} {acc : ByteArray} (r : ρ) (j : Array Record) (h : n ≤ acc.size) :
    (readFull.go n acc (fuel + 1) : CodecM ρ ByteArray).runOn r j = ((.ok acc, r), j) := by
  rw [readFull.go, if_pos h]
  rfl

end FillLoop

/-- A source that answers each read from a script: the next outcome, however many bytes are
asked for, and no bytes once the script is spent, as a source at its end. It keeps no
position. -/
structure ScriptedReader where
  script : List (Except IoError ByteArray)

instance : ByteReader ScriptedReader where
  read _ := ExceptT.mk (modifyGet fun r =>
    let (outcome, rest) := nextAnswer ByteArray.empty r.script
    (outcome, ⟨rest⟩))
  tell _ := 0
  seek _ := pure 0
  clearErrors r := r

namespace ScriptedReader

variable {n fuel : Nat} {acc : ByteArray} {j : Array Record}

/-- The truncation the fill loop reports: how many bytes it wanted, and how many arrived. -/
def truncation (n m : Nat) : Error :=
  .invalidInput ("truncated input: expected " ++ toString n ++ " bytes, got " ++ toString m)

theorem runOn_read (s : List (Except IoError ByteArray)) (k : Nat) (j : Array Record) :
    (CodecM.ofRead (ByteReader.read k) : CodecM ScriptedReader ByteArray).runOn ⟨s⟩ j =
      (((nextAnswer ByteArray.empty s).1.mapError .io, ⟨(nextAnswer ByteArray.empty s).2⟩), j) :=
  CodecM.runOn_ofRead rfl

/-- A round on a short buffer handed a nonempty chunk appends it and goes on. -/
theorem readFull_go_chunk {b : ByteArray} (rest : List (Except IoError ByteArray)) (h : acc.size < n)
    (hb : 0 < b.size) :
    (readFull.go n acc (fuel + 1) : CodecM ScriptedReader ByteArray).runOn ⟨.ok b :: rest⟩ j =
      (readFull.go n (acc ++ b) fuel).runOn ⟨rest⟩ j := by
  have hne : b.isEmpty = false := by
    simp only [ByteArray.isEmpty, beq_eq_false_iff_ne]
    omega
  rw [readFull.go, if_neg (by omega), CodecM.runOn_bind_ok (runOn_read _ _ j)]
  dsimp only [nextAnswer, Except.mapError]
  rw [hne, if_neg Bool.false_ne_true]

/-- A round on a short buffer that gets no bytes fails as a truncation. -/
theorem readFull_go_nothing (s : List (Except IoError ByteArray)) (h : acc.size < n)
    (hs : (nextAnswer ByteArray.empty s).1 = .ok ByteArray.empty) :
    (readFull.go n acc (fuel + 1) : CodecM ScriptedReader ByteArray).runOn ⟨s⟩ j =
      ((.error (truncation n acc.size), ⟨(nextAnswer ByteArray.empty s).2⟩), j) := by
  rw [readFull.go, if_neg (by omega), CodecM.runOn_bind_ok (by rw [runOn_read, hs]; rfl)]
  rw [if_pos (show ByteArray.empty.isEmpty = true from rfl)]
  rfl

/-- A round on a short buffer whose read fails fails with it, as an I/O error. -/
theorem readFull_go_failed (s : List (Except IoError ByteArray)) {e : IoError} (h : acc.size < n)
    (hs : (nextAnswer ByteArray.empty s).1 = .error e) :
    (readFull.go n acc (fuel + 1) : CodecM ScriptedReader ByteArray).runOn ⟨s⟩ j =
      ((.error (.io e), ⟨(nextAnswer ByteArray.empty s).2⟩), j) := by
  rw [readFull.go, if_neg (by omega), CodecM.runOn_bind_error (by rw [runOn_read, hs]; rfl)]

/-- Handed nonempty chunks that the buffer has room for, the fill loop appends them in order,
one round each. -/
theorem readFull_go_chunks (n : Nat) : ∀ (bs : List ByteArray) (acc : ByteArray) (fuel : Nat)
    (rest : List (Except IoError ByteArray)) (j : Array Record), (∀ b ∈ bs, 0 < b.size) →
    acc.size + (joinChunks bs).size ≤ n →
    (readFull.go n acc (fuel + bs.length) : CodecM ScriptedReader ByteArray).runOn
        ⟨bs.map .ok ++ rest⟩ j = (readFull.go n (acc ++ joinChunks bs) fuel).runOn ⟨rest⟩ j
  | [], acc, fuel, rest, j, _, _ => by simp
  | b :: bs, acc, fuel, rest, j, hbbs, hroom => by
    obtain ⟨hb, hbs⟩ := List.forall_mem_cons.1 hbbs
    rw [joinChunks_cons, ByteArray.size_append] at hroom
    rw [List.length_cons, ← Nat.add_assoc, List.map_cons, List.cons_append,
      readFull_go_chunk _ (by omega) hb, readFull_go_chunks n bs (acc ++ b) fuel rest j
        hbs (by rw [ByteArray.size_append]; omega),
      joinChunks_cons, ByteArray.append_assoc]

/-- From the start, nonempty chunks of at most `n` bytes in all are appended to the empty buffer,
one round each. -/
theorem readFull_chunks {n : Nat} {bs : List ByteArray} (rest : List (Except IoError ByteArray))
    (j : Array Record) (hbs : ∀ b ∈ bs, 0 < b.size) (hroom : (joinChunks bs).size ≤ n) :
    (readFull n : CodecM ScriptedReader ByteArray).runOn ⟨bs.map .ok ++ rest⟩ j =
      (readFull.go n (joinChunks bs) (n - bs.length + 1)).runOn ⟨rest⟩ j := by
  have hlen := length_le_size_joinChunks hbs
  have hfuel : n + 1 = (n - bs.length + 1) + bs.length := by omega
  unfold readFull
  rw [hfuel, readFull_go_chunks n bs _ _ rest j hbs (by simpa using hroom), ByteArray.empty_append]

/-- Nonempty chunks of `n` bytes in all come first: the fill returns them in order. -/
theorem readFull_filled {n : Nat} {bs : List ByteArray} (rest : List (Except IoError ByteArray))
    (j : Array Record) (hbs : ∀ b ∈ bs, 0 < b.size) (hn : (joinChunks bs).size = n) :
    (readFull n : CodecM ScriptedReader ByteArray).runOn ⟨bs.map .ok ++ rest⟩ j =
      ((.ok (joinChunks bs), ⟨rest⟩), j) := by
  rw [readFull_chunks rest j hbs hn.le, readFull_go_full _ j hn.ge]

/-- After nonempty chunks of fewer than `n` bytes, no bytes: a truncation naming what arrived. -/
theorem readFull_truncated {n : Nat} {bs : List ByteArray} (rest : List (Except IoError ByteArray))
    (j : Array Record) (hbs : ∀ b ∈ bs, 0 < b.size) (hshort : (joinChunks bs).size < n)
    (hnext : (nextAnswer ByteArray.empty rest).1 = .ok ByteArray.empty) :
    (readFull n : CodecM ScriptedReader ByteArray).runOn ⟨bs.map .ok ++ rest⟩ j =
      ((.error (truncation n (joinChunks bs).size), ⟨(nextAnswer ByteArray.empty rest).2⟩), j) := by
  rw [readFull_chunks rest j hbs hshort.le, readFull_go_nothing rest hshort hnext]

/-- After nonempty chunks of fewer than `n` bytes, a failed read: its failure, as an I/O error. -/
theorem readFull_failed {n : Nat} {bs : List ByteArray} (rest : List (Except IoError ByteArray))
    {e : IoError} (j : Array Record) (hbs : ∀ b ∈ bs, 0 < b.size) (hshort : (joinChunks bs).size < n)
    (hnext : (nextAnswer ByteArray.empty rest).1 = .error e) :
    (readFull n : CodecM ScriptedReader ByteArray).runOn ⟨bs.map .ok ++ rest⟩ j =
      ((.error (.io e), ⟨(nextAnswer ByteArray.empty rest).2⟩), j) := by
  rw [readFull_chunks rest j hbs hshort.le, readFull_go_failed rest hshort hnext]

/-- What the fill loop returns from a script that keeps within what is left to fill: nonempty
chunks it was handed first, in order, that fill the buffer exactly. -/
theorem readFull_go_returns (n : Nat) : ∀ (s : List (Except IoError ByteArray)) (acc : ByteArray)
    (fuel : Nat) (j : Array Record) (out : ByteArray), acc.size ≤ n → n - acc.size < fuel →
    AnswersWithin (n - acc.size) (s.map (Except.map ByteArray.size)) →
    ((readFull.go n acc fuel : CodecM ScriptedReader ByteArray).runOn ⟨s⟩ j).1.1 = .ok out →
    ∃ (bs : List ByteArray) (rest : List (Except IoError ByteArray)), (∀ b ∈ bs, 0 < b.size) ∧
      s = bs.map .ok ++ rest ∧ out = acc ++ joinChunks bs ∧ out.size = n
  | _, _, 0, _, _, _, hfuel, _, _ => absurd hfuel (Nat.not_lt_zero _)
  | s, acc, fuel + 1, j, out, hle, hfuel, hs, h => by
    by_cases hfull : n ≤ acc.size
    · rw [readFull_go_full _ j hfull] at h
      cases h
      exact ⟨[], s, by simp, by simp, by simp, by omega⟩
    have hshort : acc.size < n := by omega
    cases s with
    | nil =>
      rw [readFull_go_nothing [] hshort rfl] at h
      cases h
    | cons o rest =>
      cases o with
      | error e =>
        rw [readFull_go_failed _ hshort rfl] at h
        cases h
      | ok b =>
        by_cases hb : b.size = 0
        · -- a chunk of no bytes ends the fill as a truncation
          have hempty : b = ByteArray.empty := ByteArray.ext (Array.eq_empty_of_size_eq_zero hb)
          subst hempty
          rw [readFull_go_nothing _ hshort rfl] at h
          cases h
        rw [readFull_go_chunk rest hshort (by omega)] at h
        -- the promise bounds the chunk by what is left, and holds on for the rest of the script
        have hwithin : b.size ≤ n - acc.size ∧
            AnswersWithin (n - acc.size - b.size) (rest.map (Except.map ByteArray.size)) := by
          simpa [AnswersWithin, Except.map, hb, show n - acc.size ≠ 0 by omega] using hs
        obtain ⟨bs, rest', hbs, rfl, rfl, hsize⟩ := readFull_go_returns n rest (acc ++ b) fuel j out
          (by simp; omega) (by simp; omega) (by simpa [Nat.sub_sub] using hwithin.2) h
        exact ⟨b :: bs, rest', List.forall_mem_cons.2 ⟨by omega, hbs⟩, by simp,
          by simp [ByteArray.append_assoc], hsize⟩

/-- From a script that keeps within `n`, the fill returns exactly when nonempty chunks of `n`
bytes in all come first, and returns those bytes. -/
theorem readFull_eq_ok_iff {n : Nat} {s : List (Except IoError ByteArray)} (j : Array Record)
    (out : ByteArray) (hs : AnswersWithin n (s.map (Except.map ByteArray.size))) :
    ((readFull n : CodecM ScriptedReader ByteArray).runOn ⟨s⟩ j).1.1 = .ok out ↔
      ∃ (bs : List ByteArray) (rest : List (Except IoError ByteArray)), (∀ b ∈ bs, 0 < b.size) ∧
        s = bs.map .ok ++ rest ∧ (joinChunks bs).size = n ∧ out = joinChunks bs := by
  constructor
  · intro h
    obtain ⟨bs, rest, hbs, hs', hout, hsize⟩ :=
      readFull_go_returns n s ByteArray.empty (n + 1) j out (by simp) (by simp) (by simpa using hs) h
    rw [ByteArray.empty_append] at hout
    subst hout
    exact ⟨bs, rest, hbs, hs', hsize, rfl⟩
  · rintro ⟨bs, rest, hbs, rfl, hsize, rfl⟩
    rw [readFull_filled rest j hbs hsize]

/-- What filling `n` bytes from a scripted reader does, read off its script. When nonempty
chunks of `n` bytes in all come first, the fill returns them in order. When nonempty chunks of
fewer bytes come first, and then an answer of no bytes (or the end of the script), the fill is a
truncation that names `n` and how many bytes arrived; when a failed read comes there instead, the
fill fails with that failure as an I/O error. The script goes on after the last answer asked
for, and nothing is recorded. From a script that keeps within `n`, the fill returns only in the
first case. -/
structure FillsExactly (n : Nat) : Prop where
  filled : ∀ (bs : List ByteArray) (rest : List (Except IoError ByteArray)) (j : Array Record),
    (∀ b ∈ bs, 0 < b.size) → (joinChunks bs).size = n →
    (readFull n : CodecM ScriptedReader ByteArray).runOn ⟨bs.map .ok ++ rest⟩ j =
      ((.ok (joinChunks bs), ⟨rest⟩), j)
  truncated : ∀ (bs : List ByteArray) (rest : List (Except IoError ByteArray)) (j : Array Record),
    (∀ b ∈ bs, 0 < b.size) → (joinChunks bs).size < n →
    (nextAnswer ByteArray.empty rest).1 = .ok ByteArray.empty →
    (readFull n : CodecM ScriptedReader ByteArray).runOn ⟨bs.map .ok ++ rest⟩ j =
      ((.error (truncation n (joinChunks bs).size), ⟨(nextAnswer ByteArray.empty rest).2⟩), j)
  failed : ∀ (bs : List ByteArray) (rest : List (Except IoError ByteArray)) (e : IoError)
    (j : Array Record), (∀ b ∈ bs, 0 < b.size) → (joinChunks bs).size < n →
    (nextAnswer ByteArray.empty rest).1 = .error e →
    (readFull n : CodecM ScriptedReader ByteArray).runOn ⟨bs.map .ok ++ rest⟩ j =
      ((.error (.io e), ⟨(nextAnswer ByteArray.empty rest).2⟩), j)
  returns_iff : ∀ (s : List (Except IoError ByteArray)) (j : Array Record) (out : ByteArray),
    AnswersWithin n (s.map (Except.map ByteArray.size)) →
    (((readFull n : CodecM ScriptedReader ByteArray).runOn ⟨s⟩ j).1.1 = .ok out ↔
      ∃ (bs : List ByteArray) (rest : List (Except IoError ByteArray)), (∀ b ∈ bs, 0 < b.size) ∧
        s = bs.map .ok ++ rest ∧ (joinChunks bs).size = n ∧ out = joinChunks bs)

theorem fillsExactly (n : Nat) : FillsExactly n where
  filled _ rest j hbs hn := readFull_filled rest j hbs hn
  truncated _ rest j hbs hshort hnext := readFull_truncated rest j hbs hshort hnext
  failed _ rest _ j hbs hshort hnext := readFull_failed rest j hbs hshort hnext
  returns_iff _ j out hs := readFull_eq_ok_iff j out hs

end ScriptedReader

/-- A sink that answers each write from a script: the next outcome, whatever it is handed, and
nothing taken once the script is spent, as a full sink. It keeps what each write was handed. -/
structure ScriptedWriter where
  script : List (Except IoError Nat)
  handed : List ByteArray

instance : FallibleWriter ScriptedWriter where
  tryWrite w bytes :=
    let (outcome, rest) := nextAnswer 0 w.script
    (outcome, ⟨rest, w.handed ++ [bytes]⟩)

namespace ScriptedWriter

/-- What writing `b` out hands the writer when the writes take `cs` bytes in turn: `b`, then
what is left after each write but the last. -/
def suffixes (b : ByteArray) : List Nat → List ByteArray
  | [] => []
  | c :: cs => b :: suffixes (b.extract c b.size) cs

theorem tryWrite_eq (s : List (Except IoError Nat)) (handed : List ByteArray) (bytes : ByteArray) :
    FallibleWriter.tryWrite (⟨s, handed⟩ : ScriptedWriter) bytes =
      ((nextAnswer 0 s).1, ⟨(nextAnswer 0 s).2, handed ++ [bytes]⟩) :=
  rfl

/-- What is left of what was left is what is left after both writes. -/
theorem extract_size_extract (b : ByteArray) (c d : Nat) :
    (b.extract c b.size).extract d (b.extract c b.size).size = b.extract (c + d) b.size := by
  rw [ByteArray.extract_extract, ByteArray.size_extract]
  congr 1
  omega

/-- Writes that take positive counts adding up to at most `|b|` hand the writer suffix after
suffix of `b`, and leave what is left after them all. -/
theorem writeAll_go_counts (failure : IoError) : ∀ (cs : List Nat) (b : ByteArray)
    (rest : List (Except IoError Nat)) (handed : List ByteArray), (∀ c ∈ cs, 0 < c) →
    cs.sum ≤ b.size →
    writeAll.go failure (⟨cs.map .ok ++ rest, handed⟩ : ScriptedWriter) b =
      writeAll.go failure ⟨rest, handed ++ suffixes b cs⟩ (b.extract cs.sum b.size)
  | [], b, rest, handed, _, _ => by simp [suffixes]
  | c :: cs, b, rest, handed, hccs, hsum => by
    obtain ⟨hc, hcs⟩ := List.forall_mem_cons.1 hccs
    rw [List.sum_cons] at hsum ⊢
    have hleft : (b.extract c b.size).size = b.size - c := by simp
    rw [List.map_cons, List.cons_append, writeAll_go_took (by omega) (tryWrite_eq _ _ _) hc]
    dsimp only [nextAnswer]
    rw [writeAll_go_counts failure cs (b.extract c b.size) rest (handed ++ [b])
        hcs (by omega),
      extract_size_extract, suffixes, List.append_assoc, List.singleton_append]

/-- Writing out runs the write loop, its failure an I/O error. -/
theorem writeFull_runOn (b : ByteArray) (w : ScriptedWriter) (j : Array Record) :
    (writeFull b : CodecM ScriptedWriter Unit).runOn w j =
      (((writeAll.go (.ofKind .writeZero) w b).1.mapError .io,
        (writeAll.go (.ofKind .writeZero) w b).2), j) :=
  writeOut_runOn _ b w j

/-- Writes taking positive counts that make up `|b|`: written, with `b`'s suffixes handed over. -/
theorem writeFull_written {b : ByteArray} {cs : List Nat} (rest : List (Except IoError Nat))
    (handed : List ByteArray) (j : Array Record) (hcs : ∀ c ∈ cs, 0 < c) (hsum : cs.sum = b.size) :
    (writeFull b : CodecM ScriptedWriter Unit).runOn ⟨cs.map .ok ++ rest, handed⟩ j =
      ((.ok (), ⟨rest, handed ++ suffixes b cs⟩), j) := by
  rw [writeFull_runOn, writeAll_go_counts _ cs b rest handed hcs hsum.le,
    writeAll_go_done (by simp [hsum])]
  rfl

/-- After writes taking positive counts short of `|b|`, a write that takes nothing: a write-zero
failure, with what was left handed over last. -/
theorem writeFull_took_nothing {b : ByteArray} {cs : List Nat} (rest : List (Except IoError Nat))
    (handed : List ByteArray) (j : Array Record) (hcs : ∀ c ∈ cs, 0 < c) (hshort : cs.sum < b.size)
    (hnext : (nextAnswer 0 rest).1 = .ok 0) :
    (writeFull b : CodecM ScriptedWriter Unit).runOn ⟨cs.map .ok ++ rest, handed⟩ j =
      ((.error (.io (.ofKind .writeZero)),
        ⟨(nextAnswer 0 rest).2, handed ++ suffixes b cs ++ [b.extract cs.sum b.size]⟩), j) := by
  rw [writeFull_runOn, writeAll_go_counts _ cs b rest handed hcs hshort.le,
    writeAll_go_took_nothing (by simp; omega) (by rw [tryWrite_eq, hnext])]
  rfl

/-- After writes taking positive counts short of `|b|`, a write that fails: its failure, as an
I/O error, with what was left handed over last. -/
theorem writeFull_failed {b : ByteArray} {cs : List Nat} (rest : List (Except IoError Nat)) {e : IoError}
    (handed : List ByteArray) (j : Array Record) (hcs : ∀ c ∈ cs, 0 < c) (hshort : cs.sum < b.size)
    (hnext : (nextAnswer 0 rest).1 = .error e) :
    (writeFull b : CodecM ScriptedWriter Unit).runOn ⟨cs.map .ok ++ rest, handed⟩ j =
      ((.error (.io e),
        ⟨(nextAnswer 0 rest).2, handed ++ suffixes b cs ++ [b.extract cs.sum b.size]⟩), j) := by
  rw [writeFull_runOn, writeAll_go_counts _ cs b rest handed hcs hshort.le,
    writeAll_go_failed (by simp; omega) (by rw [tryWrite_eq, hnext])]
  rfl

/-- What the write loop succeeds on from a script that keeps within what is left to write:
positive counts that come first and make up all of it. -/
theorem writeAll_go_returns (failure : IoError) (s : List (Except IoError Nat)) :
    ∀ (b : ByteArray) (handed : List ByteArray), AnswersWithin b.size s →
      (writeAll.go failure (⟨s, handed⟩ : ScriptedWriter) b).1 = .ok () →
      ∃ (cs : List Nat) (rest : List (Except IoError Nat)), (∀ c ∈ cs, 0 < c) ∧
        s = cs.map .ok ++ rest ∧ cs.sum = b.size := by
  induction s with
  | nil =>
    intro b handed _ h
    by_cases hdone : b.size = 0
    · exact ⟨[], [], by simp, rfl, by simp [hdone]⟩
    rw [writeAll_go_took_nothing (by omega) (tryWrite_eq [] handed b)] at h
    cases h
  | cons o rest ih =>
    intro b handed hs h
    by_cases hdone : b.size = 0
    · exact ⟨[], o :: rest, by simp, rfl, by simp [hdone]⟩
    cases o with
    | error e =>
      rw [writeAll_go_failed (by omega) (tryWrite_eq _ handed b)] at h
      cases h
    | ok c =>
      by_cases hc : c = 0
      · subst hc
        rw [writeAll_go_took_nothing (by omega) (tryWrite_eq _ handed b)] at h
        cases h
      rw [writeAll_go_took (by omega) (tryWrite_eq _ handed b) (by omega)] at h
      have hwithin : c ≤ b.size ∧ AnswersWithin (b.size - c) rest := by
        simpa [AnswersWithin, hc, hdone] using hs
      obtain ⟨cs, rest', hcs, rfl, hsum⟩ := ih (b.extract c b.size) _ (by simpa using hwithin.2) h
      refine ⟨c :: cs, rest', List.forall_mem_cons.2 ⟨by omega, hcs⟩, by simp, ?_⟩
      simp only [ByteArray.size_extract, Nat.min_self] at hsum
      rw [List.sum_cons, hsum]
      omega

/-- From a script that keeps within `|b|`, writing `b` out succeeds exactly when positive counts
that make up `|b|` come first. -/
theorem writeFull_eq_ok_iff {b : ByteArray} {s : List (Except IoError Nat)} (handed : List ByteArray)
    (j : Array Record) (hs : AnswersWithin b.size s) :
    ((writeFull b : CodecM ScriptedWriter Unit).runOn ⟨s, handed⟩ j).1.1 = .ok () ↔
      ∃ (cs : List Nat) (rest : List (Except IoError Nat)), (∀ c ∈ cs, 0 < c) ∧
        s = cs.map .ok ++ rest ∧ cs.sum = b.size := by
  constructor
  · intro h
    rw [writeFull_runOn] at h
    refine writeAll_go_returns (.ofKind .writeZero) s b handed hs ?_
    cases hr : (writeAll.go (.ofKind .writeZero) (⟨s, handed⟩ : ScriptedWriter) b).1 with
    | ok u => rfl
    | error e =>
      rw [hr] at h
      cases h
  · rintro ⟨cs, rest, hcs, rfl, hsum⟩
    rw [writeFull_written rest handed j hcs hsum]

/-- What writing `b` out to a scripted writer does, read off its script. When writes taking
positive counts that make up `|b|` come first, the write succeeds, and the writer was handed `b`
and then what was left after each write but the last. When writes taking positive counts short
of `|b|` come first, and then a write that takes nothing (or the end of the script), the write
fails with a write-zero error; when a failing write comes there instead, with that failure; the
writer was handed what was left last. The script goes on after the last answer asked for, and
nothing is recorded. From a script that keeps within `|b|`, the write succeeds only in the first
case. -/
structure WritesExactly (b : ByteArray) : Prop where
  written : ∀ (cs : List Nat) (rest : List (Except IoError Nat)) (handed : List ByteArray)
    (j : Array Record), (∀ c ∈ cs, 0 < c) → cs.sum = b.size →
    (writeFull b : CodecM ScriptedWriter Unit).runOn ⟨cs.map .ok ++ rest, handed⟩ j =
      ((.ok (), ⟨rest, handed ++ suffixes b cs⟩), j)
  took_nothing : ∀ (cs : List Nat) (rest : List (Except IoError Nat)) (handed : List ByteArray)
    (j : Array Record), (∀ c ∈ cs, 0 < c) → cs.sum < b.size → (nextAnswer 0 rest).1 = .ok 0 →
    (writeFull b : CodecM ScriptedWriter Unit).runOn ⟨cs.map .ok ++ rest, handed⟩ j =
      ((.error (.io (.ofKind .writeZero)),
        ⟨(nextAnswer 0 rest).2, handed ++ suffixes b cs ++ [b.extract cs.sum b.size]⟩), j)
  failed : ∀ (cs : List Nat) (rest : List (Except IoError Nat)) (e : IoError)
    (handed : List ByteArray) (j : Array Record), (∀ c ∈ cs, 0 < c) → cs.sum < b.size →
    (nextAnswer 0 rest).1 = .error e →
    (writeFull b : CodecM ScriptedWriter Unit).runOn ⟨cs.map .ok ++ rest, handed⟩ j =
      ((.error (.io e),
        ⟨(nextAnswer 0 rest).2, handed ++ suffixes b cs ++ [b.extract cs.sum b.size]⟩), j)
  returns_iff : ∀ (s : List (Except IoError Nat)) (handed : List ByteArray) (j : Array Record),
    AnswersWithin b.size s →
    (((writeFull b : CodecM ScriptedWriter Unit).runOn ⟨s, handed⟩ j).1.1 = .ok () ↔
      ∃ (cs : List Nat) (rest : List (Except IoError Nat)), (∀ c ∈ cs, 0 < c) ∧
        s = cs.map .ok ++ rest ∧ cs.sum = b.size)

theorem writesExactly (b : ByteArray) : WritesExactly b where
  written _ rest handed j hcs hsum := writeFull_written rest handed j hcs hsum
  took_nothing _ rest handed j hcs hshort hnext :=
    writeFull_took_nothing rest handed j hcs hshort hnext
  failed _ rest _ handed j hcs hshort hnext := writeFull_failed rest handed j hcs hshort hnext
  returns_iff _ handed j hs := writeFull_eq_ok_iff handed j hs

end ScriptedWriter

/-- Filling a buffer and writing one out are exact. The fill loop's fuel never decides its
answer, for any reader, and from any reader that keeps its promise the fill returns exactly the
bytes asked for. Filling `n` bytes from a scripted reader does what `FillsExactly` says, and
writing `b` out to a scripted writer what `WritesExactly` says. -/
theorem transfers_exact :
    (∀ {ρ : Type} [ByteReader ρ] (n f g : Nat) (acc : ByteArray), n - acc.size < f →
      n - acc.size < g → (readFull.go n acc f : CodecM ρ ByteArray) = readFull.go n acc g) ∧
    (∀ {ρ : Type} [ByteReader ρ] [LawfulByteReader ρ] (n : Nat),
      Returns (readFull n : CodecM ρ ByteArray) fun bytes => bytes.size = n) ∧
    (∀ n : Nat, ScriptedReader.FillsExactly n) ∧
    (∀ b : ByteArray, ScriptedWriter.WritesExactly b) :=
  ⟨fun n f g acc hf hg => readFull_go_fuel n f g acc hf hg, fun n => returns_readFull n,
    ScriptedReader.fillsExactly, ScriptedWriter.writesExactly⟩

/-- Three bytes from memory; three bytes in chunks of two and one, before a failed read that is
never asked for; and three bytes out to a sink that takes two and then nothing, which was handed
all three and then the last one. -/
theorem transfers_exact_split :
    Returns (readFull 3 : CodecM MemoryReader ByteArray) (fun bytes => bytes.size = 3) ∧
    AnswersWithin 3 [.ok 2, .ok 1, .error ⟨.other, "unplugged"⟩] ∧
    ((readFull 3 : CodecM ScriptedReader ByteArray).runOn
        ⟨[.ok ⟨#[1, 2]⟩, .ok ⟨#[3]⟩, .error ⟨.other, "unplugged"⟩]⟩ #[]).1.1 = .ok ⟨#[1, 2, 3]⟩ ∧
    (writeFull ⟨#[1, 2, 3]⟩ : CodecM ScriptedWriter Unit).runOn ⟨[.ok 2, .ok 0], []⟩ #[] =
      ((.error (.io (.ofKind .writeZero)), ⟨[], [⟨#[1, 2, 3]⟩, ⟨#[3]⟩]⟩), #[]) :=
  ⟨transfers_exact.2.1 3, by decide,
    ((transfers_exact.2.2.1 3).returns_iff _ #[] ⟨#[1, 2, 3]⟩ (by decide)).2
      ⟨[⟨#[1, 2]⟩, ⟨#[3]⟩], [.error ⟨.other, "unplugged"⟩], by decide, rfl, by decide, by decide⟩,
    (transfers_exact.2.2.2 ⟨#[1, 2, 3]⟩).took_nothing [2] [.ok 0] [] #[] (by decide) (by decide)
      rfl⟩

end Pixmap
