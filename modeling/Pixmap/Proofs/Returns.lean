import Pixmap.Codec.Basic
import Mathlib

/-! What a stream computation can return (`Returns`), following the monad; under the readers'
promise `readFull n` returns exactly `n` bytes (`returns_readFull`). -/
namespace Pixmap

section Returns
variable {ε σ α β : Type}

/-- Every value `m` returns, from any state and journal, satisfies `P`. -/
def Returns (m : ExceptT ε (StateT σ Logged) α) (P : α → Prop) : Prop :=
  ∀ s j a s' j', ((m.run).run s).run j = ((.ok a, s'), j') → P a

lemma returns_bind {m : ExceptT ε (StateT σ Logged) α} {f : α → ExceptT ε (StateT σ Logged) β}
    {P : α → Prop} {Q : β → Prop} (hm : Returns m P) (hf : ∀ a, P a → Returns (f a) Q) :
    Returns (m >>= f) Q := by
  intro s j b s' j' h
  simp only [ExceptT.run_bind, StateT.run_bind] at h
  rcases hr : ((m.run).run s).run j with ⟨⟨r, s₁⟩, j₁⟩
  rw [hr] at h
  cases r with
  | ok a => exact hf a (hm s j a s₁ j₁ hr) s₁ j₁ b s' j' h
  | error e => cases h

/-- A step whose value does not matter. -/
lemma returns_bind_of_forall {m : ExceptT ε (StateT σ Logged) α}
    {f : α → ExceptT ε (StateT σ Logged) β} {Q : β → Prop} (hf : ∀ a, Returns (f a) Q) :
    Returns (m >>= f) Q :=
  returns_bind (P := fun _ => True) (fun _ _ _ _ _ _ => trivial) fun a _ => hf a

lemma returns_pure {a : α} {P : α → Prop} (h : P a) :
    Returns (pure a : ExceptT ε (StateT σ Logged) α) P := by
  intro s j b s' j' hr
  cases hr
  exact h

lemma returns_throw {e : ε} {P : α → Prop} : Returns (throw e : ExceptT ε (StateT σ Logged) α) P := by
  intro s j b s' j' hr
  cases hr

lemma returns_throw_bind {e : ε} {f : α → ExceptT ε (StateT σ Logged) β} {P : β → Prop} :
    Returns (throw e >>= f) P := by
  intro s j b s' j' hr
  cases hr

end Returns

lemma returns_ofExcept {σ α : Type} {r : Except Error α} {P : α → Prop} (h : ∀ a, r = .ok a → P a) :
    Returns (CodecM.ofExcept r : CodecM σ α) P := by
  cases r with
  | ok a => exact returns_pure (h a rfl)
  | error e => exact returns_throw

lemma returns_ofRead {ρ α : Type} {m : ReadM ρ α} {P : α → Prop} (h : Returns m P) :
    Returns (CodecM.ofRead m) P := by
  intro s j a s' j' hr
  simp only [CodecM.ofRead, ExceptT.run_adapt, StateT.run_map] at hr
  rcases hm : StateT.run ((ExceptT.run m).run s) j with ⟨⟨r, s₁⟩, j₁⟩
  rw [hm] at hr
  cases r with
  | ok b =>
    cases hr
    exact h s j a s₁ j₁ hm
  | error e => cases hr

/-- A reader that keeps the interface's promise: a read of `n` bytes returns at most `n`. -/
class LawfulByteReader (ρ : Type) [ByteReader ρ] : Prop where
  size_read_le : ∀ n, Returns (ByteReader.read n : ReadM ρ ByteArray) fun bytes => bytes.size ≤ n

lemma Cursor.size_read_le (c : Cursor) (n : Nat) {bytes : ByteArray} (h : (c.read n).1 = .ok bytes) :
    bytes.size ≤ n := by
  unfold Cursor.read at h
  split at h
  · cases h
  split at h
  · split at h
    · cases h
    · cases h
      simp
      omega
  · cases h
    simp
    omega

lemma StreamReader.returns_fill (need : Nat) :
    ∀ (fuel : Nat) (acc : ByteArray), acc.size ≤ need →
      Returns (StreamReader.fill need acc fuel) fun bytes => bytes.size ≤ need
  | 0, acc, h => returns_pure h
  | fuel + 1, acc, h => by
    unfold StreamReader.fill
    by_cases hn : acc.size ≥ need
    · rw [if_pos hn]
      exact returns_pure h
    rw [if_neg hn]
    refine returns_bind_of_forall fun r => ?_
    rcases hread : r.inner.read (need - acc.size) with ⟨result, c⟩
    refine returns_bind_of_forall fun _ => ?_
    cases result with
    | ok bytes =>
      have hb := Cursor.size_read_le r.inner _ (congrArg Prod.fst hread)
      dsimp only
      split
      · exact returns_bind_of_forall fun _ => returns_bind_of_forall fun _ => returns_pure h
      · exact StreamReader.returns_fill need fuel (acc ++ bytes) (by simp; omega)
    | error e =>
      dsimp only
      split
      · exact StreamReader.returns_fill need fuel acc h
      · refine returns_bind_of_forall fun _ => returns_bind_of_forall fun _ => ?_
        split
        · exact returns_throw
        · exact returns_pure h

instance : LawfulByteReader StreamReader where
  size_read_le n := by
    refine returns_bind_of_forall fun r => ?_
    split
    · exact returns_pure (by simp)
    · refine returns_bind (StreamReader.returns_fill n (n + 2) ByteArray.empty (by simp)) ?_
      intro bytes hb
      exact returns_bind_of_forall fun _ => returns_pure hb

instance : LawfulByteReader MemoryReader where
  size_read_le n := by
    intro r j bytes r' j' h
    have hb : bytes = (r.take n).1 := by
      cases h
      rfl
    rw [hb, MemoryReader.take_bytes, ByteArray.size_extract]
    omega

section ReadFull
variable {ρ : Type} [ByteReader ρ] [LawfulByteReader ρ]

/-- The fill loop keeps the bytes gathered at most `n`, and each read adds at least one byte, so
the loop stops with exactly `n` before its fuel runs out. -/
lemma returns_readFull_go (n : Nat) :
    ∀ (fuel : Nat) (acc : ByteArray), acc.size ≤ n → n < acc.size + fuel →
      Returns (readFull.go n acc fuel : CodecM ρ ByteArray) fun bytes => bytes.size = n
  | 0, acc, hle, hlt => absurd hlt (by omega)
  | fuel + 1, acc, hle, hlt => by
    unfold readFull.go
    by_cases hn : acc.size ≥ n
    · rw [if_pos hn]
      exact returns_pure (by omega)
    rw [if_neg hn]
    refine returns_bind (returns_ofRead (LawfulByteReader.size_read_le (n - acc.size))) ?_
    intro bytes hbytes
    by_cases he : bytes.isEmpty
    · rw [if_pos he]
      exact returns_throw
    rw [if_neg he]
    have hpos : 0 < bytes.size := by
      simp only [ByteArray.isEmpty, beq_iff_eq] at he
      omega
    exact returns_readFull_go n fuel (acc ++ bytes) (by simp; omega) (by simp; omega)

/-- Under the readers' promise, filling a buffer of `n` bytes returns exactly `n` bytes. -/
theorem returns_readFull (n : Nat) :
    Returns (readFull n : CodecM ρ ByteArray) fun bytes => bytes.size = n :=
  returns_readFull_go n (n + 1) ByteArray.empty (by simp) (by simp)

end ReadFull

end Pixmap
