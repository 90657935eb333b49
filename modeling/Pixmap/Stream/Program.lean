import Pixmap.Stream.Adapter

/-! Programs that use a reader only as a library behind the read adapter can: by reading and by
seeking, going on from each answer. -/
namespace Pixmap

/-- A program over a reader seen through the adapter's `Read` and `Seek`: it ends with a value,
or reads at most `n` bytes, or seeks, and goes on from the answer. -/
inductive ReadProgram (α : Type) where
  | done (a : α)
  | read (n : Nat) (next : Except IoError ByteArray → ReadProgram α)
  | seek (whence : SeekFrom) (next : Except IoError Nat → ReadProgram α)

namespace ReadProgram

variable {α β : Type}

/-- Goes on with `f` from the value the program ends with. -/
def bind : ReadProgram α → (α → ReadProgram β) → ReadProgram β
  | done a, f => f a
  | read n next, f => read n fun r => bind (next r) f
  | seek w next, f => seek w fun r => bind (next r) f

instance : Monad ReadProgram where
  pure := done
  bind := bind

/-- Runs the program on a reader: a read is the reader's read, a seek the adapter's seek. -/
def run {ρ : Type} [ByteReader ρ] : ReadProgram α → StateT ρ Logged α
  | done a => pure a
  | read n next => do run (next (← (ByteReader.read n : ReadM ρ ByteArray).run))
  | seek w next => do run (next (← (ByteReader.seekFrom w : ReadM ρ Nat).run))

end ReadProgram

end Pixmap
