import Pixmap.Proofs.Runs

/-! Agreement of computations over two kinds of state: same failures, related values and states,
whatever the journals. It follows the monad (`Agree.bind`, `agree_get_bind`). -/
namespace Pixmap

section Agree

variable {ε σ₁ σ₂ α₁ α₂ β₁ β₂ : Type}

/-- Two results match: the same failure, or values related by `Q`. -/
def ResultRel (Q : α₁ → α₂ → Prop) : Except ε α₁ → Except ε α₂ → Prop
  | .ok a₁, .ok a₂ => Q a₁ a₂
  | .error e₁, .error e₂ => e₁ = e₂
  | _, _ => False

theorem ResultRel.eq {r₁ r₂ : Except ε α₁} (h : ResultRel Eq r₁ r₂) : r₁ = r₂ := by
  cases r₁ <;> cases r₂ <;> simp_all [ResultRel]

/-- From the states `s₁` and `s₂`, whatever the journals, the two computations fail alike or
return values related by `Q`, and leave states related by `R`. -/
def AgreeFrom (R : σ₁ → σ₂ → Prop) (Q : α₁ → α₂ → Prop) (s₁ : σ₁) (s₂ : σ₂)
    (m₁ : ExceptT ε (StateT σ₁ Logged) α₁) (m₂ : ExceptT ε (StateT σ₂ Logged) α₂) : Prop :=
  ∀ j₁ j₂, ResultRel Q (((m₁.run).run s₁).run j₁).1.1 (((m₂.run).run s₂).run j₂).1.1 ∧
    R (((m₁.run).run s₁).run j₁).1.2 (((m₂.run).run s₂).run j₂).1.2

/-- The two computations agree from every pair of related states. -/
def Agree (R : σ₁ → σ₂ → Prop) (Q : α₁ → α₂ → Prop) (m₁ : ExceptT ε (StateT σ₁ Logged) α₁)
    (m₂ : ExceptT ε (StateT σ₂ Logged) α₂) : Prop :=
  ∀ s₁ s₂, R s₁ s₂ → AgreeFrom R Q s₁ s₂ m₁ m₂

variable {R : σ₁ → σ₂ → Prop} {Q : α₁ → α₂ → Prop} {Q' : β₁ → β₂ → Prop} {s₁ : σ₁} {s₂ : σ₂}
  {m₁ : ExceptT ε (StateT σ₁ Logged) α₁} {m₂ : ExceptT ε (StateT σ₂ Logged) α₂}
  {f₁ : α₁ → ExceptT ε (StateT σ₁ Logged) β₁} {f₂ : α₂ → ExceptT ε (StateT σ₂ Logged) β₂}

theorem agree_pure {a₁ : α₁} {a₂ : α₂} (h : Q a₁ a₂) :
    Agree R Q (pure a₁ : ExceptT ε (StateT σ₁ Logged) α₁) (pure a₂) :=
  fun _ _ hs _ _ => ⟨h, hs⟩

theorem agree_throw (e : ε) :
    Agree R Q (throw e : ExceptT ε (StateT σ₁ Logged) α₁) (throw e : ExceptT ε (StateT σ₂ Logged) α₂) :=
  fun _ _ hs _ _ => ⟨rfl, hs⟩

/-- Two agreeing runs both return, with related values and states, or both fail with the same
error, with related states. -/
theorem AgreeFrom.cases (h : AgreeFrom R Q s₁ s₂ m₁ m₂) (j₁ j₂ : Array Record) :
    (∃ a₁ a₂ t₁ t₂ k₁ k₂, ((m₁.run).run s₁).run j₁ = ((.ok a₁, t₁), k₁) ∧
      ((m₂.run).run s₂).run j₂ = ((.ok a₂, t₂), k₂) ∧ Q a₁ a₂ ∧ R t₁ t₂) ∨
    (∃ e t₁ t₂ k₁ k₂, ((m₁.run).run s₁).run j₁ = ((.error e, t₁), k₁) ∧
      ((m₂.run).run s₂).run j₂ = ((.error e, t₂), k₂) ∧ R t₁ t₂) := by
  obtain ⟨hres, hst⟩ := h j₁ j₂
  rcases h₁ : ((m₁.run).run s₁).run j₁ with ⟨⟨r₁, t₁⟩, k₁⟩
  rcases h₂ : ((m₂.run).run s₂).run j₂ with ⟨⟨r₂, t₂⟩, k₂⟩
  rw [h₁, h₂] at hres hst
  cases r₁ with
  | ok a₁ =>
    cases r₂ with
    | ok a₂ => exact .inl ⟨a₁, a₂, t₁, t₂, k₁, k₂, rfl, rfl, hres, hst⟩
    | error e => exact hres.elim
  | error e =>
    cases r₂ with
    | ok a₂ => exact hres.elim
    | error e' =>
      cases hres
      exact .inr ⟨e, t₁, t₂, k₁, k₂, rfl, rfl, hst⟩

theorem AgreeFrom.bind (hm : AgreeFrom R Q s₁ s₂ m₁ m₂) (hf : ∀ a₁ a₂, Q a₁ a₂ → Agree R Q' (f₁ a₁) (f₂ a₂)) :
    AgreeFrom R Q' s₁ s₂ (m₁ >>= f₁) (m₂ >>= f₂) := by
  intro j₁ j₂
  simp only [ExceptT.run_bind, StateT.run_bind]
  rcases hm.cases j₁ j₂ with ⟨a₁, a₂, t₁, t₂, k₁, k₂, h₁, h₂, hq, hst⟩ | ⟨e, t₁, t₂, k₁, k₂, h₁, h₂, hst⟩
  · rw [h₁, h₂]
    exact hf a₁ a₂ hq t₁ t₂ hst k₁ k₂
  · rw [h₁, h₂]
    exact ⟨rfl, hst⟩

theorem Agree.bind (hm : Agree R Q m₁ m₂) (hf : ∀ a₁ a₂, Q a₁ a₂ → Agree R Q' (f₁ a₁) (f₂ a₂)) :
    Agree R Q' (m₁ >>= f₁) (m₂ >>= f₂) :=
  fun s₁ s₂ hs => (hm s₁ s₂ hs).bind hf

/-- A first step with equal results: the continuations need only agree on each value. -/
theorem Agree.bind_eq {f₁ : α₁ → ExceptT ε (StateT σ₁ Logged) β₁} {f₂ : α₁ → ExceptT ε (StateT σ₂ Logged) β₂}
    {m₂ : ExceptT ε (StateT σ₂ Logged) α₁} {m₁ : ExceptT ε (StateT σ₁ Logged) α₁}
    (hm : Agree R Eq m₁ m₂) (hf : ∀ a, Agree R Q' (f₁ a) (f₂ a)) : Agree R Q' (m₁ >>= f₁) (m₂ >>= f₂) :=
  hm.bind fun a _ h => h ▸ hf a

theorem agree_throw_bind (e : ε) (f₁ : α₁ → ExceptT ε (StateT σ₁ Logged) β₁)
    (f₂ : α₂ → ExceptT ε (StateT σ₂ Logged) β₂) : Agree R Q' (throw e >>= f₁) (throw e >>= f₂) :=
  fun _ _ hs _ _ => ⟨rfl, hs⟩

theorem agree_ite (c : Prop) [Decidable c] {a₁ b₁ : ExceptT ε (StateT σ₁ Logged) α₁}
    {a₂ b₂ : ExceptT ε (StateT σ₂ Logged) α₂} (ht : c → Agree R Q a₁ a₂) (he : ¬c → Agree R Q b₁ b₂) :
    Agree R Q (if c then a₁ else b₁) (if c then a₂ else b₂) := by
  by_cases h : c
  · rw [if_pos h, if_pos h]
    exact ht h
  · rw [if_neg h, if_neg h]
    exact he h

/-- A step that reads the state: its continuations must agree from the states read. -/
theorem agree_get_bind {f₁ : σ₁ → ExceptT ε (StateT σ₁ Logged) β₁} {f₂ : σ₂ → ExceptT ε (StateT σ₂ Logged) β₂}
    (h : ∀ s₁ s₂, R s₁ s₂ → AgreeFrom R Q' s₁ s₂ (f₁ s₁) (f₂ s₂)) :
    Agree R Q' (get >>= f₁) (get >>= f₂) :=
  fun s₁ s₂ hs j₁ j₂ => h s₁ s₂ hs j₁ j₂

/-- A step that replaces the state by related states. -/
theorem AgreeFrom.set_bind {t₁ : σ₁} {t₂ : σ₂} {f₁ : PUnit → ExceptT ε (StateT σ₁ Logged) β₁}
    {f₂ : PUnit → ExceptT ε (StateT σ₂ Logged) β₂} (h : AgreeFrom R Q' t₁ t₂ (f₁ ⟨⟩) (f₂ ⟨⟩)) :
    AgreeFrom R Q' s₁ s₂ (set t₁ >>= f₁) (set t₂ >>= f₂) :=
  fun j₁ j₂ => h j₁ j₂

theorem Agree.agreeFrom (h : Agree R Q m₁ m₂) (hs : R s₁ s₂) : AgreeFrom R Q s₁ s₂ m₁ m₂ :=
  h s₁ s₂ hs

theorem Agree.mono {Q'' : α₁ → α₂ → Prop} (h : Agree R Q m₁ m₂) (hQ : ∀ a₁ a₂, Q a₁ a₂ → Q'' a₁ a₂) :
    Agree R Q'' m₁ m₂ := by
  intro s₁ s₂ hs j₁ j₂
  rcases (h s₁ s₂ hs).cases j₁ j₂ with
    ⟨a₁, a₂, t₁, t₂, k₁, k₂, h₁, h₂, hq, hst⟩ | ⟨e, t₁, t₂, k₁, k₂, h₁, h₂, hst⟩
  · rw [h₁, h₂]
    exact ⟨hQ a₁ a₂ hq, hst⟩
  · rw [h₁, h₂]
    exact ⟨rfl, hst⟩

/-- A first step that leaves both states as they were and returns equal values: the
continuations need only agree from the same states. -/
theorem AgreeFrom.bind_stay {f₁ : α₁ → ExceptT ε (StateT σ₁ Logged) β₁}
    {f₂ : α₁ → ExceptT ε (StateT σ₂ Logged) β₂} {m₂ : ExceptT ε (StateT σ₂ Logged) α₁}
    {m₁ : ExceptT ε (StateT σ₁ Logged) α₁} (hm : Agree (fun t₁ t₂ => t₁ = s₁ ∧ t₂ = s₂) Eq m₁ m₂)
    (hf : ∀ a, AgreeFrom R Q' s₁ s₂ (f₁ a) (f₂ a)) (hs : R s₁ s₂) :
    AgreeFrom R Q' s₁ s₂ (m₁ >>= f₁) (m₂ >>= f₂) := by
  intro j₁ j₂
  simp only [ExceptT.run_bind, StateT.run_bind]
  rcases (hm s₁ s₂ ⟨rfl, rfl⟩).cases j₁ j₂ with
    ⟨a, _, t₁, t₂, k₁, k₂, h₁, h₂, rfl, rfl, rfl⟩ | ⟨e, t₁, t₂, k₁, k₂, h₁, h₂, rfl, rfl⟩
  · rw [h₁, h₂]
    exact hf a k₁ k₂
  · rw [h₁, h₂]
    exact ⟨rfl, hs⟩

/-- Agreement on the results alone, whatever states the two runs leave. -/
theorem AgreeFrom.results (h : AgreeFrom R Q s₁ s₂ m₁ m₂) :
    AgreeFrom (fun _ _ => True) Q s₁ s₂ m₁ m₂ :=
  fun j₁ j₂ => ⟨(h j₁ j₂).1, trivial⟩

end Agree

section Codec

variable {σ₁ σ₂ : Type} {R : σ₁ → σ₂ → Prop}

theorem agree_ofRead {α₁ α₂ : Type} {Q : α₁ → α₂ → Prop} {m₁ : ReadM σ₁ α₁} {m₂ : ReadM σ₂ α₂}
    (h : Agree R Q m₁ m₂) : Agree R Q (CodecM.ofRead m₁) (CodecM.ofRead m₂) := by
  intro s₁ s₂ hs j₁ j₂
  simp only [CodecM.ofRead, ExceptT.run_adapt, StateT.run_map]
  rcases (h s₁ s₂ hs).cases j₁ j₂ with
    ⟨a₁, a₂, t₁, t₂, k₁, k₂, e₁, e₂, hq, hst⟩ | ⟨e, t₁, t₂, k₁, k₂, e₁, e₂, hst⟩
  · rw [e₁, e₂]
    exact ⟨hq, hst⟩
  · rw [e₁, e₂]
    exact ⟨rfl, hst⟩

theorem agree_ofExcept {α : Type} (r : Except Error α) :
    Agree R Eq (CodecM.ofExcept r : CodecM σ₁ α) (CodecM.ofExcept r : CodecM σ₂ α) := by
  cases r with
  | ok a => exact agree_pure rfl
  | error e => exact agree_throw e

theorem agree_emit (level : Level) (source : Source) (message : String) :
    Agree R Eq (liftM (emit level source message) : CodecM σ₁ Unit)
      (liftM (emit level source message) : CodecM σ₂ Unit) :=
  fun _ _ hs _ _ => ⟨rfl, hs⟩

/-- A record written before a step changes no state, so it cannot break agreement. -/
theorem AgreeFrom.emit_bind {β₁ β₂ : Type} {Q : β₁ → β₂ → Prop} {s₁ : σ₁} {s₂ : σ₂}
    {f₁ : Unit → CodecM σ₁ β₁} {f₂ : Unit → CodecM σ₂ β₂} (level : Level) (source : Source)
    (message : String) (h : AgreeFrom R Q s₁ s₂ (f₁ ()) (f₂ ())) :
    AgreeFrom R Q s₁ s₂ (liftM (emit level source message) >>= f₁)
      (liftM (emit level source message) >>= f₂) :=
  fun _ _ => h _ _

theorem agree_intoSpec (img : Image) (spec : ColorSpec) :
    Agree R Eq (intoSpec img spec : CodecM σ₁ Image) (intoSpec img spec : CodecM σ₂ Image) := by
  intro s₁ s₂ hs j₁ j₂
  have h₁ := runOn_intoSpec img spec s₁ j₁
  have h₂ := runOn_intoSpec img spec s₂ j₂
  simp only [CodecM.runOn] at h₁ h₂
  rw [h₁, h₂]
  exact ⟨by cases img.convert spec <;> rfl, hs⟩

theorem PngCodec.agree_plan (png : PngLibrary) (limits : Limits) (spec : ColorSpec)
    (session : png.Session) :
    Agree R Eq (PngCodec.plan png limits spec session : CodecM σ₁ _)
      (PngCodec.plan png limits spec session : CodecM σ₂ _) := by
  unfold PngCodec.plan
  rcases png.outputColor session with ⟨color, bitDepth⟩
  dsimp only
  refine (agree_ofExcept _).bind_eq fun depth => (agree_ofExcept _).bind_eq fun ⟨format, channelMap⟩ => ?_
  dsimp only
  refine (agree_emit _ _ _).bind_eq fun _ => (agree_ofExcept _).bind_eq fun _ => ?_
  refine agree_ite _ (fun _ => agree_throw_bind _ _ _) fun _ => ?_
  cases png.outputBufferSize session with
  | none => exact agree_throw _
  | some bufferSize => exact agree_pure rfl

theorem PngCodec.agree_adopt (width height : Nat) (p : PngCodec.FramePlan) (spec : ColorSpec)
    (frame : ByteArray) (lineSize : Nat) :
    Agree R Eq (PngCodec.adopt width height p spec frame lineSize : CodecM σ₁ Image)
      (PngCodec.adopt width height p spec frame lineSize : CodecM σ₂ Image) := by
  unfold PngCodec.adopt
  dsimp only
  refine agree_ite _ (fun _ => agree_throw_bind _ _ _) fun _ => ?_
  refine agree_ite _ (fun _ => agree_throw_bind _ _ _) fun _ => ?_
  exact (agree_ofExcept _).bind_eq fun img => agree_intoSpec img spec

end Codec

section Readers

variable {ρ₁ ρ₂ : Type} [ByteReader ρ₁] [ByteReader ρ₂] {R : ρ₁ → ρ₂ → Prop}
  (hread : ∀ n, Agree R Eq (ByteReader.read n : ReadM ρ₁ ByteArray) (ByteReader.read n : ReadM ρ₂ ByteArray))
include hread

theorem agree_readFull_go (n : Nat) : ∀ fuel acc,
    Agree R Eq (readFull.go n acc fuel : CodecM ρ₁ ByteArray) (readFull.go n acc fuel : CodecM ρ₂ ByteArray)
  | 0, _ => agree_pure rfl
  | fuel + 1, acc => by
    rw [readFull.go, readFull.go]
    dsimp only
    refine agree_ite _ (fun _ => agree_pure rfl) fun _ => ?_
    refine (agree_ofRead (hread _)).bind_eq fun bytes => ?_
    exact agree_ite _ (fun _ => agree_throw_bind _ _ _) fun _ => agree_readFull_go n fuel _

/-- Readers that agree on every read agree on filling a buffer, truncation counts included. -/
theorem agree_readFull (n : Nat) :
    Agree R Eq (readFull n : CodecM ρ₁ ByteArray) (readFull n : CodecM ρ₂ ByteArray) :=
  agree_readFull_go hread n (n + 1) ByteArray.empty

theorem RawCodec.agree_decode (c : RawCodec) (spec : ColorSpec) :
    Agree R Eq (c.decode spec : CodecM ρ₁ Image) (c.decode spec : CodecM ρ₂ Image) := by
  unfold RawCodec.decode
  refine (agree_emit _ _ _).bind_eq fun _ => (agree_ofExcept _).bind_eq fun _ => ?_
  refine (agree_ofExcept _).bind_eq fun img => (agree_readFull hread _).bind_eq fun bytes => ?_
  exact agree_intoSpec _ spec

end Readers

end Pixmap
