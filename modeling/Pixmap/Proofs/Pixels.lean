import Pixmap.Pixel.Convert
import Mathlib

/-! Buffers as lists of pixels of the layout's size: split back by `Bytes.groups`, cut at pixel
boundaries, and converted pixel by pixel (`convertBytes_flatten`). -/
namespace Pixmap

section Uniform
variable {α β : Type} {k : Nat}

/-- Slot `i` of `n` consecutive slots of `k` entries ends inside them. -/
theorem slot_end_le {i n : Nat} (hi : i < n) : i * k + k ≤ n * k := by
  rw [← Nat.succ_mul]
  exact Nat.mul_le_mul_right k hi

lemma length_flatten_uniform :
    ∀ (L : List (List α)), (∀ l ∈ L, l.length = k) → L.flatten.length = L.length * k
  | [], _ => by simp
  | l :: L, h => by
    rw [List.flatten_cons, List.length_append, h l (by simp),
      length_flatten_uniform L (fun l' hl => h l' (by simp [hl])), List.length_cons, Nat.succ_mul,
      Nat.add_comm]

theorem drop_flatten_uniform :
    ∀ (L : List (List α)), (∀ l ∈ L, l.length = k) → ∀ p, L.flatten.drop (p * k) = (L.drop p).flatten
  | [], _, p => by simp
  | _ :: _, _, 0 => by simp
  | l :: L, h, p + 1 => by
    have hl : l.length = k := h l (by simp)
    rw [List.flatten_cons, Nat.succ_mul, Nat.add_comm, ← List.drop_drop, List.drop_left' hl,
      drop_flatten_uniform L (fun l' hl' => h l' (by simp [hl'])) p, List.drop_succ_cons]

theorem take_flatten_uniform :
    ∀ (L : List (List α)), (∀ l ∈ L, l.length = k) → ∀ m, L.flatten.take (m * k) = (L.take m).flatten
  | [], _, m => by simp
  | _ :: _, _, 0 => by simp
  | l :: L, h, m + 1 => by
    have hl : l.length = k := h l (by simp)
    rw [List.flatten_cons, Nat.succ_mul, Nat.add_comm, List.take_append, List.take_of_length_le
      (by omega), hl, Nat.add_sub_cancel_left, take_flatten_uniform L (fun l' hl' => h l' (by simp [hl'])) m,
      List.take_succ_cons, List.flatten_cons]

/-- Block `i` of a concatenation of blocks of length `k`, cut out by position. -/
theorem drop_take_flatten_uniform {L : List (List α)} (hL : ∀ l ∈ L, l.length = k) {i : Nat}
    (hi : i < L.length) : (L.flatten.drop (i * k)).take k = L[i] := by
  rw [drop_flatten_uniform L hL, List.drop_eq_getElem_cons hi, List.flatten_cons,
    List.take_left' (hL _ (List.getElem_mem hi))]

/-- A run inside block `i` of a concatenation of blocks of length `k`, cut out by position. -/
theorem drop_take_flatten_within {L : List (List α)} (hL : ∀ l ∈ L, l.length = k) {i j m : Nat}
    (hi : i < L.length) (hjm : j + m ≤ k) : (L.flatten.drop (i * k + j)).take m = (L[i].drop j).take m := by
  have hl := hL _ (List.getElem_mem hi)
  rw [← List.drop_drop, drop_flatten_uniform L hL, List.drop_eq_getElem_cons hi, List.flatten_cons,
    List.drop_append_of_le_length (by omega), List.take_append_of_le_length (by simp; omega)]

lemma uniform_map {f : α → List β} {P : List α} (h : ∀ a ∈ P, (f a).length = k) :
    ∀ l ∈ P.map f, l.length = k := by
  intro l hl
  obtain ⟨a, ha, rfl⟩ := List.mem_map.1 hl
  exact h a ha

end Uniform

namespace Bytes

variable {α : Type} {n : Nat}

/-- A concatenation of groups of length `n` splits back into those groups. -/
theorem groups_flatten (hn : 0 < n) :
    ∀ (L : List (List α)), (∀ l ∈ L, l.length = n) → groups n L.flatten = L
  | [], _ => by simp [groups_nil]
  | l :: L, h => by
    have hl : l.length = n := h l (by simp)
    have hne : l ++ L.flatten ≠ [] := by
      intro he
      have := congrArg List.length he
      simp only [List.length_append, List.length_nil] at this
      omega
    rw [List.flatten_cons, groups_of_pos hn hne, List.take_left' hl, List.drop_left' hl,
      groups_flatten hn L (fun l' hl' => h l' (by simp [hl']))]

theorem groups_of_length_eq_mul (hn : 0 < n) :
    ∀ (m : Nat) (xs : List α), xs.length = m * n →
      (groups n xs).length = m ∧ ∀ g ∈ groups n xs, g.length = n
  | 0, xs, h => by
    have hx : xs = [] := List.eq_nil_of_length_eq_zero (by simpa using h)
    subst hx
    simp [groups_nil]
  | m + 1, xs, h => by
    have hne : xs ≠ [] := by
      intro he
      rw [he, List.length_nil] at h
      exact absurd h (Nat.ne_of_lt (Nat.mul_pos (Nat.succ_pos m) hn))
    obtain ⟨hlen, hall⟩ := groups_of_length_eq_mul hn m (xs.drop n) (by
      rw [List.length_drop, h, Nat.succ_mul, Nat.add_sub_cancel])
    rw [groups_of_pos hn hne]
    refine ⟨by simp [hlen], ?_⟩
    intro g hg
    rcases List.mem_cons.1 hg with rfl | hg
    · simp only [List.length_take, h]
      exact Nat.min_eq_left (Nat.le_mul_of_pos_left n (Nat.succ_pos m))
    · exact hall g hg

lemma length_groups (hn : 0 < n) {m : Nat} {xs : List α} (h : xs.length = m * n) :
    (groups n xs).length = m :=
  (groups_of_length_eq_mul hn m xs h).1

lemma length_of_mem_groups (hn : 0 < n) {m : Nat} {xs : List α} (h : xs.length = m * n) :
    ∀ g ∈ groups n xs, g.length = n :=
  (groups_of_length_eq_mul hn m xs h).2

/-- The rows of a list of `w` groups of `n`, read by position. -/
theorem groups_eq_map_range (hn : 0 < n) : ∀ (w : Nat) (l : List α), l.length = w * n →
    groups n l = (List.range w).map fun i => (l.drop (i * n)).take n
  | 0, l, h => by
    rw [List.eq_nil_of_length_eq_zero (l := l) (by simpa using h)]
    simp [groups_nil]
  | w + 1, l, h => by
    have hne : l ≠ [] := List.ne_nil_of_length_pos (by rw [h]; exact Nat.mul_pos (Nat.succ_pos w) hn)
    rw [groups_of_pos hn hne, groups_eq_map_range hn w (l.drop n) (by rw [List.length_drop, h, Nat.succ_mul]; omega),
      List.range_succ_eq_map, List.map_cons, List.map_map]
    simp only [Nat.zero_mul, List.drop_zero, Function.comp_def, Nat.succ_mul, List.drop_drop]
    congr 2
    funext i
    rw [Nat.add_comm]

/-- The entries of the `cw` by `ch` rectangle at `(x, y)` of a row-major list whose rows hold
`w` entries, row by row. -/
def window (w x y cw ch : Nat) (P : List α) : List α :=
  (List.range ch).flatMap fun i => (P.drop ((y + i) * w + x)).take cw

variable {β : Type} {w x y cw ch : Nat}

lemma mem_window {P : List α} {p : α} (hp : p ∈ window w x y cw ch P) : p ∈ P := by
  obtain ⟨i, _, hi⟩ := List.mem_flatMap.1 hp
  exact List.mem_of_mem_drop (List.mem_of_mem_take hi)

lemma window_eq_nil (P : List α) (h : cw = 0 ∨ ch = 0) : window w x y cw ch P = [] := by
  rcases h with rfl | rfl <;> simp [window]

lemma window_map (f : α → β) (P : List α) :
    window w x y cw ch (P.map f) = (window w x y cw ch P).map f := by
  simp [window, List.map_flatMap, List.map_drop, List.map_take]

/-- Every row of a rectangle inside the grid holds `cw` entries. -/
lemma length_window_row {h : Nat} {P : List α} (hP : P.length = w * h) (hx : x + cw ≤ w)
    (hy : y + ch ≤ h) {i : Nat} (hi : i < ch) : ((P.drop ((y + i) * w + x)).take cw).length = cw := by
  have hrow := slot_end_le (k := w) (show y + i < h by omega)
  rw [Nat.mul_comm h w] at hrow
  simp only [List.length_take, List.length_drop, hP]
  omega

lemma length_window {h : Nat} {P : List α} (hP : P.length = w * h) (hx : x + cw ≤ w)
    (hy : y + ch ≤ h) : (window w x y cw ch P).length = ch * cw := by
  rw [window, List.flatMap_def, length_flatten_uniform _ (uniform_map fun i hi =>
    length_window_row hP hx hy (List.mem_range.1 hi)), List.length_map, List.length_range]

/-- The rectangle of a grid of groups of length `k`, read off the concatenated groups. -/
lemma flatten_window {k : Nat} {P : List (List α)} (hP : ∀ p ∈ P, p.length = k) :
    (window w x y cw ch P).flatten =
      (List.range ch).flatMap fun i => (P.flatten.drop (((y + i) * w + x) * k)).take (cw * k) := by
  rw [window, List.flatMap_def, List.flatMap_def, List.flatten_flatten, List.map_map]
  congr 1
  refine List.map_congr_left fun i _ => ?_
  have hdrop : ∀ p ∈ P.drop ((y + i) * w + x), p.length = k := fun p hp => hP p (List.mem_of_mem_drop hp)
  simp only [Function.comp_apply]
  rw [drop_flatten_uniform P hP, take_flatten_uniform _ hdrop]

end Bytes

namespace ColorSpec

/-- The samples of a converted pixel: the first three re-encoded at the target depth, then an
alpha sample carried over, added as opaque, or none. -/
def convertSamples (s t : ColorSpec) (samples : List (List UInt8)) : List (List UInt8) :=
  (samples.take 3).map (s.depth.recode t.depth) ++
    if t.hasAlpha then
      [if s.hasAlpha then s.depth.recode t.depth (samples.getD 3 []) else t.depth.opaqueSample]
    else []

lemma convertPixel_eq (s t : ColorSpec) (px : List UInt8) :
    convertPixel s t px = (convertSamples s t (Bytes.groups s.depth.bytes px)).flatten := by
  unfold convertPixel convertSamples
  by_cases ht : t.hasAlpha <;> simp [ht, List.flatMap_def]

lemma samples_of_pixel {s : ColorSpec} {px : List UInt8} (hpx : px.length = s.bytesPerPixel) :
    (Bytes.groups s.depth.bytes px).length = s.channels ∧
      ∀ g ∈ Bytes.groups s.depth.bytes px, g.length = s.depth.bytes :=
  Bytes.groups_of_length_eq_mul s.depth.bytes_pos s.channels px hpx

variable {s t : ColorSpec} {S : List (List UInt8)}

lemma three_le_channels (hs : s.format ≠ .monochromatic) : 3 ≤ s.channels := by
  obtain ⟨f, d⟩ := s
  cases f <;> simp_all [channels, PixelFormat.channels]

lemma channels_eq (ht : t.format ≠ .monochromatic) :
    t.channels = 3 + if t.hasAlpha then 1 else 0 := by
  obtain ⟨f, d⟩ := t
  cases f <;> simp_all [channels, hasAlpha, PixelFormat.channels, PixelFormat.hasAlpha]

lemma length_convertSamples (hs : s.format ≠ .monochromatic) (ht : t.format ≠ .monochromatic)
    (hS : S.length = s.channels) : (convertSamples s t S).length = t.channels := by
  have h3 := three_le_channels hs
  rw [channels_eq ht, convertSamples]
  by_cases ha : t.hasAlpha <;> simp [ha] <;> omega

lemma uniform_convertSamples (hS : S.length = s.channels) (hg : ∀ g ∈ S, g.length = s.depth.bytes) :
    ∀ g ∈ convertSamples s t S, g.length = t.depth.bytes := by
  intro g hmem
  rcases List.mem_append.1 hmem with hc | ha
  · obtain ⟨c, hcS, rfl⟩ := List.mem_map.1 hc
    exact ChannelDepth.length_recode _ _ c (hg c (List.mem_of_mem_take hcS))
  · cases ht : t.hasAlpha
    · simp [ht] at ha
    simp only [ht, if_true, List.mem_singleton] at ha
    subst ha
    cases hsa : s.hasAlpha
    · exact ChannelDepth.length_opaqueSample _
    have h4 : 3 < S.length := by
      obtain ⟨f, d⟩ := s
      cases f <;> simp_all [channels, hasAlpha, PixelFormat.channels, PixelFormat.hasAlpha]
    rw [if_pos rfl, List.getD_eq_getElem?_getD, List.getElem?_eq_getElem h4, Option.getD_some]
    exact ChannelDepth.length_recode _ _ _ (hg _ (List.getElem_mem h4))

/-- A pixel of a layout in the table converts into a pixel of the target's size. -/
theorem length_convertPixel (hs : s.format ≠ .monochromatic) (ht : t.format ≠ .monochromatic)
    {px : List UInt8} (hpx : px.length = s.bytesPerPixel) :
    (convertPixel s t px).length = t.bytesPerPixel := by
  obtain ⟨hlen, hall⟩ := samples_of_pixel hpx
  rw [convertPixel_eq, length_flatten_uniform _ (uniform_convertSamples hlen hall),
    length_convertSamples hs ht hlen]
  rfl

lemma canConvert_iff : canConvert s t = true ↔ s = t ∨ convertible s t = true := by
  simp [canConvert]

theorem convertBytes_flatten (hst : s ≠ t) {P : List (List UInt8)}
    (hP : ∀ p ∈ P, p.length = s.bytesPerPixel) :
    convertBytes s t P.flatten = (P.map (convertPixel s t)).flatten := by
  rw [convertBytes, if_neg hst, Bytes.groups_flatten s.bytesPerPixel_pos P hP, List.flatMap_def]

@[simp] lemma convertBytes_self (s : ColorSpec) (src : List UInt8) : convertBytes s s src = src := by
  simp [convertBytes]

lemma pixels_of_length {m : Nat} {src : List UInt8} (h : src.length = m * s.bytesPerPixel) :
    ∃ P : List (List UInt8), src = P.flatten ∧ P.length = m ∧ ∀ p ∈ P, p.length = s.bytesPerPixel :=
  ⟨Bytes.groups s.bytesPerPixel src, (Bytes.flatten_groups s.bytesPerPixel_pos src).symm,
    Bytes.groups_of_length_eq_mul s.bytesPerPixel_pos m src h⟩

/-- A buffer of `m` whole pixels converts into a buffer of `m` pixels of the target. -/
theorem length_convertBytes (hc : canConvert s t = true) {m : Nat} {src : List UInt8}
    (h : src.length = m * s.bytesPerPixel) : (convertBytes s t src).length = m * t.bytesPerPixel := by
  rcases canConvert_iff.1 hc with rfl | hct
  · simpa using h
  obtain ⟨hst, hs, ht⟩ := convertible_iff.1 hct
  obtain ⟨P, rfl, hlen, hP⟩ := pixels_of_length h
  rw [convertBytes_flatten hst hP, length_flatten_uniform _ (uniform_map fun p hp =>
    length_convertPixel hs ht (hP p hp)), List.length_map, hlen]

end ColorSpec

end Pixmap
