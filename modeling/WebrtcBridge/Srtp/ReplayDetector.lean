/-
# The replay detectors

A record that was received once must not be received again.  DTLS and SRTP ask a DETECTOR about the
number of every record: `check` says whether the number is new, and once the record has proved
genuine `accept` enters it.  A detector keeps the highest number and a bit for each of the last
`window_size` numbers, in words of 64 bits (`FixedBigInt`).

* §1  the words, and what `lsh` and `set_bit` do to one bit.  The mask that `lsh` puts on the
  highest word keeps `64 - n % 64` bits of it where the window needs `n % 64`, so it is harmless
  only for some window sizes (`ExactMask`);
* §2  the detector of DTLS, whose numbers do not wrap.  Checked and accepted, its state is a
  `Window` over the numbers accepted so far;
* §3  the detector of SRTP, whose numbers wrap, as one step of `check` and `accept`.  The numbers it
  really tells apart are known only together with the rollover counter (`Srtp.Context`).
-/
import Mathlib.Data.BitVec
import WebrtcBridge.Lib.Window

namespace WebrtcBridge.Srtp

open Lib

/-! ## 1. Fixed-size numbers -/

/-- `chunk_size` in `FixedBigInt::new`. -/
def chunkSize (n : Nat) : Nat := if (n + 63) / 64 = 0 then 1 else (n + 63) / 64

/-- `msb_mask` in `FixedBigInt::new`. -/
def msbMask (n : Nat) : BitVec 64 :=
  if n % 64 = 0 then BitVec.allOnes 64 else (1#64 <<< (64 - n % 64)) - 1#64

/-- A number of `n` bits in words, the lowest first. -/
structure FixedBigInt (n : Nat) where
  bits : List (BitVec 64)
  hbits : bits.length = chunkSize n

namespace FixedBigInt

variable {n : Nat}

def new (n : Nat) : FixedBigInt n := ⟨List.replicate (chunkSize n) 0, List.length_replicate⟩

/-- What `lsh` writes to word `i`, from the words as they are then. -/
def shifted (k : Nat) (bits : List (BitVec 64)) (i : Nat) : BitVec 64 :=
  let carry : BitVec 64 :=
    if k / 64 ≤ i then
      (bits.getD (i - k / 64) 0 <<< (k % 64))
        ||| (if k / 64 < i then
              (if k % 64 = 0 then 0 else bits.getD (i - k / 64 - 1) 0 >>> (64 - k % 64))
            else 0)
    else 0
  if 64 ≤ k then carry else (bits.getD i 0 <<< k) ||| carry

/-- The loop of `lsh`, from the highest word down. -/
def lshLoop (k : Nat) : Nat → List (BitVec 64) → List (BitVec 64)
  | 0, bits => bits
  | i + 1, bits => lshLoop k i (bits.set i (shifted k bits i))

theorem length_lshLoop (k i : Nat) (bits : List (BitVec 64)) :
    (lshLoop k i bits).length = bits.length := by
  induction i generalizing bits with
  | zero => rfl
  | succ i ih => rw [lshLoop, ih, List.length_set]

def lsh (b : FixedBigInt n) (k : Nat) : FixedBigInt n :=
  if k = 0 then b
  else
    let bits := lshLoop k b.bits.length b.bits
    ⟨bits.set (bits.length - 1) (bits.getD (bits.length - 1) 0 &&& msbMask n), by
      rw [List.length_set, length_lshLoop, b.hbits]⟩

/-- `bit(i) != 0`. -/
def bit (b : FixedBigInt n) (i : Nat) : Bool :=
  if n ≤ i then false else decide (b.bits.getD (i / 64) 0 &&& (1#64 <<< (i % 64)) ≠ 0)

def setBit (b : FixedBigInt n) (i : Nat) : FixedBigInt n :=
  if n ≤ i then b
  else ⟨b.bits.set (i / 64) (b.bits.getD (i / 64) 0 ||| (1#64 <<< (i % 64))), by
    rw [List.length_set, b.hbits]⟩

/-! ### Bit by bit -/

/-- Bit `j` of the words. -/
def wordBit (bits : List (BitVec 64)) (j : Nat) : Bool := (bits.getD (j / 64) 0).getLsbD (j % 64)

theorem getD_set (bits : List (BitVec 64)) (i j : Nat) (v : BitVec 64) (hi : i < bits.length) :
    (bits.set i v).getD j 0 = if i = j then v else bits.getD j 0 := by
  rw [List.getD_eq_getElem?_getD, List.getElem?_set, List.getD_eq_getElem?_getD]
  by_cases hij : i = j
  · subst hij
    simp [hi]
  · simp [hij]

/-- A word written is read by the lower words only if they look up, which they do not. -/
theorem shifted_set (k : Nat) (bits : List (BitVec 64)) {i j : Nat} (v : BitVec 64)
    (hi : i < bits.length) (hj : j < i) : shifted k (bits.set i v) j = shifted k bits j := by
  have hread : ∀ m, m ≤ j → (bits.set i v).getD m 0 = bits.getD m 0 := by
    intro m hm
    rw [getD_set bits i m v hi, if_neg (by omega)]
  unfold shifted
  rw [hread j (Nat.le_refl j), hread (j - k / 64) (by omega), hread (j - k / 64 - 1) (by omega)]

/-- The loop replaces each word by what it makes of the words it started with. -/
theorem getD_lshLoop (k i : Nat) (bits : List (BitVec 64)) (hi : i ≤ bits.length) (j : Nat) :
    (lshLoop k i bits).getD j 0 = if j < i then shifted k bits j else bits.getD j 0 := by
  induction i generalizing bits with
  | zero => simp [lshLoop]
  | succ i ih =>
    rw [lshLoop, ih _ (by rw [List.length_set]; omega), getD_set bits i j _ hi]
    by_cases hji : j < i
    · rw [if_pos hji, if_pos (by omega), shifted_set k bits _ hi hji]
    · rw [if_neg hji]
      by_cases heq : i = j
      · subst heq
        simp
      · rw [if_neg heq, if_neg (by omega)]

/-- The part of a shift by at least one word: what comes from `k / 64` words below, and from the
word below that one. -/
theorem getLsbD_carry (k : Nat) (bits : List (BitVec 64)) (i p : Nat) (hp : p < 64) :
    ((if k / 64 ≤ i then
      (bits.getD (i - k / 64) 0 <<< (k % 64))
        ||| (if k / 64 < i then
              (if k % 64 = 0 then 0 else bits.getD (i - k / 64 - 1) 0 >>> (64 - k % 64))
            else 0)
    else 0 : BitVec 64)).getLsbD p
      = (decide (k ≤ 64 * i + p) && wordBit bits (64 * i + p - k)) := by
  by_cases hc : k / 64 ≤ i
  · rw [if_pos hc, BitVec.getLsbD_or, BitVec.getLsbD_shiftLeft]
    by_cases hpr : k % 64 ≤ p
    · -- the bit stays in its word; the word below would give a bit from above its end
      have hdiv : (64 * i + p - k) / 64 = i - k / 64 := by omega
      have hmod : (64 * i + p - k) % 64 = p - k % 64 := by omega
      have hnone : (if k / 64 < i then
          (if k % 64 = 0 then 0 else bits.getD (i - k / 64 - 1) 0 >>> (64 - k % 64))
          else (0 : BitVec 64)).getLsbD p = false := by
        split
        · split
          · simp
          · rw [BitVec.getLsbD_ushiftRight, BitVec.getLsbD_of_ge _ _ (by omega)]
        · simp
      have hle : k ≤ 64 * i + p := by omega
      rw [hnone, wordBit, hdiv, hmod]
      simp [hp, hle, Nat.not_lt.mpr hpr]
    · by_cases hlt : k / 64 < i
      · have hdiv : (64 * i + p - k) / 64 = i - k / 64 - 1 := by omega
        have hmod : (64 * i + p - k) % 64 = 64 - k % 64 + p := by omega
        have hle : k ≤ 64 * i + p := by omega
        rw [if_pos hlt, if_neg (by omega), BitVec.getLsbD_ushiftRight]
        simp [wordBit, hdiv, hmod, hle, Nat.lt_of_not_le hpr]
      · have hnle : ¬ k ≤ 64 * i + p := by omega
        simp [hlt, hnle, Nat.lt_of_not_le hpr]
  · have hnle : ¬ k ≤ 64 * i + p := by omega
    simp [hc, hnle]

/-- **One word of a shift.** -/
theorem getLsbD_shifted (k : Nat) (bits : List (BitVec 64)) (i p : Nat) (hp : p < 64) :
    (shifted k bits i).getLsbD p = (decide (k ≤ 64 * i + p) && wordBit bits (64 * i + p - k)) := by
  unfold shifted
  by_cases hk : 64 ≤ k
  · simp only [hk, if_true]
    exact getLsbD_carry k bits i p hp
  · simp only [hk, if_false, BitVec.getLsbD_or]
    rw [getLsbD_carry k bits i p hp, BitVec.getLsbD_shiftLeft]
    by_cases hkp : k ≤ p
    · have hdiv : (64 * i + p - k) / 64 = i := by omega
      have hmod : (64 * i + p - k) % 64 = p - k := by omega
      have hle : k ≤ 64 * i + p := by omega
      simp [wordBit, hdiv, hmod, hp, hle, Nat.not_lt.mpr hkp]
    · simp [Nat.lt_of_not_le hkp]

theorem wordBit_lshLoop (k : Nat) (bits : List (BitVec 64)) (j : Nat) (hj : j / 64 < bits.length) :
    wordBit (lshLoop k bits.length bits) j = (decide (k ≤ j) && wordBit bits (j - k)) := by
  have hsplit : 64 * (j / 64) + j % 64 = j := Nat.div_add_mod j 64
  rw [wordBit, getD_lshLoop k _ bits (Nat.le_refl _), if_pos hj,
    getLsbD_shifted k bits (j / 64) (j % 64) (Nat.mod_lt j (by omega)), hsplit]

/-- The mask keeps the lowest `64 - n % 64` bits. -/
theorem getLsbD_msbMask (n p : Nat) : (msbMask n).getLsbD p = decide (p < 64 - n % 64) := by
  unfold msbMask
  by_cases hn : n % 64 = 0
  · rw [if_pos hn, BitVec.getLsbD_allOnes, hn, Nat.sub_zero]
  · have hpow : 2 ^ (64 - n % 64) < 2 ^ 64 := Nat.pow_lt_pow_right (by omega) (by omega)
    have hpos : 0 < 2 ^ (64 - n % 64) := Nat.two_pow_pos _
    have hval : ((1#64 <<< (64 - n % 64)) - 1#64).toNat = 2 ^ (64 - n % 64) - 1 := by
      rw [BitVec.toNat_sub, BitVec.toNat_shiftLeft, BitVec.toNat_ofNat, Nat.shiftLeft_eq]
      rw [Nat.mod_eq_of_lt (a := 1) (by omega), Nat.one_mul, Nat.mod_eq_of_lt hpow]
      omega
    rw [if_neg hn, BitVec.getLsbD, hval, Nat.testBit_two_pow_sub_one]

theorem and_ne_zero_iff (x : BitVec 64) {p : Nat} (hp : p < 64) :
    x &&& (1#64 <<< p) ≠ 0 ↔ x.getLsbD p = true := by
  constructor
  · intro hne
    by_contra hx
    refine hne (BitVec.eq_of_getLsbD_eq fun m hm => ?_)
    rw [BitVec.getLsbD_and, BitVec.getLsbD_shiftLeft, BitVec.getLsbD_one]
    by_cases hmp : m = p
    · rw [hmp, Bool.eq_false_iff.mpr hx]
      simp
    · -- the other bits of the mask are zero
      have hoff : m < p ∨ m - p ≠ 0 := by omega
      rcases hoff with hoff | hoff <;> simp [hoff]
  · intro hx hzero
    have hbit : (x &&& (1#64 <<< p)).getLsbD p = false := by rw [hzero]; simp
    rw [BitVec.getLsbD_and, BitVec.getLsbD_shiftLeft, hx] at hbit
    simp [hp] at hbit

theorem bit_eq (b : FixedBigInt n) {i : Nat} (hi : i < n) : b.bit i = wordBit b.bits i := by
  rw [bit, if_neg (by omega), wordBit, Bool.eq_iff_iff, decide_eq_true_iff,
    and_ne_zero_iff _ (Nat.mod_lt i (by omega))]

theorem div_lt_chunkSize {i : Nat} (hi : i < n) : i / 64 < chunkSize n := by
  unfold chunkSize
  split <;> omega

theorem bit_new (i : Nat) : (new n).bit i = false := by
  by_cases hi : i < n
  · rw [bit_eq _ hi, wordBit]
    simp only [new, List.getD_eq_getElem?_getD, List.getElem?_replicate,
      div_lt_chunkSize hi, if_true]
    simp
  · rw [bit, if_pos (by omega)]

theorem bit_setBit (b : FixedBigInt n) {i j : Nat} (hi : i < n) (hj : j < n) :
    (b.setBit j).bit i = (b.bit i || decide (i = j)) := by
  have hlen : j / 64 < b.bits.length := b.hbits ▸ div_lt_chunkSize hj
  rw [bit_eq _ hi, bit_eq _ hi, setBit, if_neg (by omega), wordBit, wordBit]
  simp only
  rw [getD_set _ _ _ _ hlen]
  by_cases hword : j / 64 = i / 64
  · have hp : i % 64 < 64 := Nat.mod_lt i (by omega)
    rw [if_pos hword, hword, BitVec.getLsbD_or, BitVec.getLsbD_shiftLeft, BitVec.getLsbD_one]
    by_cases hij : i = j
    · simp [hij]
      omega
    · have hoff : i % 64 < j % 64 ∨ i % 64 - j % 64 ≠ 0 := by omega
      rcases hoff with hoff | hoff <;> simp [hij, hoff]
  · have hij : i ≠ j := fun h => hword (by rw [h])
    simp [hword, hij]

/-- The window sizes for which the mask of the highest word leaves the window alone. -/
def ExactMask (n : Nat) : Prop := n % 64 ≤ 32

instance (n : Nat) : Decidable (ExactMask n) := inferInstanceAs (Decidable (n % 64 ≤ 32))

/-- What the mask does to a bit of the window after a shift. -/
theorem bit_lsh_masked (b : FixedBigInt n) {k i : Nat} (hk : 0 < k) (hi : i < n) :
    (b.lsh k).bit i = (decide (k ≤ i) && b.bit (i - k)
      && (decide (i / 64 + 1 < chunkSize n) || decide (i % 64 < 64 - n % 64))) := by
  have hlen : (lshLoop k b.bits.length b.bits).length = chunkSize n := by
    rw [length_lshLoop, b.hbits]
  have hword : i / 64 < chunkSize n := div_lt_chunkSize hi
  have hshift := wordBit_lshLoop k b.bits i (b.hbits ▸ hword)
  rw [bit_eq _ hi, bit_eq b (by omega : i - k < n), ← hshift, lsh, if_neg (by omega),
    wordBit, wordBit]
  simp only
  rw [getD_set _ _ _ _ (by omega), hlen]
  by_cases hlast : chunkSize n - 1 = i / 64
  · rw [if_pos hlast, hlast, BitVec.getLsbD_and, getLsbD_msbMask]
    have hnot : ¬ i / 64 + 1 < chunkSize n := by omega
    simp [hnot]
  · have hlow : i / 64 + 1 < chunkSize n := by omega
    simp [hlast, hlow]

/-- **A shift**, where the mask is harmless. -/
theorem bit_lsh (h : ExactMask n) (b : FixedBigInt n) {k i : Nat} (hk : 0 < k) (hi : i < n) :
    (b.lsh k).bit i = (decide (k ≤ i) && b.bit (i - k)) := by
  rw [bit_lsh_masked b hk hi]
  have hkept : i / 64 + 1 < chunkSize n ∨ i % 64 < 64 - n % 64 := by
    unfold ExactMask at h
    unfold chunkSize
    split <;> omega
  rcases hkept with hkept | hkept <;> simp [hkept]

/-- The head of a window moves: a shift, then bit zero. -/
theorem bit_lsh_setBit (b : FixedBigInt n) (h : ExactMask n) {k i : Nat} (hk : 0 < k) (hi : i < n) :
    ((b.lsh k).setBit 0).bit i = (decide (i = 0) || (decide (k ≤ i) && b.bit (i - k))) := by
  rw [bit_setBit _ hi (by omega), bit_lsh h b hk hi, Bool.or_comm]

/-- Where it is not, there is a bit of the window that no shift leaves. -/
theorem bit_lsh_lost (h : ¬ ExactMask n) (b : FixedBigInt n) {k : Nat} (hk : 0 < k) :
    (b.lsh k).bit (64 * (n / 64) + (64 - n % 64)) = false := by
  unfold ExactMask at h
  have hlast : ¬ (64 * (n / 64) + (64 - n % 64)) / 64 + 1 < chunkSize n := by
    unfold chunkSize
    split <;> omega
  have hoff : ¬ (64 * (n / 64) + (64 - n % 64)) % 64 < 64 - n % 64 := by omega
  rw [bit_lsh_masked b hk (by omega), decide_eq_false hlast, decide_eq_false hoff]
  simp

end FixedBigInt

open FixedBigInt (ExactMask)

/-! ## 2. The detector without wrapping -/

structure SlidingWindowDetector (windowSize : Nat) where
  accepted : Bool
  seq : Nat
  latestSeq : Nat
  maxSeq : Nat
  mask : FixedBigInt windowSize

namespace SlidingWindowDetector

variable {n : Nat}

def new (n maxSeq : Nat) : SlidingWindowDetector n := ⟨false, 0, 0, maxSeq, FixedBigInt.new n⟩

/-- The verdict of `check`; the sum is one of `u64`. -/
def isNew (d : SlidingWindowDetector n) (seq : Nat) : Bool :=
  if d.maxSeq < seq then false
  else if seq ≤ d.latestSeq then
    if (n + seq) % 2 ^ 64 ≤ d.latestSeq then false
    else if d.mask.bit (d.latestSeq - seq) then false
    else true
  else true

def check (d : SlidingWindowDetector n) (seq : Nat) : Bool × SlidingWindowDetector n :=
  if d.isNew seq then (true, { d with accepted := true, seq := seq })
  else (false, { d with accepted := false })

def accept (d : SlidingWindowDetector n) : SlidingWindowDetector n :=
  if d.accepted then
    let d :=
      if d.latestSeq < d.seq then
        { d with mask := d.mask.lsh (d.seq - d.latestSeq), latestSeq := d.seq }
      else d
    { d with mask := d.mask.setBit ((d.latestSeq - d.seq) % d.maxSeq) }
  else d

/-- **The state and the numbers accepted so far.**  The head of the window is the highest of them,
or still zero. -/
structure Tracks (d : SlidingWindowDetector n) (maxSeq : Nat) (log : List Nat) : Prop where
  max : d.maxSeq = maxSeq
  window : Window n d.latestSeq d.mask.bit (log.map Int.ofNat)
  head : d.latestSeq = 0 ∨ d.latestSeq ∈ log

section Tracks

variable {d : SlidingWindowDetector n} {maxSeq : Nat} {log : List Nat}

theorem new_tracks (n maxSeq : Nat) : (new n maxSeq).Tracks maxSeq [] where
  max := rfl
  window := Window.empty n _ fun j _ => FixedBigInt.bit_new j
  head := Or.inl rfl

/-- `check` only notes its verdict. -/
theorem Tracks.check (h : d.Tracks maxSeq log) (seq : Nat) : (d.check seq).2.Tracks maxSeq log := by
  unfold SlidingWindowDetector.check
  split <;> exact ⟨h.max, h.window, h.head⟩

theorem Tracks.mem_iff (h : d.Tracks maxSeq log) {seq : Nat} (hle : seq ≤ d.latestSeq)
    (hin : d.latestSeq < n + seq) : d.mask.bit (d.latestSeq - seq) = true ↔ seq ∈ log := by
  have hbit := h.window.bit_iff (d.latestSeq - seq) (by omega)
  have hval : (d.latestSeq : Int) - (d.latestSeq - seq : Nat) = Int.ofNat seq := by
    show _ = (seq : Int)
    omega
  rw [hbit, hval, List.mem_map_of_injective (fun a b hab => Int.ofNat.inj hab)]

theorem Tracks.le_latest (h : d.Tracks maxSeq log) {a : Nat} (ha : a ∈ log) : a ≤ d.latestSeq := by
  have hle := h.window.le_head (Int.ofNat a) (List.mem_map_of_mem ha)
  exact Int.ofNat_le.mp hle

/-- The verdict in one line, for numbers whose sums fit in 64 bits. -/
theorem isNew_eq (d : SlidingWindowDetector n) (hmax : n + d.maxSeq < 2 ^ 64) (seq : Nat) :
    d.isNew seq = true ↔ seq ≤ d.maxSeq ∧ (d.latestSeq < seq
      ∨ seq ≤ d.latestSeq ∧ d.latestSeq < n + seq ∧ d.mask.bit (d.latestSeq - seq) = false) := by
  unfold isNew
  by_cases hbig : d.maxSeq < seq
  · simp [hbig]
  · rw [if_neg hbig, Nat.mod_eq_of_lt (by omega : n + seq < 2 ^ 64)]
    by_cases hle : seq ≤ d.latestSeq
    · simp [hle, Nat.le_of_not_lt hbig, Nat.not_lt.mpr hle]
    · simp [hle, Nat.le_of_not_lt hbig, Nat.lt_of_not_le hle]

/-- **What is new.**  A number is let through exactly if it has not been accepted, is not too large,
and lies within the window of every number accepted. -/
theorem Tracks.isNew_iff (h : d.Tracks maxSeq log) (hpos : 0 < n) (hmax : n + maxSeq < 2 ^ 64)
    (seq : Nat) :
    d.isNew seq = true ↔ seq ≤ maxSeq ∧ seq ∉ log ∧ ∀ a ∈ log, a < n + seq := by
  rw [isNew_eq d (h.max ▸ hmax), h.max]
  refine and_congr_right fun _ => ?_
  constructor
  · rintro (hahead | ⟨hle, hin, hfree⟩)
    · refine ⟨fun hm => ?_, fun a ha => ?_⟩
      · have := h.le_latest hm
        omega
      · have := h.le_latest ha
        omega
    · refine ⟨fun hm => ?_, fun a ha => ?_⟩
      · rw [← h.mem_iff hle hin, hfree] at hm
        cases hm
      · have := h.le_latest ha
        omega
  · rintro ⟨hnot, hall⟩
    by_cases hahead : d.latestSeq < seq
    · exact Or.inl hahead
    · -- the head is zero or a number of the log, and the window reaches down from either
      have hin : d.latestSeq < n + seq := h.head.elim (by omega) (hall _)
      refine Or.inr ⟨by omega, hin, Bool.eq_false_iff.mpr fun hbit => hnot ?_⟩
      exact (h.mem_iff (by omega) hin).mp hbit

/-- **A number let through and accepted** joins the log.  The case split is that of `accept`. -/
theorem Tracks.accept (h : d.Tracks maxSeq log) (hexact : ExactMask n) (hle : n ≤ maxSeq)
    (hmax : n + maxSeq < 2 ^ 64) {seq : Nat} (hnew : d.isNew seq = true) :
    (d.check seq).2.accept.Tracks maxSeq (log ++ [seq]) := by
  have hcases := (isNew_eq d (h.max ▸ hmax) seq).mp hnew
  unfold SlidingWindowDetector.check
  rw [if_pos hnew]
  unfold SlidingWindowDetector.accept
  simp only [if_true]
  rcases hcases.2 with hahead | ⟨hseq, hin, hfree⟩
  · have hk : 0 < seq - d.latestSeq := by omega
    simp only [hahead, if_true, Nat.sub_self, Nat.zero_mod]
    refine ⟨h.max, ?_, Or.inr (by simp)⟩
    have hsum : (d.latestSeq : Int) + (seq - d.latestSeq : Nat) = seq := by omega
    have hwin := h.window.ahead hk fun j hj => d.mask.bit_lsh_setBit hexact hk hj
    rw [hsum] at hwin
    rw [List.map_append]
    exact hwin
  · have hmod : (d.latestSeq - seq) % d.maxSeq = d.latestSeq - seq :=
      Nat.mod_eq_of_lt (by rw [h.max]; omega)
    simp only [Nat.not_lt.mpr hseq, if_false, hmod]
    refine ⟨h.max, ?_, h.head.imp_right fun hm => List.mem_append_left _ hm⟩
    have hval : (d.latestSeq : Int) - (d.latestSeq - seq : Nat) = seq := by omega
    have hoff : d.latestSeq - seq < n := by omega
    have hwin := h.window.behind hoff hfree fun i hi => d.mask.bit_setBit hi hoff
    rw [hval] at hwin
    rw [List.map_append]
    exact hwin

theorem Tracks.nodup (h : d.Tracks maxSeq log) : log.Nodup := List.Nodup.of_map _ h.window.nodup

end Tracks

theorem check_of_isNew {d : SlidingWindowDetector n} {seq : Nat} (h : d.isNew seq = true) :
    d.check seq = (true, { d with accepted := true, seq := seq }) := if_pos h

/-- **A window that the mask cuts** forgets the number zero: it is accepted, then a number ahead of
it is, and then zero passes again. -/
theorem inexact_forgets (hexact : ¬ ExactMask n) {maxSeq : Nat} (hle : n ≤ maxSeq)
    (hmax : n + maxSeq < 2 ^ 64) :
    ∃ k, 0 < k ∧ k < n ∧ ((new n maxSeq).check 0).1 = true
      ∧ (((new n maxSeq).check 0).2.accept.check k).1 = true
      ∧ ((((new n maxSeq).check 0).2.accept.check k).2.accept.check 0).1 = true := by
  have hsize : 32 < n % 64 := by
    unfold ExactMask at hexact
    omega
  -- the number whose distance from zero is the bit that is lost
  refine ⟨64 * (n / 64) + (64 - n % 64), by omega, by omega, ?_⟩
  generalize hk : 64 * (n / 64) + (64 - n % 64) = k
  have hkn : k < n := by omega
  have hfirst : (new n maxSeq).isNew 0 = true := by
    rw [isNew_eq _ hmax]
    exact ⟨Nat.zero_le _, Or.inr ⟨Nat.le_refl _, by show 0 < n + 0; omega, FixedBigInt.bit_new _⟩⟩
  rw [check_of_isNew hfirst]
  have haccept : (accept { new n maxSeq with accepted := true, seq := 0 })
      = ⟨true, 0, 0, maxSeq, (FixedBigInt.new n).setBit (0 % maxSeq)⟩ := rfl
  simp only [haccept]
  have hsecond : isNew ⟨true, 0, 0, maxSeq, (FixedBigInt.new n).setBit (0 % maxSeq)⟩ k = true := by
    rw [isNew_eq _ hmax]
    exact ⟨by show k ≤ maxSeq; omega, Or.inl (by show 0 < k; omega)⟩
  rw [check_of_isNew hsecond]
  have hshift : accept ⟨true, k, 0, maxSeq, (FixedBigInt.new n).setBit (0 % maxSeq)⟩
      = ⟨true, k, k, maxSeq, (((FixedBigInt.new n).setBit (0 % maxSeq)).lsh k).setBit 0⟩ := by
    have hpos : 0 < k := by omega
    simp only [accept, if_true, hpos, Nat.sub_self, Nat.zero_mod, Nat.sub_zero]
  simp only [hshift]
  have hagain : isNew (n := n) ⟨true, k, k, maxSeq,
      (((FixedBigInt.new n).setBit (0 % maxSeq)).lsh k).setBit 0⟩ 0 = true := by
    rw [isNew_eq _ hmax]
    refine ⟨Nat.zero_le _, Or.inr ⟨Nat.zero_le _, by show k < n + 0; omega, ?_⟩⟩
    show FixedBigInt.bit ((((FixedBigInt.new n).setBit (0 % maxSeq)).lsh k).setBit 0)
      (k - 0) = false
    rw [Nat.sub_zero, FixedBigInt.bit_setBit _ hkn (by omega)]
    have hlost := FixedBigInt.bit_lsh_lost hexact ((FixedBigInt.new n).setBit (0 % maxSeq))
      (by omega : 0 < k)
    rw [hk] at hlost
    rw [hlost, decide_eq_false (by omega)]
    rfl
  rw [check_of_isNew hagain]
  exact ⟨trivial, trivial, rfl⟩

end SlidingWindowDetector

/-! ## 3. The detector with wrapping -/

structure WrappedSlidingWindowDetector (windowSize : Nat) where
  accepted : Bool
  seq : Nat
  latestSeq : Nat
  maxSeq : Nat
  mask : FixedBigInt windowSize
  init : Bool

namespace WrappedSlidingWindowDetector

variable {n : Nat}

def new (n maxSeq : Nat) : WrappedSlidingWindowDetector n :=
  ⟨false, 0, 0, maxSeq, FixedBigInt.new n, false⟩

/-- How far `seq` lies behind `latest`, wrapped to about half of the numbers on either side. -/
def wrapDiff (maxSeq latest seq : Nat) : Int :=
  let diff : Int := latest - seq
  if (maxSeq / 2 : Nat) < diff then diff - (maxSeq + 1)
  else if diff ≤ -(maxSeq / 2 : Nat) then diff + (maxSeq + 1)
  else diff

/-- The first number ever checked puts the head just below itself. -/
def start (d : WrappedSlidingWindowDetector n) (seq : Nat) : WrappedSlidingWindowDetector n :=
  if d.init then d
  else { d with latestSeq := if seq ≠ 0 then seq - 1 else d.maxSeq, init := true }

def check (d : WrappedSlidingWindowDetector n) (seq : Nat) :
    Bool × WrappedSlidingWindowDetector n :=
  if d.maxSeq < seq then (false, { d with accepted := false })
  else
    let d := d.start seq
    let diff := wrapDiff d.maxSeq d.latestSeq seq
    if n ≤ diff then (false, { d with accepted := false })
    else if 0 ≤ diff ∧ d.mask.bit diff.toNat then (false, { d with accepted := false })
    else (true, { d with accepted := true, seq := seq })

/-- `accept`; `none` is the failed assertion. -/
def accept (d : WrappedSlidingWindowDetector n) : Option (WrappedSlidingWindowDetector n) :=
  if d.accepted then
    let diff := wrapDiff d.maxSeq d.latestSeq d.seq
    if diff < n then
      if diff < 0 then
        some { d with mask := (d.mask.lsh (-diff).toNat).setBit 0, latestSeq := d.seq }
      else some { d with mask := d.mask.setBit diff.toNat }
    else none
  else some d

/-- **The state and a log of UNWRAPPED numbers.**  The head of the window is unwrapped too; it may
be a number that was never accepted, since the first check of all sets it. -/
structure Tracks (d : WrappedSlidingWindowDetector n) (maxSeq : Nat) (head : Int) (log : List Nat) :
    Prop where
  max : d.maxSeq = maxSeq
  init : d.init = true
  latest : (d.latestSeq : Int) = head % (maxSeq + 1)
  window : Window n head d.mask.bit (log.map Int.ofNat)

section Tracks

variable {d : WrappedSlidingWindowDetector n} {maxSeq : Nat} {head : Int} {log : List Nat}

theorem start_init (h : d.init = true) (seq : Nat) : d.start seq = d := if_pos h

@[simp] theorem start_maxSeq (d : WrappedSlidingWindowDetector n) (seq : Nat) :
    (d.start seq).maxSeq = d.maxSeq := by
  unfold start
  split <;> rfl

@[simp] theorem start_mask (d : WrappedSlidingWindowDetector n) (seq : Nat) :
    (d.start seq).mask = d.mask := by
  unfold start
  split <;> rfl

@[simp] theorem start_started (d : WrappedSlidingWindowDetector n) (seq : Nat) :
    (d.start seq).init = true := by
  unfold start
  split <;> simp [*]

theorem start_latestSeq_le (d : WrappedSlidingWindowDetector n) (h : d.latestSeq ≤ d.maxSeq)
    {seq : Nat} (hle : seq ≤ d.maxSeq) :
    (d.start seq).latestSeq ≤ d.maxSeq := by
  unfold start
  split
  · exact h
  · simp only
    split <;> omega

/-- The first check of all, as one of a detector that was started for it. -/
theorem check_start (d : WrappedSlidingWindowDetector n) {seq : Nat} (hle : seq ≤ d.maxSeq) :
    d.check seq = (d.start seq).check seq := by
  simp only [check, start_init (start_started d seq), start_maxSeq, Nat.not_lt.mpr hle, if_false]

/-- What `check` leaves behind: a note, and the start. -/
theorem check_state (d : WrappedSlidingWindowDetector n) {seq : Nat} (hle : seq ≤ d.maxSeq) :
    ∃ accepted noted, (d.check seq).2
      = { d.start seq with accepted := accepted, seq := noted } := by
  unfold check
  rw [if_neg (Nat.not_lt.mpr hle)]
  simp only
  split
  · exact ⟨false, _, rfl⟩
  · split
    · exact ⟨false, _, rfl⟩
    · exact ⟨true, _, rfl⟩

/-- The verdict in one line. -/
theorem check_eq (h : d.init = true) (seq : Nat) :
    (d.check seq).1 = true ↔ seq ≤ d.maxSeq ∧ wrapDiff d.maxSeq d.latestSeq seq < n
      ∧ (0 ≤ wrapDiff d.maxSeq d.latestSeq seq →
          d.mask.bit (wrapDiff d.maxSeq d.latestSeq seq).toNat = false) := by
  unfold check
  rw [start_init h]
  by_cases hbig : d.maxSeq < seq
  · simp [hbig]
  · by_cases hold : (n : Int) ≤ wrapDiff d.maxSeq d.latestSeq seq
    · simp [hbig, hold]
    · by_cases hset : 0 ≤ wrapDiff d.maxSeq d.latestSeq seq
          ∧ d.mask.bit (wrapDiff d.maxSeq d.latestSeq seq).toNat = true
      · simp [hbig, hold, hset]
      · simp only [hbig, hold, hset, if_false, true_iff]
        refine ⟨by omega, by omega, fun h0 => Bool.eq_false_iff.mpr fun hb => hset ⟨h0, hb⟩⟩

/-- What a number that passes leaves behind. -/
theorem check_state_of_new (h : d.init = true) {seq : Nat} (hnew : (d.check seq).1 = true) :
    (d.check seq).2 = { d with accepted := true, seq := seq } := by
  obtain ⟨hle, hlt, hfree⟩ := (check_eq h seq).mp hnew
  have hset : ¬ (0 ≤ wrapDiff d.maxSeq d.latestSeq seq
      ∧ d.mask.bit (wrapDiff d.maxSeq d.latestSeq seq).toNat = true) := fun hb => by
    rw [hfree hb.1] at hb
    exact absurd hb.2 Bool.false_ne_true
  unfold WrappedSlidingWindowDetector.check
  rw [start_init h]
  simp only [Nat.not_lt.mpr hle, if_false, Int.not_le.mpr hlt, hset]

/-- The assertion of `accept` holds for every number that has passed. -/
theorem accept_of_new (h : d.init = true) {seq : Nat} (hnew : (d.check seq).1 = true) :
    ∃ d', (d.check seq).2.accept = some d' := by
  have hlt := ((check_eq h seq).mp hnew).2.1
  rw [check_state_of_new h hnew]
  simp only [WrappedSlidingWindowDetector.accept, if_true, hlt]
  split
  · exact ⟨_, rfl⟩
  · exact ⟨_, rfl⟩

theorem Tracks.check (h : d.Tracks maxSeq head log) {seq : Nat} (hle : seq ≤ maxSeq) :
    (d.check seq).2.Tracks maxSeq head log := by
  obtain ⟨accepted, noted, hstate⟩ := d.check_state (by rwa [h.max] : seq ≤ d.maxSeq)
  rw [hstate, start_init h.init]
  exact ⟨h.max, h.init, h.latest, h.window⟩

theorem Tracks.mem_iff (h : d.Tracks maxSeq head log) {g : Nat} (hle : (g : Int) ≤ head)
    (hin : head - g < n) : d.mask.bit (head - g).toNat = true ↔ g ∈ log := by
  have hbit := h.window.bit_iff (head - g).toNat (by omega)
  have hval : head - ((head - g).toNat : Nat) = Int.ofNat g := by
    show _ = (g : Int)
    omega
  rw [hbit, hval, List.mem_map_of_injective (fun a b hab => Int.ofNat.inj hab)]

/-- **Checked and accepted.**  If the distance that the detector computes is the real one, the
number joins the log, and the assertion of `accept` does not fail. -/
theorem Tracks.accept (h : d.Tracks maxSeq head log) (hexact : ExactMask n) {g : Nat}
    (hdiff : wrapDiff maxSeq d.latestSeq (g % (maxSeq + 1)) = head - g)
    (hnew : (d.check (g % (maxSeq + 1))).1 = true) :
    ∃ d', (d.check (g % (maxSeq + 1))).2.accept = some d'
      ∧ d'.Tracks maxSeq (Max.max head g) (log ++ [g]) := by
  obtain ⟨hle, hlt, hfree⟩ := (check_eq h.init _).mp hnew
  rw [h.max] at hle hlt hfree
  rw [hdiff] at hlt hfree
  rw [check_state_of_new h.init hnew]
  simp only [WrappedSlidingWindowDetector.accept, if_true, h.max, hdiff, hlt]
  by_cases hahead : head - (g : Int) < 0
  · have hk : 0 < (-(head - (g : Int))).toNat := by omega
    have hwin := h.window.ahead hk fun j hj => d.mask.bit_lsh_setBit hexact hk hj
    have hsum : head + (-(head - (g : Int))).toNat = Max.max head g := by omega
    have hlatest : ((g % (maxSeq + 1) : Nat) : Int) = Max.max head (g : Int) % (maxSeq + 1) := by
      rw [max_eq_right (by omega), Int.natCast_emod]
      rfl
    rw [hsum] at hwin
    refine ⟨_, if_pos hahead, rfl, h.init, hlatest, ?_⟩
    have hval : Int.ofNat g = Max.max head (g : Int) := by
      show (g : Int) = _
      omega
    rw [List.map_append, List.map_singleton, hval]
    exact hwin
  · have hj : (head - (g : Int)).toNat < n := by omega
    have hwin := h.window.behind hj (hfree (by omega)) fun i hi => d.mask.bit_setBit hi hj
    have hval : head - ((head - (g : Int)).toNat : Nat) = Int.ofNat g := by
      show _ = (g : Int)
      omega
    rw [hval] at hwin
    rw [max_eq_left (by omega)]
    refine ⟨_, if_neg hahead, rfl, h.init, h.latest, ?_⟩
    rw [List.map_append]
    exact hwin

theorem Tracks.nodup (h : d.Tracks maxSeq head log) : log.Nodup :=
  List.Nodup.of_map _ h.window.nodup

end Tracks

end WrappedSlidingWindowDetector

end WebrtcBridge.Srtp
