/-
# LEB128 as the two code bases write and read it

Four routines, two in Rust (`codec/av1/leb128.rs`) and two in Java (`Av1Depacketizer`), walk over
the same format in different ways.

* `put_leb128` and `writeLeb128` peel seven bits at a time off a 32-bit number.
* Rust's `read_leb128` first collects the BYTES of the field, high byte first, in a 64-bit word and
  then squeezes the continuation bits out of it (`decode_leb128`).  That is right for fields of up
  to eight bytes, which is what AV1 allows.
* Java's `readLeb128` ORs each seven bits into place, with a shift count taken modulo 64.

Each is shown to compute `encode`, respectively `value`, within its range.
-/
import WebrtcBridge.Lib.Leb128

namespace WebrtcBridge.Av1

open Lib Lib.Leb128

/-! ## 1. Bits as arithmetic -/

theorem and_127 (n : Nat) : n &&& 127 = n % 128 := Nat.and_two_pow_sub_one_eq_mod n 7

theorem shift_7 (n : Nat) : n >>> 7 = n / 128 := by rw [Nat.shiftRight_eq_div_pow]

/-- An OR into bits that are still clear is an addition. -/
theorem or_low {b : Nat} (a : Nat) (hb : b < 128) : 128 * a ||| b = 128 * a + b :=
  (Nat.two_pow_add_eq_or_of_lt (i := 7) hb a).symm

theorem or_byte {b : Nat} (a : Nat) (hb : b < 256) : 256 * a ||| b = 256 * a + b :=
  (Nat.two_pow_add_eq_or_of_lt (i := 8) hb a).symm

theorem and_128_eq_zero_iff (b : UInt8) : b.toNat &&& 128 = 0 ↔ more b = false := by
  have hbit : b.toNat &&& 128 = (b.toNat.testBit 7).toNat * 128 := Nat.and_two_pow b.toNat 7
  have hb := b.toNat_lt
  rw [hbit, Nat.testBit_eq_decide_div_mod_eq, more]
  rcases Nat.lt_or_ge b.toNat 128 with h | h
  · have hdiv : b.toNat / 128 = 0 := Nat.div_eq_of_lt h
    simp [hdiv, Nat.not_le.mpr h]
  · have hdiv : b.toNat / 128 % 2 = 1 := by omega
    simp [hdiv, h]

/-! ## 2. Writing -/

/-- The loop of `put_leb128` and of `writeLeb128`: the low seven bits, with the continuation bit if
anything is left. -/
def lebLoop : Nat → Nat → List UInt8
  | 0, _ => []
  | fuel + 1, n =>
    if n >>> 7 = 0 then [UInt8.ofNat (n &&& 127)]
    else UInt8.ofNat ((n &&& 127) ||| 128) :: lebLoop fuel (n >>> 7)

/-- `put_leb128(n as u32)`. -/
def putLeb128 (n : Nat) : List UInt8 := lebLoop 5 (n % 2 ^ 32)

/-- `writeLeb128(out, value)`: `>>>` shifts the 32 bits of an `int` of any sign. -/
def writeLeb128 (value : Int) : List UInt8 := lebLoop 5 (value % 2 ^ 32).toNat

/-- `leb128_size`: the number of bytes. -/
def leb128SizeLoop : Nat → Nat → Nat
  | 0, _ => 1
  | fuel + 1, value => if 128 ≤ value then 1 + leb128SizeLoop fuel (value >>> 7) else 1

def leb128Size (value : Nat) : Nat := leb128SizeLoop 5 (value % 2 ^ 32)

theorem lebLoop_eq : ∀ (fuel n : Nat), n < 128 ^ (fuel + 1) → lebLoop (fuel + 1) n = encode n
  | fuel, n, h => by
    rw [lebLoop, shift_7, and_127]
    rcases Nat.lt_or_ge n 128 with hn | hn
    · rw [if_pos (Nat.div_eq_of_lt hn), encode_of_lt hn, Nat.mod_eq_of_lt hn]
    · have hne : n / 128 ≠ 0 := by omega
      have hor : n % 128 ||| 128 = n % 128 + 128 := by
        rw [Nat.lor_comm, Nat.add_comm]
        exact or_low 1 (Nat.mod_lt n (by decide))
      rw [if_neg hne, encode_of_ge hn, hor]
      cases fuel with
      | zero =>
        have : n < 128 := by simpa using h
        omega
      | succ fuel =>
        have hdiv : n / 128 < 128 ^ (fuel + 1) := by
          rw [pow_succ] at h
          exact Nat.div_lt_of_lt_mul (by omega)
        rw [lebLoop_eq fuel (n / 128) hdiv]

/-- **`put_leb128` writes the shortest field.** -/
theorem putLeb128_eq {n : Nat} (h : n < 2 ^ 32) : putLeb128 n = encode n := by
  rw [putLeb128, Nat.mod_eq_of_lt h]
  exact lebLoop_eq 4 n (Nat.lt_trans h (by decide))

/-- **`writeLeb128` writes the shortest field** of a non-negative `int`. -/
theorem writeLeb128_eq {n : Nat} (h : n < 2 ^ 32) : writeLeb128 n = encode n := by
  have hmod : ((n : Int) % 2 ^ 32).toNat = n := by omega
  rw [writeLeb128, hmod]
  exact lebLoop_eq 4 n (Nat.lt_trans h (by decide))

theorem leb128SizeLoop_eq : ∀ (fuel n : Nat), n < 128 ^ (fuel + 1) →
    leb128SizeLoop fuel n = (encode n).length
  | 0, n, h => by
    rw [encode_of_lt (by simpa using h)]
    rfl
  | fuel + 1, n, h => by
    rw [leb128SizeLoop]
    rcases Nat.lt_or_ge n 128 with hn | hn
    · rw [if_neg (Nat.not_le.mpr hn), encode_of_lt hn]
      rfl
    · have hdiv : n / 128 < 128 ^ (fuel + 1) := by
        rw [pow_succ] at h
        exact Nat.div_lt_of_lt_mul (by omega)
      rw [if_pos hn, shift_7, leb128SizeLoop_eq fuel (n / 128) hdiv, encode_of_ge hn,
        List.length_cons, Nat.add_comm]

/-- **`leb128_size` is the length of the shortest field.** -/
theorem leb128Size_eq {n : Nat} (h : n < 2 ^ 32) : leb128Size n = (encode n).length := by
  rw [leb128Size, Nat.mod_eq_of_lt h]
  exact leb128SizeLoop_eq 5 n (Nat.lt_trans h (by decide))

/-! ## 3. Reading in Rust -/

/-- `decode_leb128`: from the last byte of the field back to the first. -/
def decodeLeb128Loop : Nat → Nat → Nat → Nat
  | 0, b, _ => b % 2 ^ 32
  | fuel + 1, b, val =>
    let b := b ||| (val &&& 127)
    let val := val >>> 8
    if val = 0 then b % 2 ^ 32 else decodeLeb128Loop fuel ((b <<< 7) % 2 ^ 64) val

/-- `decode_leb128(val)`; a 64-bit word has eight bytes. -/
def decodeLeb128 (val : Nat) : Nat := decodeLeb128Loop 8 0 val

/-- The loop of `read_leb128`: value and number of bytes; `(0, 0)` if the field does not end. -/
def readLeb128Loop (encoded i : Nat) : List UInt8 → Nat × Nat
  | [] => (0, 0)
  | b :: bs =>
    let encoded := encoded ||| b.toNat
    if b.toNat &&& 128 = 0 then (decodeLeb128 encoded, i + 1)
    else readLeb128Loop ((encoded <<< 8) % 2 ^ 64) (i + 1) bs

/-- `read_leb128(bytes)`. -/
def rustReadLeb128 (bytes : List UInt8) : Nat × Nat := readLeb128Loop 0 0 bytes

/-- The bytes of a field as `read_leb128` collects them, LAST byte lowest; here the list is given
last byte first. -/
def collected : List UInt8 → Nat
  | [] => 0
  | b :: bs => b.toNat + 256 * collected bs

/-- The value of a field given last byte first, on top of `a`. -/
def squeezed (a : Nat) : List UInt8 → Nat
  | [] => a
  | b :: bs => squeezed (128 * a + low b) bs

theorem collected_lt : ∀ bs : List UInt8, collected bs < 256 ^ bs.length
  | [] => by simp [collected]
  | b :: bs => by
    have hb := b.toNat_lt
    have ih := collected_lt bs
    simp only [collected, List.length_cons, pow_succ]
    omega

theorem squeezed_append : ∀ (bs : List UInt8) (a : Nat) (b : UInt8),
    squeezed a (bs ++ [b]) = 128 * squeezed a bs + low b
  | [], _, _ => rfl
  | c :: bs, a, b => by
    rw [List.cons_append, squeezed, squeezed, squeezed_append bs]

/-- Read from the last byte back, a field has its value. -/
theorem squeezed_reverse : ∀ bs : List UInt8, squeezed 0 bs.reverse = value bs
  | [] => rfl
  | b :: bs => by
    rw [List.reverse_cons, squeezed_append, squeezed_reverse bs, value]
    omega

/-- **The squeezing loop.**  `j` bytes are done and make up `a`; all bytes left but the first of
the list continue, so none of them is zero and the loop does not stop early. -/
theorem decodeLeb128Loop_eq : ∀ (bs : List UInt8) (b : UInt8) (fuel a j : Nat),
    (∀ c ∈ bs, more c = true) → bs.length < fuel → a < 128 ^ j → j + bs.length < 8 →
    decodeLeb128Loop fuel (128 * a) (collected (b :: bs)) = squeezed a (b :: bs) % 2 ^ 32
  | [], b, fuel + 1, a, _, _, _, _, _ => by
    have hzero : b.toNat >>> 8 = 0 := by
      rw [Nat.shiftRight_eq_div_pow]
      exact Nat.div_eq_of_lt b.toNat_lt
    have hor : 128 * a ||| b.toNat % 128 = 128 * a + b.toNat % 128 := or_low a (low_lt b)
    simp only [decodeLeb128Loop, collected, Nat.mul_zero, Nat.add_zero, and_127, hzero, if_true,
      squeezed, hor, low]
  | c :: bs, b, fuel + 1, a, j, hmore, hfuel, ha, hj => by
    have hb := b.toNat_lt
    have hc : 128 ≤ c.toNat := by simpa [more] using hmore c (by simp)
    have hlow := low_lt b
    rw [List.length_cons] at hfuel hj
    have hpos : collected (c :: bs) ≠ 0 := by
      simp only [collected]
      omega
    have hval : collected (b :: c :: bs) >>> 8 = collected (c :: bs) := by
      rw [Nat.shiftRight_eq_div_pow, collected]
      omega
    have hand : collected (b :: c :: bs) &&& 127 = low b := by
      rw [and_127, collected, low]
      omega
    have hor : 128 * a ||| low b = 128 * a + low b := or_low a hlow
    have hnext : 128 * a + low b < 128 ^ (j + 1) := by
      rw [pow_succ]
      omega
    have hshift : ((128 * a + low b) <<< 7) % 2 ^ 64 = 128 * (128 * a + low b) := by
      have hle : 128 ^ (j + 1) ≤ 128 ^ 7 := Nat.pow_le_pow_right (by decide) (by omega)
      rw [Nat.shiftLeft_eq, Nat.mod_eq_of_lt (by omega)]
      omega
    simp only [decodeLeb128Loop, hval, hand, hor, hpos, if_false, hshift]
    rw [decodeLeb128Loop_eq bs c fuel (128 * a + low b) (j + 1)
      (fun d hd => hmore d (List.mem_cons_of_mem c hd)) (by omega) hnext (by omega)]
    rfl

/-- Fields as the loop sees them: the last byte does not continue, the others do. -/
theorem field_reverse {bs : List UInt8} (h : Field bs) :
    ∃ b cs, bs.reverse = b :: cs ∧ more b = false ∧ ∀ c ∈ cs, more c = true := by
  refine Field.rec_on h ?_ ?_
  · intro b hb
    exact ⟨b, [], rfl, hb, by simp⟩
  · rintro b bs hb - ⟨d, cs, hrev, hd, hcs⟩
    refine ⟨d, cs ++ [b], by simp [hrev], hd, ?_⟩
    intro c hc
    rcases List.mem_append.mp hc with hc | hc
    · exact hcs c hc
    · rw [List.mem_singleton.mp hc]
      exact hb

/-- `decode_leb128` of the bytes of a field of up to eight bytes. -/
theorem decodeLeb128_eq {bs : List UInt8} (h : Field bs) (hlen : bs.length ≤ 8) :
    decodeLeb128 (collected bs.reverse) = value bs % 2 ^ 32 := by
  obtain ⟨b, cs, hrev, -, hcs⟩ := field_reverse h
  have hcount := congrArg List.length hrev
  rw [List.length_reverse, List.length_cons] at hcount
  have hloop := decodeLeb128Loop_eq cs b 8 0 0 hcs (by omega) (by decide) (by omega)
  rw [decodeLeb128, ← squeezed_reverse, hrev]
  exact hloop

/-- **The collecting loop**: `done` has been read, last byte first. -/
theorem readLeb128Loop_eq {bs : List UInt8} (h : Field bs) (rest : List UInt8) :
    ∀ done : List UInt8, done.length + bs.length ≤ 8 →
      readLeb128Loop (256 * collected done) done.length (bs ++ rest)
        = (decodeLeb128 (collected (bs.reverse ++ done)), done.length + bs.length) := by
  refine Field.rec_on h ?_ ?_
  · intro b hb done _
    have hzero := (and_128_eq_zero_iff b).mpr hb
    have hor : 256 * collected done ||| b.toNat = collected (b :: done) := by
      rw [or_byte _ b.toNat_lt, collected, Nat.add_comm]
    simp [readLeb128Loop, hzero, hor]
  · intro b bs hb _ ih done hlen
    rw [List.length_cons] at hlen
    have hzero : b.toNat &&& 128 ≠ 0 := by
      intro hz
      rw [(and_128_eq_zero_iff b).mp hz] at hb
      cases hb
    have hor : 256 * collected done ||| b.toNat = collected (b :: done) := by
      rw [or_byte _ b.toNat_lt, collected, Nat.add_comm]
    have hshift : (collected (b :: done) <<< 8) % 2 ^ 64 = 256 * collected (b :: done) := by
      have hlt := collected_lt (b :: done)
      have hbs : 0 < bs.length := ‹Field bs›.length_pos
      have hle : 256 ^ (b :: done).length ≤ 256 ^ 7 :=
        Nat.pow_le_pow_right (by decide) (by simp only [List.length_cons]; omega)
      rw [Nat.shiftLeft_eq, Nat.mod_eq_of_lt (by omega)]
      omega
    have hnext := ih (b :: done) (by simp only [List.length_cons]; omega)
    simp only [List.cons_append, readLeb128Loop, hzero, if_false, hor, hshift]
    rw [List.length_cons] at hnext
    rw [hnext]
    simp only [List.reverse_cons, List.append_assoc, List.singleton_append, List.length_cons,
      Prod.mk.injEq, true_and]
    omega

/-- **`read_leb128` reads a field of up to eight bytes**, whatever follows it. -/
theorem rustReadLeb128_eq {bs : List UInt8} (h : Field bs) (hlen : bs.length ≤ 8)
    (rest : List UInt8) : rustReadLeb128 (bs ++ rest) = (value bs % 2 ^ 32, bs.length) := by
  have hloop := readLeb128Loop_eq h rest [] (by simpa using hlen)
  simp only [List.append_nil, decodeLeb128_eq h hlen, List.length_nil, Nat.zero_add] at hloop
  exact hloop

/-! ## 4. Reading in Java -/

/-- The loop of `readLeb128` from position `off` on: the bits of `result` and the number of bytes
read.  A shift count of a `long` is taken modulo 64. -/
def javaReadLoop (result shift n : Nat) : List UInt8 → Nat × Nat
  | [] => (result, n)
  | b :: bs =>
    let result := result ||| ((b.toNat &&& 127) <<< (shift % 64)) % 2 ^ 64
    if b.toNat &&& 128 = 0 then (result, n + 1) else javaReadLoop result (shift + 7) (n + 1) bs

/-- Seven bits are put where none is set yet. -/
theorem or_place {k a : Nat} (b : UInt8) (ha : a < 128 ^ k) (hk : k < 9) :
    a ||| ((b.toNat &&& 127) <<< (7 * k % 64)) % 2 ^ 64 = a + 128 ^ k * low b := by
  have hpow : (2 : Nat) ^ (7 * k) = 128 ^ k := by
    rw [pow_mul]
    norm_num
  have hmod : 7 * k % 64 = 7 * k := Nat.mod_eq_of_lt (by omega)
  have hlow := low_lt b
  have hsmall : low b * 2 ^ (7 * k) < 2 ^ 64 := by
    calc low b * 2 ^ (7 * k) < 2 ^ 7 * 2 ^ (7 * k) :=
          Nat.mul_lt_mul_of_pos_right hlow (Nat.two_pow_pos _)
      _ = 2 ^ (7 + 7 * k) := (pow_add 2 7 (7 * k)).symm
      _ ≤ 2 ^ 64 := Nat.pow_le_pow_right (by decide) (by omega)
  rw [and_127, hmod, Nat.shiftLeft_eq]
  change a ||| (low b * 2 ^ (7 * k)) % 2 ^ 64 = _
  rw [Nat.mod_eq_of_lt hsmall, Nat.mul_comm, Nat.lor_comm,
    ← Nat.two_pow_add_eq_or_of_lt (by rwa [hpow]) (low b), hpow, Nat.add_comm]

theorem place_lt {k a : Nat} (b : UInt8) (ha : a < 128 ^ k) :
    a + 128 ^ k * low b < 128 ^ (k + 1) := by
  have hlow := low_lt b
  calc a + 128 ^ k * low b < 128 ^ k + 128 ^ k * low b := by omega
    _ = 128 ^ k * (low b + 1) := by ring
    _ ≤ 128 ^ k * 128 := Nat.mul_le_mul_left _ (by omega)
    _ = 128 ^ (k + 1) := (pow_succ 128 k).symm

theorem javaReadLoop_more {k a : Nat} {b : UInt8} (hb : more b = true)
    (ha : a < 128 ^ k) (hk : k < 9) (bs : List UInt8) :
    javaReadLoop a (7 * k) k (b :: bs)
      = javaReadLoop (a + 128 ^ k * low b) (7 * (k + 1)) (k + 1) bs := by
  have hzero : b.toNat &&& 128 ≠ 0 := by
    intro hz
    rw [(and_128_eq_zero_iff b).mp hz] at hb
    cases hb
  simp only [javaReadLoop, hzero, if_false, or_place b ha hk]
  rfl

theorem javaReadLoop_eq {bs : List UInt8} (h : Field bs) (rest : List UInt8) :
    ∀ k a, a < 128 ^ k → k + bs.length ≤ 9 →
      javaReadLoop a (7 * k) k (bs ++ rest) = (a + 128 ^ k * value bs, k + bs.length) := by
  refine Field.rec_on h ?_ ?_
  · intro b hb k a ha hk
    have hzero := (and_128_eq_zero_iff b).mpr hb
    have hp := or_place b ha (Nat.lt_of_succ_le hk)
    simp only [List.singleton_append, javaReadLoop, hzero, if_true, hp, value, Nat.mul_zero,
      Nat.add_zero, List.length_singleton]
  · intro b bs hb hfield ih k a ha hk
    rw [List.length_cons] at hk
    have hlen := hfield.length_pos
    rw [List.cons_append, javaReadLoop_more hb ha (by omega),
      ih (k + 1) _ (place_lt b ha) (by omega), value, List.length_cons]
    refine Prod.ext ?_ ?_
    · simp only [pow_succ]
      ring
    · simp only
      omega

/-- Bytes that all continue are read to their end. -/
theorem javaReadLoop_open : ∀ {bs : List UInt8} (k a : Nat), (∀ b ∈ bs, more b = true) →
    a < 128 ^ k → k + bs.length ≤ 9 →
    javaReadLoop a (7 * k) k bs = (a + 128 ^ k * value bs, k + bs.length)
  | [], k, a, _, _, _ => by simp [javaReadLoop, value]
  | b :: bs, k, a, hmore, ha, hk => by
    rw [List.length_cons] at hk
    rw [javaReadLoop_more (hmore b (by simp)) ha (by omega),
      javaReadLoop_open (k + 1) _ (fun c hc => hmore c (List.mem_cons_of_mem b hc)) (place_lt b ha)
        (by omega), value, List.length_cons]
    refine Prod.ext ?_ ?_
    · simp only [pow_succ]
      ring
    · simp only
      omega

/-- **`readLeb128` reads a field of up to nine bytes**, whatever follows it. -/
theorem javaReadLoop_field {bs : List UInt8} (h : Field bs) (hlen : bs.length ≤ 9)
    (rest : List UInt8) : javaReadLoop 0 0 0 (bs ++ rest) = (value bs, bs.length) := by
  have hloop := javaReadLoop_eq h rest 0 0 (by decide) (by omega)
  simpa using hloop

/-! ## 5. Any bytes -/

/-- A field that does not end reads as `(0, 0)` in Rust. -/
theorem readLeb128Loop_open : ∀ {bs : List UInt8} (encoded i : Nat), (∀ b ∈ bs, more b = true) →
    readLeb128Loop encoded i bs = (0, 0)
  | [], _, _, _ => rfl
  | b :: bs, encoded, i, hmore => by
    have hzero : b.toNat &&& 128 ≠ 0 := by
      intro hz
      have hb := hmore b (by simp)
      rw [(and_128_eq_zero_iff b).mp hz] at hb
      cases hb
    simp only [readLeb128Loop, hzero, if_false]
    exact readLeb128Loop_open _ _ fun c hc => hmore c (List.mem_cons_of_mem b hc)

/-- **`read_leb128` of any bytes** whose field has up to eight. -/
theorem rustReadLeb128_field (bs : List UInt8) (hlen : (field bs).length ≤ 8) :
    rustReadLeb128 bs
      = if Field (field bs) then (value (field bs) % 2 ^ 32, (field bs).length) else (0, 0) := by
  rcases field_cases bs with ⟨hf, rest, hrest⟩ | ⟨hf, -, hall⟩
  · have hread := rustReadLeb128_eq hf hlen rest
    rw [← hrest] at hread
    rw [hread, if_pos hf]
  · rw [if_neg hf]
    exact readLeb128Loop_open 0 0 hall

/-- **`readLeb128` of any bytes** whose field has up to eight: an unfinished one is read all the
same. -/
theorem javaReadLoop_any (bs : List UInt8) (hlen : (field bs).length ≤ 8) :
    javaReadLoop 0 0 0 bs = (value (field bs), (field bs).length) := by
  rcases field_cases bs with ⟨hf, rest, hrest⟩ | ⟨-, heq, hall⟩
  · have hread := javaReadLoop_field hf (by omega) rest
    rwa [← hrest] at hread
  · have hread := javaReadLoop_open 0 0 hall (by decide) (by rw [heq] at hlen; omega)
    rw [heq]
    simpa using hread

end WebrtcBridge.Av1
