/-
# Bytes read from the front, highest byte first

Network formats store a number with its highest byte first.  `be16` and `be32` write such numbers,
and a BUFFER is the list of the bytes not read yet: `getU8`, `getU16`, `getU32` and `getBytes` take
from its front, and `getUint` takes a number of any width.  A reader that asks for more than there
is stops the program, so each of them is given the exception it then throws.

Each reader has two lemmas: what it gives behind the bytes that were written for it, and that it
gives something at all if the buffer is long enough.  The first are for round trips, the second for
showing that a parser that measures before it reads never stops the program.
-/
import Mathlib.Data.List.Basic
import Mathlib.Algebra.Group.Nat.Defs

namespace WebrtcBridge.Lib

/-! ## 1. Numbers -/

def be16 (n : UInt16) : List UInt8 := [(n >>> 8).toUInt8, n.toUInt8]

def be32 (n : UInt32) : List UInt8 :=
  [(n >>> 24).toUInt8, (n >>> 16).toUInt8, (n >>> 8).toUInt8, n.toUInt8]

def ofBe16 (b1 b0 : UInt8) : UInt16 := UInt16.ofNat (b1.toNat * 256 + b0.toNat)

def ofBe32 (b3 b2 b1 b0 : UInt8) : UInt32 :=
  UInt32.ofNat (((b3.toNat * 256 + b2.toNat) * 256 + b1.toNat) * 256 + b0.toNat)

@[simp] theorem length_be16 (n : UInt16) : (be16 n).length = 2 := rfl

@[simp] theorem length_be32 (n : UInt32) : (be32 n).length = 4 := rfl

theorem ofBe16_be16 (n : UInt16) : ofBe16 (n >>> 8).toUInt8 n.toUInt8 = n := by
  have hlt := n.toNat_lt
  rw [← UInt16.toNat_inj, ofBe16]
  simp only [UInt16.toNat_ofNat', UInt16.toNat_toUInt8, UInt16.toNat_shiftRight,
    Nat.shiftRight_eq_div_pow, UInt16.reduceToNat, Nat.reduceMod, Nat.reducePow]
  omega

theorem ofBe32_be32 (n : UInt32) :
    ofBe32 (n >>> 24).toUInt8 (n >>> 16).toUInt8 (n >>> 8).toUInt8 n.toUInt8 = n := by
  have hlt := n.toNat_lt
  rw [← UInt32.toNat_inj, ofBe32]
  simp only [UInt32.toNat_ofNat', UInt32.toNat_toUInt8, UInt32.toNat_shiftRight,
    Nat.shiftRight_eq_div_pow, UInt32.reduceToNat, Nat.reduceMod, Nat.reducePow]
  omega

/-- The low `w` bytes of a number, for widths that have no type of their own. -/
def beBytes : Nat → Nat → List UInt8
  | 0, _ => []
  | w + 1, n => beBytes w (n / 256) ++ [UInt8.ofNat n]

def beValue (bs : List UInt8) : Nat := bs.foldl (fun v b => v * 256 + b.toNat) 0

@[simp] theorem length_beBytes (w n : Nat) : (beBytes w n).length = w := by
  induction w generalizing n with
  | zero => rfl
  | succ w ih => rw [beBytes, List.length_append, ih, List.length_singleton]

theorem beValue_beBytes {w n : Nat} (h : n < 256 ^ w) : beValue (beBytes w n) = n := by
  induction w generalizing n with
  | zero =>
    rw [Nat.pow_zero] at h
    rw [Nat.lt_one_iff.mp h]
    rfl
  | succ w ih =>
    have hhigh : n / 256 < 256 ^ w := Nat.div_lt_of_lt_mul (by rwa [Nat.mul_comm, ← Nat.pow_succ])
    have hlow := ih hhigh
    unfold beValue at hlow ⊢
    rw [beBytes, List.foldl_append, hlow, List.foldl_cons, List.foldl_nil, UInt8.toNat_ofNat']
    omega

/-! ## 2. Buffers -/

section Buffer

variable {ε : Type}

def getU8 (short : ε) : List UInt8 → Except ε (UInt8 × List UInt8)
  | b :: rest => .ok (b, rest)
  | [] => .error short

def getU16 (short : ε) : List UInt8 → Except ε (UInt16 × List UInt8)
  | b1 :: b0 :: rest => .ok (ofBe16 b1 b0, rest)
  | _ => .error short

def getU32 (short : ε) : List UInt8 → Except ε (UInt32 × List UInt8)
  | b3 :: b2 :: b1 :: b0 :: rest => .ok (ofBe32 b3 b2 b1 b0, rest)
  | _ => .error short

def getBytes (short : ε) (n : Nat) (bs : List UInt8) : Except ε (List UInt8 × List UInt8) :=
  if n ≤ bs.length then .ok (bs.take n, bs.drop n) else .error short

/-- A number of `w` bytes. -/
def getUint (short : ε) (w : Nat) (bs : List UInt8) : Except ε (Nat × List UInt8) :=
  if w ≤ bs.length then .ok (beValue (bs.take w), bs.drop w) else .error short

/-- `n` numbers of 32 bits. -/
def getU32s (short : ε) : Nat → List UInt8 → Except ε (List UInt32 × List UInt8)
  | 0, bs => .ok ([], bs)
  | n + 1, bs => do
    let (x, bs) ← getU32 short bs
    let (xs, bs) ← getU32s short n bs
    return (x :: xs, bs)

variable (short : ε) (rest : List UInt8)

@[simp] theorem getU8_cons (b : UInt8) : getU8 short (b :: rest) = .ok (b, rest) := rfl

@[simp] theorem getU16_be16 (n : UInt16) : getU16 short (be16 n ++ rest) = .ok (n, rest) := by
  simp [be16, getU16, ofBe16_be16]

@[simp] theorem getU32_be32 (n : UInt32) : getU32 short (be32 n ++ rest) = .ok (n, rest) := by
  simp [be32, getU32, ofBe32_be32]

theorem getBytes_append (xs : List UInt8) {n : Nat} (hn : xs.length = n) :
    getBytes short n (xs ++ rest) = .ok (xs, rest) := by
  subst hn
  simp [getBytes]

theorem getUint_beBytes {w n : Nat} (h : n < 256 ^ w) :
    getUint short w (beBytes w n ++ rest) = .ok (n, rest) := by
  have htake : (beBytes w n ++ rest).take w = beBytes w n := List.take_left' (length_beBytes w n)
  have hdrop : (beBytes w n ++ rest).drop w = rest := List.drop_left' (length_beBytes w n)
  rw [getUint, if_pos (by simp), htake, hdrop, beValue_beBytes h]

@[simp] theorem getU32s_be32 (xs : List UInt32) :
    getU32s short xs.length (xs.flatMap be32 ++ rest) = .ok (xs, rest) := by
  induction xs with
  | nil => rfl
  | cons x xs ih =>
    rw [List.flatMap_cons, List.append_assoc, List.length_cons, getU32s, getU32_be32]
    simp only [bind, Except.bind, ih]
    rfl

variable {bs : List UInt8}

theorem getU8_ok (h : 1 ≤ bs.length) :
    ∃ b rest, bs = b :: rest ∧ getU8 short bs = .ok (b, rest) := by
  cases bs with
  | nil => simp at h
  | cons b rest => exact ⟨b, rest, rfl, rfl⟩

theorem getU16_ok (h : 2 ≤ bs.length) :
    ∃ n, getU16 short bs = .ok (n, bs.drop 2) := by
  match bs, h with
  | b1 :: b0 :: rest, _ => exact ⟨_, rfl⟩

theorem getU32_ok (h : 4 ≤ bs.length) :
    ∃ n, getU32 short bs = .ok (n, bs.drop 4) := by
  match bs, h with
  | b3 :: b2 :: b1 :: b0 :: rest, _ => exact ⟨_, rfl⟩

theorem getBytes_ok {n : Nat} (h : n ≤ bs.length) :
    getBytes short n bs = .ok (bs.take n, bs.drop n) := by
  rw [getBytes, if_pos h]

theorem getU32s_ok (n : Nat) (h : 4 * n ≤ bs.length) :
    ∃ xs, getU32s short n bs = .ok (xs, bs.drop (4 * n)) := by
  induction n generalizing bs with
  | zero => exact ⟨[], rfl⟩
  | succ n ih =>
    have hrest : 4 * n ≤ (bs.drop 4).length := by rw [List.length_drop]; omega
    obtain ⟨x, hx⟩ := getU32_ok short (by omega : 4 ≤ bs.length)
    obtain ⟨xs, hxs⟩ := ih hrest
    refine ⟨x :: xs, ?_⟩
    simp only [getU32s, hx, hxs, bind, Except.bind, List.drop_drop]
    rw [show 4 + 4 * n = 4 * (n + 1) by omega]
    rfl

end Buffer

end WebrtcBridge.Lib
