/-
# LEB128 fields

A number as bytes of seven bits each, lowest first, the high bit set on every byte but the last.
Several byte strings are fields of one number (padding with `0x80 .. 0x00` is allowed), `encode`
is the shortest one.  Nothing here reads from a stream: how a particular reader walks over the
bytes is that reader's business, and what it has to compute is `value`.
-/
import Mathlib.Data.List.Basic
import Mathlib.Data.Nat.Bitwise
import Mathlib.Tactic.Ring

namespace WebrtcBridge.Lib.Leb128

/-! ## 1. Fields and their value -/

/-- The continuation bit. -/
def more (b : UInt8) : Bool := 128 ≤ b.toNat

/-- The seven bits a byte carries. -/
def low (b : UInt8) : Nat := b.toNat % 128

/-- The number a field stands for. -/
def value : List UInt8 → Nat
  | [] => 0
  | b :: bs => low b + 128 * value bs

/-- One byte or more, the continuation bit on all but the last. -/
def Field : List UInt8 → Prop
  | [] => False
  | [b] => more b = false
  | b :: b' :: bs => more b = true ∧ Field (b' :: bs)

instance decidableField : ∀ bs, Decidable (Field bs)
  | [] => .isFalse id
  | [b] => inferInstanceAs (Decidable (more b = false))
  | b :: b' :: bs =>
    have : Decidable (Field (b' :: bs)) := decidableField (b' :: bs)
    inferInstanceAs (Decidable (more b = true ∧ Field (b' :: bs)))

theorem low_lt (b : UInt8) : low b < 128 := Nat.mod_lt _ (by decide)

theorem Field.ne_nil {bs : List UInt8} (h : Field bs) : bs ≠ [] := by
  rintro rfl
  exact h

theorem Field.length_pos {bs : List UInt8} (h : Field bs) : 0 < bs.length :=
  List.length_pos_of_ne_nil h.ne_nil

/-- **Induction over a field**: its last byte, or a byte that continues in front of a field. -/
@[elab_as_elim]
theorem Field.rec_on {motive : List UInt8 → Prop} {bs : List UInt8} (h : Field bs)
    (last : ∀ b, more b = false → motive [b])
    (cons : ∀ b bs, more b = true → Field bs → motive bs → motive (b :: bs)) : motive bs := by
  induction bs with
  | nil => exact h.elim
  | cons b bs ih =>
    cases bs with
    | nil => exact last b h
    | cons b' bs => exact cons b (b' :: bs) h.1 h.2 (ih h.2)

theorem Field.cons {b : UInt8} {bs : List UInt8} (hb : more b = true) (h : Field bs) :
    Field (b :: bs) := by
  cases bs with
  | nil => exact h.elim
  | cons b' bs => exact ⟨hb, h⟩

/-- The field at the beginning of some bytes; all of them, if none ends it. -/
def field : List UInt8 → List UInt8
  | [] => []
  | b :: bs => if more b then b :: field bs else [b]

/-- **What stands at the beginning**: a field, or bytes that all continue. -/
theorem field_cases : ∀ bs : List UInt8,
    (Field (field bs) ∧ ∃ rest, bs = field bs ++ rest)
      ∨ (¬ Field (field bs) ∧ field bs = bs ∧ ∀ b ∈ bs, more b = true)
  | [] => .inr ⟨id, rfl, by simp⟩
  | b :: bs => by
    cases hb : more b with
    | false =>
      have hfield : field (b :: bs) = [b] := by simp [field, hb]
      rw [hfield]
      exact .inl ⟨hb, bs, rfl⟩
    | true =>
      have hfield : field (b :: bs) = b :: field bs := by simp [field, hb]
      rw [hfield]
      rcases field_cases bs with ⟨hf, rest, hrest⟩ | ⟨hf, heq, hall⟩
      · exact .inl ⟨Field.cons hb hf, rest, by rw [List.cons_append, ← hrest]⟩
      · refine .inr ⟨fun h => ?_, by rw [heq], by simpa [hb] using hall⟩
        rw [heq] at h hf
        cases bs with
        | nil => exact absurd (hb.symm.trans h) (by decide)
        | cons b' bs => exact hf h.2

/-- A field of `n` bytes stands for less than `128 ^ n`. -/
theorem value_lt : ∀ bs : List UInt8, value bs < 128 ^ bs.length
  | [] => by simp [value]
  | b :: bs => by
    have hb := low_lt b
    have ih := value_lt bs
    simp only [value, List.length_cons, pow_succ]
    omega

/-! ## 2. The shortest field -/

/-- `fuel` bounds the number of continuation bytes. -/
def encodeFuel : Nat → Nat → List UInt8
  | 0, n => [UInt8.ofNat n]
  | fuel + 1, n =>
    if n < 128 then [UInt8.ofNat n] else UInt8.ofNat (n % 128 + 128) :: encodeFuel fuel (n / 128)

/-- The shortest field of a number. -/
def encode (n : Nat) : List UInt8 := encodeFuel n n

theorem encodeFuel_eq : ∀ (fuel fuel' n : Nat), n < 128 ^ (fuel + 1) → n < 128 ^ (fuel' + 1) →
    encodeFuel fuel n = encodeFuel fuel' n
  | 0, 0, _, _, _ => rfl
  | 0, fuel' + 1, n, h, _ => by
    have hn : n < 128 := by simpa using h
    simp [encodeFuel, hn]
  | fuel + 1, 0, n, _, h => by
    have hn : n < 128 := by simpa using h
    simp [encodeFuel, hn]
  | fuel + 1, fuel' + 1, n, h, h' => by
    have hdiv : ∀ f, n < 128 ^ (f + 1 + 1) → n / 128 < 128 ^ (f + 1) := by
      intro f hf
      rw [pow_succ] at hf
      exact Nat.div_lt_of_lt_mul (by omega)
    simp only [encodeFuel]
    rw [encodeFuel_eq fuel fuel' (n / 128) (hdiv fuel h) (hdiv fuel' h')]

theorem lt_pow_succ (n : Nat) : n < 128 ^ (n + 1) := by
  calc n < 2 ^ n := Nat.lt_two_pow_self
    _ ≤ 128 ^ n := Nat.pow_le_pow_left (by decide) n
    _ ≤ 128 ^ (n + 1) := Nat.pow_le_pow_right (by decide) (Nat.le_succ n)

/-- Any sufficient fuel gives the shortest field. -/
theorem encodeFuel_eq_encode {fuel n : Nat} (h : n < 128 ^ (fuel + 1)) :
    encodeFuel fuel n = encode n :=
  encodeFuel_eq fuel n n h (lt_pow_succ n)

theorem encode_of_lt {n : Nat} (h : n < 128) : encode n = [UInt8.ofNat n] := by
  have hzero : encodeFuel 0 n = encode n := encodeFuel_eq_encode (by simpa using h)
  exact hzero.symm

theorem encode_of_ge {n : Nat} (h : 128 ≤ n) :
    encode n = UInt8.ofNat (n % 128 + 128) :: encode (n / 128) := by
  obtain ⟨fuel, rfl⟩ : ∃ k, n = k + 1 := ⟨n - 1, by omega⟩
  have hlt : ¬ fuel + 1 < 128 := by omega
  have hdiv : (fuel + 1) / 128 < 128 ^ (fuel + 1) := by
    have := lt_pow_succ ((fuel + 1) / 128)
    refine Nat.lt_of_lt_of_le this (Nat.pow_le_pow_right (by decide) ?_)
    omega
  rw [encode, encodeFuel, if_neg hlt, encodeFuel_eq_encode hdiv]

theorem toNat_ofNat {n : Nat} (h : n < 256) : (UInt8.ofNat n).toNat = n := by
  simp [Nat.mod_eq_of_lt h]

/-- **The shortest field is a field of its number.** -/
theorem encode_spec (n : Nat) : Field (encode n) ∧ value (encode n) = n := by
  induction n using Nat.strongRecOn with
  | ind n ih =>
    rcases Nat.lt_or_ge n 128 with h | h
    · have hb := toNat_ofNat (show n < 256 by omega)
      rw [encode_of_lt h]
      refine ⟨?_, ?_⟩
      · simp only [Field, more, hb, decide_eq_false_iff_not]
        omega
      · simp only [value, low, hb]
        omega
    · obtain ⟨hfield, hvalue⟩ := ih (n / 128) (by omega)
      have hb := toNat_ofNat (show n % 128 + 128 < 256 by omega)
      rw [encode_of_ge h]
      refine ⟨Field.cons ?_ hfield, ?_⟩
      · simp only [more, hb, decide_eq_true_eq]
        omega
      · simp only [value, low, hb, hvalue]
        omega

theorem encode_field (n : Nat) : Field (encode n) := (encode_spec n).1

theorem value_encode (n : Nat) : value (encode n) = n := (encode_spec n).2

/-- A number below `128 ^ (k + 1)` needs at most `k + 1` bytes. -/
theorem length_encode_le : ∀ (k n : Nat), n < 128 ^ (k + 1) → (encode n).length ≤ k + 1
  | 0, n, h => by
    rw [encode_of_lt (by simpa using h)]
    simp
  | k + 1, n, h => by
    rcases Nat.lt_or_ge n 128 with hn | hn
    · rw [encode_of_lt hn]
      simp
    · have hdiv : n / 128 < 128 ^ (k + 1) := by
        rw [pow_succ] at h
        exact Nat.div_lt_of_lt_mul (by omega)
      rw [encode_of_ge hn, List.length_cons]
      have := length_encode_le k (n / 128) hdiv
      omega

end WebrtcBridge.Lib.Leb128
