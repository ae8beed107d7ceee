/-
# Reading a stream that arrives in pieces

An input stream hands its elements over in PIECES: a call that asks for `n` elements gets between
one and `n` of them, and how many is up to the stream.  Here a stream is the list of its pieces,
none of them empty, and a call is answered from the first one.  "However the stream is delivered"
is then "for every list of pieces with these elements".

A reader is a function that takes a stream and gives a value and the rest of the stream, or an
exception.  What matters about a reader is what it does to the ELEMENTS, whatever the pieces are:

* `Yields p xs a rest`: on every stream with the elements `xs`, `p` gives `a` and leaves `rest`;
* `Raises p xs e`: on every such stream `p` throws `e`.

The rules for `pure` and for `>>=` compose these, and `readFully_yields`, `readFully_raises` say
what the loop does that asks again until it has enough.  The last section is about numbers stored
with their lowest byte first.
-/
import Mathlib.Data.List.Basic
import Mathlib.Algebra.Group.Nat.Defs

namespace WebrtcBridge.Lib

/-! ## 1. Streams -/

/-- What an input stream will still deliver, piece by piece. -/
structure Input (β : Type) where
  pieces : List (List β)
  nonempty : ∀ p ∈ pieces, p ≠ []

namespace Input

variable {β : Type}

/-- The elements still to come. -/
def elems (i : Input β) : List β := i.pieces.flatten

/-- A stream that delivers its elements in one piece. -/
def whole (xs : List β) : Input β :=
  ⟨if xs.isEmpty then [] else [xs], by cases xs <;> simp⟩

/-- What is left of a piece goes back to the front. -/
def push (p : List β) (i : Input β) : Input β :=
  if h : p = [] then i
  else ⟨p :: i.pieces, by
    intro q hq
    rcases List.mem_cons.mp hq with rfl | hq
    · exact h
    · exact i.nonempty q hq⟩

/-- `read(buf, off, n)` for a positive `n`: at most `n` elements, and none only at the end. -/
def readSome (n : Nat) (i : Input β) : List β × Input β :=
  match i with
  | ⟨[], _⟩ => ([], i)
  | ⟨p :: ps, h⟩ => (p.take n, push (p.drop n) ⟨ps, fun q hq => h q (List.mem_cons_of_mem p hq)⟩)

@[simp] theorem elems_whole (xs : List β) : (whole xs).elems = xs := by
  cases xs <;> simp [whole, elems]

@[simp] theorem elems_push (p : List β) (i : Input β) : (push p i).elems = p ++ i.elems := by
  unfold push
  split
  · next h => simp [h]
  · simp [elems]

/-- A piece that is delivered stood at the front. -/
theorem readSome_append (n : Nat) (i : Input β) :
    (i.readSome n).1 ++ (i.readSome n).2.elems = i.elems := by
  obtain ⟨ps, h⟩ := i
  cases ps with
  | nil => simp [readSome, elems]
  | cons p ps =>
    simp only [readSome, elems_push, ← List.append_assoc, List.take_append_drop]
    simp [elems]

theorem readSome_length_le (n : Nat) (i : Input β) : (i.readSome n).1.length ≤ n := by
  obtain ⟨ps, h⟩ := i
  cases ps with
  | nil => simp [readSome]
  | cons p ps =>
    simp only [readSome, List.length_take]
    omega

/-- Nothing is delivered only when there is nothing. -/
theorem readSome_eq_nil {n : Nat} (hn : 0 < n) {i : Input β} (h : (i.readSome n).1 = []) :
    i.elems = [] := by
  obtain ⟨ps, hps⟩ := i
  cases ps with
  | nil => rfl
  | cons p ps =>
    have hp : p ≠ [] := hps p List.mem_cons_self
    rcases List.take_eq_nil_iff.mp h with h0 | h0
    · omega
    · exact absurd h0 hp

/-- `read()`: one element, or none at the end. -/
def read (i : Input β) : Option β × Input β :=
  ((i.readSome 1).1.head?, (i.readSome 1).2)

theorem read_nil {i : Input β} (h : i.elems = []) : i.read.1 = none ∧ i.read.2.elems = [] := by
  have happ := readSome_append 1 i
  rw [h, List.append_eq_nil_iff] at happ
  exact ⟨by simp [read, happ.1], happ.2⟩

theorem read_cons {i : Input β} {b : β} {bs : List β} (h : i.elems = b :: bs) :
    i.read.1 = some b ∧ i.read.2.elems = bs := by
  have happ := readSome_append 1 i
  have hle := readSome_length_le 1 i
  rw [h] at happ
  cases hpart : (i.readSome 1).1 with
  | nil =>
    have hnil := readSome_eq_nil Nat.one_pos hpart
    rw [h] at hnil
    cases hnil
  | cons x xs =>
    rw [hpart] at happ hle
    have hxs : xs = [] := List.length_eq_zero_iff.mp (by simpa using hle)
    rw [hxs, List.cons_append, List.nil_append, List.cons.injEq] at happ
    exact ⟨by simp [read, hpart, happ.1], happ.2⟩

end Input

/-! ## 2. Readers -/

/-- A reader of a stream that may throw. -/
abbrev Reader (β ε : Type) := StateT (Input β) (Except ε)

section

variable {β ε α γ : Type}

/-- On every stream with the elements `xs` the reader gives `a` and leaves `rest`. -/
def Yields (p : Reader β ε α) (xs : List β) (a : α) (rest : List β) : Prop :=
  ∀ i : Input β, i.elems = xs → ∃ i', p i = .ok (a, i') ∧ i'.elems = rest

/-- On every stream with the elements `xs` the reader throws `e`. -/
def Raises (p : Reader β ε α) (xs : List β) (e : ε) : Prop :=
  ∀ i : Input β, i.elems = xs → p i = .error e

theorem yields_pure (a : α) (xs : List β) : Yields (pure a : Reader β ε α) xs a xs :=
  fun i hi => ⟨i, rfl, hi⟩

theorem Yields.bind {p : Reader β ε α} {f : α → Reader β ε γ} {xs ys zs : List β} {a : α} {c : γ}
    (hp : Yields p xs a ys) (hf : Yields (f a) ys c zs) : Yields (p >>= f) xs c zs := by
  intro i hi
  obtain ⟨i', hp', hi'⟩ := hp i hi
  obtain ⟨i'', hf', hi''⟩ := hf i' hi'
  refine ⟨i'', ?_, hi''⟩
  change (p i >>= fun r => f r.1 r.2) = _
  rw [hp']
  exact hf'

/-- A reader whose value is only passed through a function. -/
theorem Yields.bind_pure {p : Reader β ε α} {xs ys : List β} {a : α} (hp : Yields p xs a ys)
    (f : α → γ) : Yields (p >>= fun x => pure (f x)) xs (f a) ys :=
  hp.bind (yields_pure (f a) ys)

theorem Raises.bind {p : Reader β ε α} {xs : List β} {e : ε} (hp : Raises p xs e)
    (f : α → Reader β ε γ) : Raises (p >>= f) xs e := by
  intro i hi
  change (p i >>= fun r => f r.1 r.2) = _
  rw [hp i hi]
  rfl

/-- The loop that asks again until it has `n` elements; `none` if the stream ends before. -/
def readLoop : Nat → Nat → Input β → Option (List β × Input β)
  | _, 0, i => some ([], i)
  | 0, _ + 1, _ => none
  | turns + 1, n + 1, i =>
    match i.readSome (n + 1) with
    | ([], _) => none
    | (part, i') => (readLoop turns (n + 1 - part.length) i').map fun r => (part ++ r.1, r.2)

theorem readLoop_enough : ∀ (turns n : Nat) (i : Input β), n ≤ turns → n ≤ i.elems.length →
    ∃ i', readLoop turns n i = some (i.elems.take n, i') ∧ i'.elems = i.elems.drop n
  | _, 0, i, _, _ => ⟨i, by simp [readLoop], by simp⟩
  | turns + 1, n + 1, i, hturns, hlen => by
    have happ := Input.readSome_append (n + 1) i
    have hle := Input.readSome_length_le (n + 1) i
    rw [readLoop]
    cases hpart : i.readSome (n + 1) with
    | mk part i1 =>
      rw [hpart] at happ hle
      simp only at happ hle
      cases part with
      | nil =>
        have hnil := Input.readSome_eq_nil (Nat.succ_pos n) (by rw [hpart])
        rw [hnil] at hlen
        simp at hlen
      | cons x part =>
        have hlen1 : n + 1 - (x :: part).length ≤ i1.elems.length := by
          rw [← happ, List.length_append] at hlen
          omega
        obtain ⟨i', hloop, hi'⟩ := readLoop_enough turns (n + 1 - (x :: part).length) i1
          (by simp only [List.length_cons]; omega) hlen1
        refine ⟨i', ?_, ?_⟩
        · simp only [hloop, Option.map_some, ← happ]
          rw [List.take_append, List.take_of_length_le hle]
        · rw [hi', ← happ, List.drop_append, List.drop_of_length_le hle, List.nil_append]

theorem readLoop_short : ∀ (turns n : Nat) (i : Input β), i.elems.length < n →
    readLoop turns n i = none
  | 0, n + 1, _, _ => rfl
  | turns + 1, n + 1, i, hlen => by
    have happ := Input.readSome_append (n + 1) i
    rw [readLoop]
    cases hpart : i.readSome (n + 1) with
    | mk part i1 =>
      rw [hpart] at happ
      simp only at happ
      cases part with
      | nil => rfl
      | cons x part =>
        have hlen1 : i1.elems.length < n + 1 - (x :: part).length := by
          rw [← happ, List.length_append] at hlen
          omega
        simp only [readLoop_short turns (n + 1 - (x :: part).length) i1 hlen1, Option.map_none]

/-- The loop as a reader; `eof` is thrown when the stream ends before. -/
def readFully (eof : ε) (n : Nat) : Reader β ε (List β) := fun i =>
  match readLoop n n i with
  | none => .error eof
  | some r => .ok r

theorem readFully_yields (eof : ε) {n : Nat} {xs : List β} (rest : List β) (h : xs.length = n) :
    Yields (readFully eof n) (xs ++ rest) xs rest := by
  intro i hi
  obtain ⟨i', hloop, hi'⟩ := readLoop_enough n n i (Nat.le_refl n) (by simp [hi, h])
  rw [hi, ← h, List.take_left] at hloop
  rw [hi, ← h, List.drop_left] at hi'
  exact ⟨i', by simp only [readFully, ← h, hloop], hi'⟩

theorem readFully_raises (eof : ε) {n : Nat} {xs : List β} (h : xs.length < n) :
    Raises (readFully eof n) xs eof := by
  intro i hi
  simp [readFully, readLoop_short n n i (by rw [hi]; exact h)]

/-- `read()` as a reader that throws at the end of the stream. -/
def readOne (eof : ε) : Reader β ε β := fun i =>
  match i.read with
  | (none, _) => .error eof
  | (some b, i') => .ok (b, i')

theorem readOne_yields (eof : ε) (b : β) (rest : List β) :
    Yields (readOne eof) (b :: rest) b rest := by
  intro i hi
  obtain ⟨hb, hrest⟩ := Input.read_cons hi
  refine ⟨i.read.2, ?_, hrest⟩
  rw [readOne, show i.read = (some b, i.read.2) from Prod.ext hb rfl]

theorem readOne_raises (eof : ε) : Raises (readOne eof : Reader β ε β) [] eof := by
  intro i hi
  rw [readOne, show i.read = (none, i.read.2) from Prod.ext (Input.read_nil hi).1 rfl]

end

/-! ## 3. Bytes of texts and of numbers, lowest byte first -/

/-- The bytes of an ASCII text. -/
def ascii (s : String) : List UInt8 := s.toList.map fun c => UInt8.ofNat c.toNat

/-- The lowest `w` bytes of a number. -/
def leBytes : Nat → Nat → List UInt8
  | 0, _ => []
  | w + 1, n => UInt8.ofNat n :: leBytes w (n / 256)

/-- The number whose bytes are given. -/
def leValue : List UInt8 → Nat
  | [] => 0
  | b :: bs => b.toNat + 256 * leValue bs

@[simp] theorem leBytes_length : ∀ w n : Nat, (leBytes w n).length = w
  | 0, _ => rfl
  | w + 1, n => by rw [leBytes, List.length_cons, leBytes_length w]

theorem leValue_leBytes : ∀ w n : Nat, leValue (leBytes w n) = n % 256 ^ w
  | 0, n => by simp [leBytes, leValue, Nat.mod_one]
  | w + 1, n => by
    have hlow : (UInt8.ofNat n).toNat = n % 256 := UInt8.toNat_ofNat'
    rw [leBytes, leValue, leValue_leBytes w, hlow, Nat.pow_succ,
      Nat.mul_comm (256 ^ w), Nat.mod_mul]

theorem leBytes_leValue (bs : List UInt8) : leBytes bs.length (leValue bs) = bs := by
  induction bs with
  | nil => rfl
  | cons b bs ih =>
    have hlow : UInt8.ofNat (b.toNat + 256 * leValue bs) = b := by
      rw [← UInt8.toNat_inj, UInt8.toNat_ofNat', Nat.add_mul_mod_self_left]
      exact Nat.mod_eq_of_lt b.toNat_lt
    have hhigh : (b.toNat + 256 * leValue bs) / 256 = leValue bs := by
      have hb := b.toNat_lt
      omega
    rw [List.length_cons, leBytes, leValue, hlow, hhigh, ih]

theorem leValue_lt (bs : List UInt8) : leValue bs < 256 ^ bs.length := by
  induction bs with
  | nil => exact Nat.one_pos
  | cons b bs ih =>
    have hb := b.toNat_lt
    rw [leValue, List.length_cons, Nat.pow_succ]
    omega

theorem leValue_take_lt (w : Nat) (bs : List UInt8) : leValue (bs.take w) < 256 ^ w :=
  Nat.lt_of_lt_of_le (leValue_lt _)
    (Nat.pow_le_pow_right (by decide) (by rw [List.length_take]; exact Nat.min_le_left _ _))

theorem leBytes_take {w : Nat} {bs : List UInt8} (h : w ≤ bs.length) :
    leBytes w (leValue (bs.take w)) ++ bs.drop w = bs := by
  have hback := leBytes_leValue (bs.take w)
  rw [List.length_take_of_le h] at hback
  rw [hback, List.take_append_drop]

/-- What a reader makes of the bytes: each is OR-ed in, eight bits further left than the last. -/
def orBytes (acc shift : Nat) : List UInt8 → Nat
  | [] => acc
  | b :: bs => orBytes (acc ||| b.toNat <<< shift) (shift + 8) bs

theorem orBytes_eq : ∀ (bs : List UInt8) {acc shift : Nat}, acc < 2 ^ shift →
    orBytes acc shift bs = acc + 2 ^ shift * leValue bs
  | [], acc, shift, _ => by simp [orBytes, leValue]
  | b :: bs, acc, shift, h => by
    have hor : acc ||| b.toNat <<< shift = acc + 2 ^ shift * b.toNat := by
      rw [Nat.or_comm, Nat.shiftLeft_eq, Nat.mul_comm,
        ← Nat.two_pow_add_eq_or_of_lt h, Nat.add_comm]
    have hbyte : acc + 2 ^ shift * b.toNat < 2 ^ (shift + 8) := by
      have hb : 2 ^ shift * b.toNat ≤ 2 ^ shift * 255 :=
        Nat.mul_le_mul_left _ (by have := b.toNat_lt; omega)
      rw [Nat.pow_add]
      omega
    rw [orBytes, hor, orBytes_eq bs hbyte, leValue, Nat.pow_add, Nat.mul_add, Nat.mul_assoc,
      Nat.add_assoc]

theorem orBytes_leValue (bs : List UInt8) : orBytes 0 0 bs = leValue bs := by
  rw [orBytes_eq bs (by decide)]
  simp

/-- **Numbers read back.** -/
theorem orBytes_leBytes (w n : Nat) : orBytes 0 0 (leBytes w n) = n % 256 ^ w := by
  rw [orBytes_leValue, leValue_leBytes]

/-- The sign of an `int` that was read without one. -/
theorem ofNat_not_neg {n : Nat} (h : n < 2 ^ 31) : ¬ Int32.ofNat n < 0 := by
  rw [Int32.lt_iff_toInt_lt, Int32.toInt_ofNat_of_lt h]
  simp

theorem ofNat_neg {n : Nat} (hlow : 2 ^ 31 ≤ n) (hhigh : n < 2 ^ 32) : Int32.ofNat n < 0 := by
  have hzero : (0 : Int32).toInt = 0 := rfl
  have hsize : Int32.size = 2 ^ 32 := rfl
  rw [Int32.lt_iff_toInt_lt, Int32.toInt_ofNat', hzero, hsize, Int.bmod_def]
  split <;> omega

end WebrtcBridge.Lib
