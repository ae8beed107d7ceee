/-
# Input streams, and programs that read them

An input stream is known by its CALLS.  `read n` hands over between one and `n` of the elements to
come, and none only at the end; `skip n` passes over at most `n` of them, maybe none; `available`
promises nothing.  How many there are each time is up to the stream and may depend on anything.  So
a stream is a type with these calls and their laws, and a program that reads streams is written for
all such types.

What a program makes of a stream should depend on the elements alone.  The plainest stream is the
list of its elements, so that can be said without a second program: `ActsAs p q`, the program `p` on
some type of streams does to a stream what `q` does to the list of its elements, with the same value
or exception and the same elements left.  With `q` the same program at lists, two streams with the
same elements cannot be told apart.

* The rules follow the program: `ActsAs.bind`, `ActsAs.ite`, `ActsAs.loop`.
* `read` and `skip` themselves do NOT act as they do on lists.  The loops around them do:
  `actsAs_readFully`, `actsAs_skipFully`.
* A buffer in front of a stream is a stream again (`Buffered`), whatever its capacity.
* `session_eq`: an object that is built on a stream and then called, call after call, exceptions or
  not.
-/
import WebrtcBridge.Lib.ByteInput

namespace WebrtcBridge.Lib

/-! ## 1. Streams -/

/-- A type of input streams. -/
class InputStream (σ : Type) (β : outParam Type) where
  /-- What is still to come. -/
  elems : σ → List β
  /-- `read(buf, off, n)`: what it puts into `buf`; `-1` is an empty list. -/
  read : Nat → σ → List β × σ
  /-- `skip(n)`: how many it passed over. -/
  skip : Nat → σ → Nat × σ
  available : σ → Nat
  read_append : ∀ n s, (read n s).1 ++ elems (read n s).2 = elems s
  read_length_le : ∀ n s, (read n s).1.length ≤ n
  read_eq_nil : ∀ n s, 0 < n → (read n s).1 = [] → elems s = []
  skip_le : ∀ n s, (skip n s).1 ≤ n
  skip_le_length : ∀ n s, (skip n s).1 ≤ (elems s).length
  skip_elems : ∀ n s, elems (skip n s).2 = (elems s).drop (skip n s).1

namespace InputStream

variable {β ε σ α γ : Type}

/-- The list of its elements is a stream that hands over all it is asked for. -/
instance ofList : InputStream (List β) β where
  elems xs := xs
  read n xs := (xs.take n, xs.drop n)
  skip n xs := (min n xs.length, xs.drop (min n xs.length))
  available xs := xs.length
  read_append n xs := List.take_append_drop n xs
  read_length_le n xs := List.length_take_le n xs
  read_eq_nil n xs hn h := by
    rcases List.take_eq_nil_iff.mp h with h0 | h0
    · omega
    · exact h0
  skip_le n xs := Nat.min_le_left n xs.length
  skip_le_length n xs := Nat.min_le_right n xs.length
  skip_elems _ _ := rfl

/-- A stream that arrives in pieces; it skips by reading. -/
instance ofInput : InputStream (Input β) β where
  elems := Input.elems
  read := Input.readSome
  skip n i := ((i.readSome n).1.length, (i.readSome n).2)
  available _ := 0
  read_append := Input.readSome_append
  read_length_le := Input.readSome_length_le
  read_eq_nil n i hn h := Input.readSome_eq_nil hn h
  skip_le := Input.readSome_length_le
  skip_le_length n i := by
    have happ := congrArg List.length (Input.readSome_append n i)
    rw [List.length_append] at happ
    omega
  skip_elems n i := by
    rw [← Input.readSome_append n i, List.drop_left]

@[simp] theorem elems_list (xs : List β) : elems xs = xs := rfl

/-! ## 2. Programs -/

variable [InputStream σ β]

/-- A result, with the elements that are left for the stream that is left. -/
def overElems : EStateM.Result ε σ α → EStateM.Result ε (List β) α
  | .ok a s => .ok a (elems s)
  | .error e s => .error e (elems s)

@[simp] theorem overElems_ok (a : α) (s : σ) :
    overElems (.ok a s : EStateM.Result ε σ α) = .ok a (elems s) := rfl

@[simp] theorem overElems_error (e : ε) (s : σ) :
    overElems (.error e s : EStateM.Result ε σ α) = .error e (elems s) := rfl

@[simp] theorem overElems_list (r : EStateM.Result ε (List β) α) : overElems r = r := by
  cases r <;> rfl

theorem overElems_eq_ok {r : EStateM.Result ε σ α} {a : α} {xs : List β}
    (h : overElems r = .ok a xs) : ∃ s, r = .ok a s ∧ elems s = xs := by
  cases r with
  | ok b s =>
    cases h
    exact ⟨s, rfl, rfl⟩
  | error e s => cases h

theorem overElems_eq_error {r : EStateM.Result ε σ α} {e : ε} {xs : List β}
    (h : overElems r = .error e xs) : ∃ s, r = .error e s ∧ elems s = xs := by
  cases r with
  | ok b s => cases h
  | error e s =>
    cases h
    exact ⟨s, rfl, rfl⟩

/-- **`p` does to a stream what `q` does to its elements.** -/
def ActsAs (p : EStateM ε σ α) (q : EStateM ε (List β) α) : Prop :=
  ∀ s : σ, overElems (p s) = q (elems s)

theorem actsAs_pure (a : α) : ActsAs (pure a : EStateM ε σ α) (pure a) := fun _ => rfl

theorem actsAs_throw (e : ε) :
    ActsAs (throw e : EStateM ε σ α) (throw e) := fun _ => rfl

/-- **Programs in sequence.** -/
theorem ActsAs.bind {p : EStateM ε σ α} {q : EStateM ε (List β) α} {f : α → EStateM ε σ γ}
    {g : α → EStateM ε (List β) γ} (hp : ActsAs p q) (hf : ∀ a, ActsAs (f a) (g a)) :
    ActsAs (p >>= f) (q >>= g) := by
  intro s
  have hs := hp s
  change overElems (EStateM.bind p f s) = EStateM.bind q g (elems s)
  unfold EStateM.bind
  rw [← hs]
  cases p s with
  | ok a s' => exact hf a s'
  | error e s' => rfl

theorem ActsAs.ite (c : Prop) [Decidable c] {p p' : EStateM ε σ α} {q q' : EStateM ε (List β) α}
    (h : ActsAs p q) (h' : ActsAs p' q') : ActsAs (if c then p else p') (if c then q else q') := by
  split
  · exact h
  · exact h'

/-- A check that throws, and what comes behind it. -/
theorem ActsAs.check (c : Prop) [Decidable c] (e : ε) {δ : Type} {f : δ → EStateM ε σ α}
    {g : δ → EStateM ε (List β) α} {p : EStateM ε σ α} {q : EStateM ε (List β) α}
    (h : ActsAs p q) :
    ActsAs (if c then throw e >>= f else p) (if c then throw e >>= g else q) :=
  ActsAs.ite c (fun _ => rfl) h

/-! ## 3. Loops -/

/-- `while (true)`: the body goes on with new values for its variables, or breaks with a result.
Something gets smaller each time it goes on. -/
def loop (body : γ → EStateM ε σ (γ ⊕ α)) (m : γ → σ → Nat)
    (hm : ∀ c s c' s', body c s = .ok (.inl c') s' → m c' s' < m c s) (c : γ) (s : σ) :
    EStateM.Result ε σ α :=
  match _h : body c s with
  | .ok (.inl c') s' => loop body m hm c' s'
  | .ok (.inr a) s' => .ok a s'
  | .error e s' => .error e s'
termination_by m c s
decreasing_by exact hm c s c' s' _h

section Loop

variable {body : γ → EStateM ε σ (γ ⊕ α)} {m : γ → σ → Nat}
  {hm : ∀ c s c' s', body c s = .ok (.inl c') s' → m c' s' < m c s}

omit [InputStream σ β] in
theorem loop_next {c c' : γ} {s s' : σ} (h : body c s = .ok (.inl c') s') :
    loop body m hm c s = loop body m hm c' s' := by
  rw [loop]
  split
  · next heq => rw [h] at heq; cases heq; rfl
  · next heq => rw [h] at heq; cases heq
  · next heq => rw [h] at heq; cases heq

omit [InputStream σ β] in
theorem loop_break {c : γ} {a : α} {s s' : σ} (h : body c s = .ok (.inr a) s') :
    loop body m hm c s = .ok a s' := by
  rw [loop]
  split
  · next heq => rw [h] at heq; cases heq
  · next heq => rw [h] at heq; cases heq; rfl
  · next heq => rw [h] at heq; cases heq

omit [InputStream σ β] in
theorem loop_error {c : γ} {e : ε} {s s' : σ} (h : body c s = .error e s') :
    loop body m hm c s = .error e s' := by
  rw [loop]
  split
  · next heq => rw [h] at heq; cases heq
  · next heq => rw [h] at heq; cases heq
  · next heq => rw [h] at heq; cases heq; rfl

/-- **Loops whose bodies act alike act alike.** -/
theorem ActsAs.loop {body' : γ → EStateM ε (List β) (γ ⊕ α)} {m' : γ → List β → Nat}
    {hm' : ∀ c s c' s', body' c s = .ok (.inl c') s' → m' c' s' < m' c s}
    (h : ∀ c, ActsAs (body c) (body' c)) (c : γ) :
    ActsAs (InputStream.loop body m hm c) (InputStream.loop body' m' hm' c) := by
  intro s
  induction hn : m c s using Nat.strongRecOn generalizing c s with
  | ind n ih =>
    have hbody := h c s
    cases hs : body c s with
    | ok r s' =>
      rw [hs, overElems_ok] at hbody
      cases r with
      | inl c' =>
        have hlt : m c' s' < n := hn ▸ hm c s c' s' hs
        rw [loop_next hs, loop_next hbody.symm]
        exact ih (m c' s') hlt c' s' rfl
      | inr a =>
        rw [loop_break hs, loop_break hbody.symm]
        rfl
    | error e s' =>
      rw [hs, overElems_error] at hbody
      rw [loop_error hs, loop_error hbody.symm]
      rfl

end Loop

/-! ## 4. Reading and skipping -/

/-- `read()`: one element, `none` at the end. -/
def readByte : EStateM ε σ (Option β) := fun s => .ok (read 1 s).1.head? (read 1 s).2

theorem readByte_nil {s : σ} (h : elems s = []) :
    ∃ s', (readByte s : EStateM.Result ε σ (Option β)) = .ok none s' ∧ elems s' = [] := by
  have happ := read_append 1 s
  rw [h, List.append_eq_nil_iff] at happ
  exact ⟨(read 1 s).2, by simp [readByte, happ.1], happ.2⟩

theorem readByte_cons {s : σ} {b : β} {bs : List β} (h : elems s = b :: bs) :
    ∃ s', (readByte s : EStateM.Result ε σ (Option β)) = .ok (some b) s' ∧ elems s' = bs := by
  have happ := read_append 1 s
  have hle := read_length_le 1 s
  rw [h] at happ
  cases hpart : (read 1 s).1 with
  | nil =>
    have hnil := read_eq_nil 1 s Nat.one_pos hpart
    rw [h] at hnil
    cases hnil
  | cons x xs =>
    rw [hpart] at happ hle
    have hxs : xs = [] := List.length_eq_zero_iff.mp (by simpa using hle)
    rw [hxs, List.cons_append, List.nil_append, List.cons.injEq] at happ
    exact ⟨(read 1 s).2, by simp [readByte, hpart, happ.1], happ.2⟩

/-- Reading an element takes it from the stream. -/
theorem readByte_some {s s' : σ} {b : β}
    (h : (readByte s : EStateM.Result ε σ _) = .ok (some b) s') :
    elems s = b :: elems s' := by
  cases hs : elems s with
  | nil =>
    obtain ⟨t, ht, -⟩ := readByte_nil (ε := ε) hs
    rw [h] at ht
    cases ht
  | cons x xs =>
    obtain ⟨t, ht, hrest⟩ := readByte_cons (ε := ε) hs
    rw [h] at ht
    cases ht
    rw [hrest]

theorem readByte_none {s s' : σ} (h : (readByte s : EStateM.Result ε σ _) = .ok none s') :
    elems s = [] ∧ elems s' = [] := by
  cases hs : elems s with
  | nil =>
    obtain ⟨t, ht, hrest⟩ := readByte_nil (ε := ε) hs
    rw [h] at ht
    cases ht
    exact ⟨rfl, hrest⟩
  | cons x xs =>
    obtain ⟨t, ht, -⟩ := readByte_cons (ε := ε) hs
    rw [h] at ht
    cases ht

theorem actsAs_readByte :
    ActsAs (readByte : EStateM ε σ (Option β)) (readByte : EStateM ε (List β) (Option β)) := by
  intro s
  cases hs : elems s with
  | nil =>
    obtain ⟨s', h, hrest⟩ := readByte_nil (ε := ε) hs
    rw [h, overElems_ok, hrest]
    rfl
  | cons b bs =>
    obtain ⟨s', h, hrest⟩ := readByte_cons (ε := ε) hs
    rw [h, overElems_ok, hrest]
    rfl

/-- `int b = read()`, and what is done at the end of the stream or with the element. -/
def readElse (atEnd : EStateM ε σ α) (next : β → EStateM ε σ α) : EStateM ε σ α := do
  match ← readByte with
  | none => atEnd
  | some b => next b

theorem ActsAs.readElse {p : EStateM ε σ α} {q : EStateM ε (List β) α} {f : β → EStateM ε σ α}
    {g : β → EStateM ε (List β) α} (hp : ActsAs p q) (hf : ∀ b, ActsAs (f b) (g b)) :
    ActsAs (InputStream.readElse p f) (InputStream.readElse q g) := by
  refine ActsAs.bind actsAs_readByte fun b => ?_
  cases b with
  | none => exact hp
  | some b => exact hf b

@[simp] theorem readElse_nil (p : EStateM ε (List β) α) (f : β → EStateM ε (List β) α) :
    InputStream.readElse p f [] = p [] := rfl

@[simp] theorem readElse_cons (p : EStateM ε (List β) α) (f : β → EStateM ε (List β) α) (b : β)
    (bs : List β) : InputStream.readElse p f (b :: bs) = f b bs := by
  rfl

/-- `read()`, with an exception at the end. -/
def readOne (eof : ε) : EStateM ε σ β := readElse (throw eof) pure

theorem actsAs_readOne (eof : ε) :
    ActsAs (readOne eof : EStateM ε σ β) (readOne eof : EStateM ε (List β) β) :=
  ActsAs.readElse (actsAs_throw eof) actsAs_pure

/-- One turn of the loop that asks again until it has `n` elements. -/
def readTurn (eof : ε) (n : Nat) (buf : List β) : EStateM ε σ (List β ⊕ List β) := fun s =>
  if buf.length < n then
    match read (n - buf.length) s with
    | ([], s') => .error eof s'
    | (x :: part, s') => .ok (.inl (buf ++ x :: part)) s'
  else .ok (.inr buf) s

theorem readTurn_lt (eof : ε) (n : Nat) (buf : List β) (s : σ) (buf' : List β) (s' : σ)
    (h : readTurn eof n buf s = .ok (.inl buf') s') : n - buf'.length < n - buf.length := by
  unfold readTurn at h
  split at h
  · split at h
    · cases h
    · cases h
      simp only [List.length_append, List.length_cons]
      omega
  · cases h

/-- The loop; `eof` is thrown when the stream ends before. -/
def readFully (eof : ε) (n : Nat) : EStateM ε σ (List β) :=
  loop (readTurn eof n) (fun buf _ => n - buf.length) (readTurn_lt eof n) []

/-- **However a stream is split, the loop takes the next `n` elements, or all of them and
fails.** -/
theorem readLoop_elems (eof : ε) (n : Nat) (buf : List β) (s : σ) (hbuf : buf.length ≤ n) :
    overElems (loop (readTurn eof n) (fun buf _ => n - buf.length) (readTurn_lt eof n) buf s)
      = if n - buf.length ≤ (elems s).length then
          .ok (buf ++ (elems s).take (n - buf.length)) ((elems s).drop (n - buf.length))
        else .error eof [] := by
  induction hk : n - buf.length using Nat.strongRecOn generalizing buf s with
  | ind k ih =>
    by_cases hlt : buf.length < n
    · have happ := read_append (n - buf.length) s
      have hle := read_length_le (n - buf.length) s
      have hnil := read_eq_nil (n - buf.length) s (by omega)
      cases hread : read (n - buf.length) s with
      | mk part s' =>
        rw [hread] at happ hle hnil
        simp only at happ hle hnil
        cases part with
        | nil =>
          have hturn : readTurn eof n buf s = .error eof s' := by
            simp [readTurn, hlt, hread]
          rw [List.nil_append] at happ
          rw [loop_error hturn, overElems_error, happ, hnil rfl, if_neg (by simp; omega)]
        | cons x part =>
          have hturn : readTurn eof n buf s = .ok (.inl (buf ++ x :: part)) s' := by
            simp [readTurn, hlt, hread]
          have hlen : (buf ++ x :: part).length ≤ n := by
            rw [List.length_append]
            omega
          have hrest : n - (buf ++ x :: part).length = k - (x :: part).length := by
            rw [List.length_append]
            omega
          have hsmaller : k - (x :: part).length < k := by
            simp only [List.length_cons]
            omega
          have hle' : (x :: part).length ≤ k := by omega
          rw [loop_next hturn, ih _ hsmaller _ _ hlen hrest, ← happ, List.length_append,
            List.take_append, List.drop_append, List.take_of_length_le hle',
            List.drop_of_length_le hle', List.nil_append, List.append_assoc]
          by_cases henough : k ≤ (x :: part).length + (elems s').length
          · rw [if_pos henough, if_pos (by omega)]
          · rw [if_neg henough, if_neg (by omega)]
    · have hturn : readTurn eof n buf s = .ok (.inr buf) s := by
        rw [readTurn, if_neg hlt]
      have hzero : k = 0 := by omega
      rw [loop_break hturn, hzero]
      simp

theorem readFully_elems (eof : ε) (n : Nat) (s : σ) :
    overElems (readFully eof n s)
      = if n ≤ (elems s).length then .ok ((elems s).take n) ((elems s).drop n)
        else .error eof [] := by
  have h := readLoop_elems eof n [] s (Nat.zero_le n)
  simpa [readFully] using h

theorem actsAs_readFully (eof : ε) (n : Nat) :
    ActsAs (readFully eof n : EStateM ε σ (List β)) (readFully eof n) := by
  intro s
  have hlist := readFully_elems eof n (elems s)
  rw [overElems_list, elems_list] at hlist
  rw [readFully_elems, hlist]

/-- One turn of the loop that passes over `n` elements: it asks the stream to skip them, and if that
passes over none it reads one. -/
def skipTurn (eof : ε) (n : Nat) : EStateM ε σ (Nat ⊕ Unit) := fun s =>
  if 0 < n then
    match skip n s with
    | (0, s') =>
      match (readByte s' : EStateM.Result ε σ (Option β)) with
      | .ok none s'' => .error eof s''
      | .ok (some _) s'' => .ok (.inl (n - 1)) s''
      | .error e s'' => .error e s''
    | (k + 1, s') => .ok (.inl (n - (k + 1))) s'
  else .ok (.inr ()) s

theorem skipTurn_lt (eof : ε) (n : Nat) (s : σ) (n' : Nat) (s' : σ)
    (h : skipTurn eof n s = .ok (.inl n') s') : n' < n := by
  unfold skipTurn at h
  split at h
  · split at h
    · split at h
      · cases h
      · cases h
        omega
      · cases h
    · cases h
      omega
  · cases h

/-- The loop; `eof` is thrown when the stream ends before. -/
def skipFully (eof : ε) (n : Nat) : EStateM ε σ Unit :=
  loop (skipTurn eof) (fun n _ => n) (skipTurn_lt eof) n

/-- What one turn does to the elements: it passes over at least one of them, or finds the end. -/
theorem skipTurn_cases (eof : ε) {n : Nat} (hn : 0 < n) (s : σ) :
    (∃ k s', 0 < k ∧ k ≤ n ∧ k ≤ (elems s).length ∧ skipTurn eof n s = .ok (.inl (n - k)) s'
        ∧ elems s' = (elems s).drop k)
      ∨ ∃ s', elems s = [] ∧ skipTurn eof n s = .error eof s' ∧ elems s' = [] := by
  have hle := skip_le n s
  have hlength := skip_le_length n s
  have helems := skip_elems n s
  cases hskip : skip n s with
  | mk k s' =>
    rw [hskip] at hle hlength helems
    simp only at hle hlength helems
    cases k with
    | zero =>
      rw [List.drop_zero] at helems
      cases hs : elems s with
      | nil =>
        obtain ⟨s'', hread, hrest⟩ := readByte_nil (ε := ε) (helems.trans hs)
        exact .inr ⟨s'', rfl, by simp [skipTurn, hn, hskip, hread], hrest⟩
      | cons b bs =>
        obtain ⟨s'', hread, hrest⟩ := readByte_cons (ε := ε) (helems.trans hs)
        exact .inl ⟨1, s'', Nat.one_pos, hn, by simp, by simp [skipTurn, hn, hskip, hread],
          by simp [hrest]⟩
    | succ k =>
      exact .inl ⟨k + 1, s', Nat.succ_pos k, hle, hlength, by simp [skipTurn, hn, hskip], helems⟩

/-- **However a stream skips, the loop passes over the next `n` elements, or over all and
fails.** -/
theorem skipFully_elems (eof : ε) (n : Nat) (s : σ) :
    overElems (skipFully eof n s)
      = if n ≤ (elems s).length then .ok () ((elems s).drop n) else .error eof [] := by
  unfold skipFully
  induction n using Nat.strongRecOn generalizing s with
  | ind n ih =>
    rcases Nat.eq_zero_or_pos n with rfl | hn
    · have hturn : skipTurn eof 0 s = .ok (.inr ()) s := rfl
      rw [loop_break hturn]
      simp
    rcases skipTurn_cases eof hn s with
      ⟨k, s', hk, hkn, hlength, hturn, hrest⟩ | ⟨s', hs, hturn, hrest⟩
    · rw [loop_next hturn, ih (n - k) (by omega) s', hrest, List.length_drop, List.drop_drop]
      by_cases henough : n ≤ (elems s).length
      · rw [if_pos henough, if_pos (by omega), Nat.add_sub_cancel' hkn]
      · rw [if_neg henough, if_neg (by omega)]
    · rw [loop_error hturn, overElems_error, hrest, hs, if_neg (by simp; omega)]

theorem actsAs_skipFully (eof : ε) (n : Nat) :
    ActsAs (skipFully eof n : EStateM ε σ Unit) (skipFully eof n : EStateM ε (List β) Unit) := by
  intro s
  have hlist := skipFully_elems eof n (elems s)
  rw [overElems_list, elems_list] at hlist
  rw [skipFully_elems, hlist]

/-! ### What a program takes from the stream

A loop that reads ends because each of its turns takes something. -/

/-- Nothing is put back: what is left stood at the end. -/
def Shrinks (p : EStateM ε σ α) : Prop :=
  ∀ s a s', p s = .ok a s' → elems s' <:+ elems s

/-- With a result of the kind `P`, something has been taken. -/
def Takes (P : α → Prop) (p : EStateM ε σ α) : Prop :=
  ∀ s a s', p s = .ok a s' → P a → (elems s').length < (elems s).length

/-- A turn of a loop that goes on, or breaks with a result of the kind `P`. -/
def GoesOnOr (P : α → Prop) : γ ⊕ α → Prop
  | .inl _ => True
  | .inr a => P a

theorem shrinks_pure (a : α) : Shrinks (pure a : EStateM ε σ α) := by
  intro s b s' h
  cases h
  exact List.suffix_refl _

theorem shrinks_throw (e : ε) : Shrinks (throw e : EStateM ε σ α) := by
  intro s b s' h
  cases h

omit [InputStream σ β] in
/-- A sequence that returns has returned from its first part. -/
theorem bind_eq_ok {p : EStateM ε σ α} {f : α → EStateM ε σ γ} {s s' : σ} {c : γ}
    (h : (p >>= f) s = .ok c s') : ∃ a t, p s = .ok a t ∧ f a t = .ok c s' := by
  change EStateM.bind p f s = .ok c s' at h
  unfold EStateM.bind at h
  cases hp : p s with
  | ok a t =>
    rw [hp] at h
    exact ⟨a, t, rfl, h⟩
  | error e t =>
    rw [hp] at h
    cases h

omit [InputStream σ β] in
theorem bind_of_ok {p : EStateM ε σ α} {f : α → EStateM ε σ γ} {s t : σ} {a : α}
    (h : p s = .ok a t) : (p >>= f) s = f a t := by
  change EStateM.bind p f s = f a t
  unfold EStateM.bind
  rw [h]

omit [InputStream σ β] in
theorem bind_of_error {p : EStateM ε σ α} {f : α → EStateM ε σ γ} {s t : σ} {e : ε}
    (h : p s = .error e t) : (p >>= f) s = .error e t := by
  change EStateM.bind p f s = .error e t
  unfold EStateM.bind
  rw [h]

omit [InputStream σ β] in
/-- A check that lets a program return has not thrown. -/
theorem check_eq_ok {c : Prop} [Decidable c] {e : ε} {δ : Type} {f : δ → EStateM ε σ α}
    {p : EStateM ε σ α} {s s' : σ} {a : α} (h : (if c then throw e >>= f else p) s = .ok a s') :
    ¬ c ∧ p s = .ok a s' := by
  split at h
  · cases h
  · next hc => exact ⟨hc, h⟩

theorem Shrinks.bind {p : EStateM ε σ α} {f : α → EStateM ε σ γ} (hp : Shrinks p)
    (hf : ∀ a, Shrinks (f a)) : Shrinks (p >>= f) := by
  intro s c s' h
  obtain ⟨a, t, hpa, hfa⟩ := bind_eq_ok h
  exact (hf a t c s' hfa).trans (hp s a t hpa)

theorem Shrinks.ite (c : Prop) [Decidable c] {p q : EStateM ε σ α} (hp : Shrinks p)
    (hq : Shrinks q) : Shrinks (if c then p else q) := by
  split
  · exact hp
  · exact hq

theorem Shrinks.check (c : Prop) [Decidable c] (e : ε) {δ : Type} {f : δ → EStateM ε σ α}
    {p : EStateM ε σ α} (h : Shrinks p) : Shrinks (if c then throw e >>= f else p) := by
  intro s a s' heq
  exact h s a s' (check_eq_ok heq).2

theorem shrinks_readByte : Shrinks (readByte : EStateM ε σ (Option β)) := by
  intro s b s' h
  cases b with
  | none => simp [readByte_none h]
  | some b => simp [readByte_some h, List.suffix_cons]

theorem Shrinks.loop {body : γ → EStateM ε σ (γ ⊕ α)} {m : γ → σ → Nat}
    {hm : ∀ c s c' s', body c s = .ok (.inl c') s' → m c' s' < m c s}
    (h : ∀ c, Shrinks (body c)) (c : γ) : Shrinks (InputStream.loop body m hm c) := by
  intro s a s' heq
  induction hn : m c s using Nat.strongRecOn generalizing c s with
  | ind n ih =>
    cases hs : body c s with
    | ok r t =>
      have hle := h c s r t hs
      cases r with
      | inl c' =>
        have hlt : m c' t < n := hn ▸ hm c s c' t hs
        rw [loop_next hs] at heq
        exact (ih (m c' t) hlt c' t heq rfl).trans hle
      | inr b =>
        rw [loop_break hs] at heq
        cases heq
        exact hle
    | error e t =>
      rw [loop_error hs] at heq
      cases heq

theorem Shrinks.readElse {p : EStateM ε σ α} {f : β → EStateM ε σ α} (hp : Shrinks p)
    (hf : ∀ b, Shrinks (f b)) : Shrinks (InputStream.readElse p f) := by
  refine shrinks_readByte.bind fun b => ?_
  cases b with
  | none => exact hp
  | some b => exact hf b

/-- What begins with `read()` has taken something, unless it was at the end of the stream. -/
theorem Takes.readElse {P : α → Prop} {p : EStateM ε σ α} {f : β → EStateM ε σ α}
    (hp : ∀ s a s', p s = .ok a s' → ¬ P a) (hf : ∀ b, Shrinks (f b)) :
    Takes P (InputStream.readElse p f) := by
  intro s a s' h hP
  obtain ⟨b, t, hread, hnext⟩ := bind_eq_ok h
  cases b with
  | none => exact absurd hP (hp t a s' hnext)
  | some b =>
    have hle := (hf b t a s' hnext).length_le
    rw [readByte_some hread, List.length_cons]
    omega

/-- What begins with a program that takes something. -/
theorem Takes.bind {P : γ → Prop} {p : EStateM ε σ α} {f : α → EStateM ε σ γ}
    (hp : Takes (fun _ => True) p) (hf : ∀ a, Shrinks (f a)) : Takes P (p >>= f) := by
  intro s c s' h _
  obtain ⟨a, t, hpa, hfa⟩ := bind_eq_ok h
  exact Nat.lt_of_le_of_lt (hf a t c s' hfa).length_le (hp s a t hpa trivial)

/-- A request that is met takes what was asked for. -/
theorem readFully_ok {eof : ε} {n : Nat} {s s' : σ} {xs : List β}
    (h : readFully eof n s = .ok xs s') : elems s = xs ++ elems s' ∧ xs.length = n := by
  have hs := readFully_elems eof n s
  rw [h, overElems_ok] at hs
  split at hs
  · next hn =>
    injection hs with hxs hrest
    rw [hrest, hxs]
    exact ⟨(List.take_append_drop n (elems s)).symm, List.length_take_of_le hn⟩
  · cases hs

theorem shrinks_readFully (eof : ε) (n : Nat) :
    Shrinks (readFully eof n : EStateM ε σ (List β)) := by
  intro s xs s' h
  exact ⟨xs, (readFully_ok h).1.symm⟩

theorem takes_readFully (eof : ε) {n : Nat} (hn : 0 < n) :
    Takes (fun _ => True) (readFully eof n : EStateM ε σ (List β)) := by
  intro s xs s' h _
  obtain ⟨happ, hlength⟩ := readFully_ok h
  rw [happ, List.length_append]
  omega

theorem skipFully_ok {eof : ε} {n : Nat} {s s' : σ} {u : Unit} (h : skipFully eof n s = .ok u s') :
    ∃ xs, xs.length = n ∧ elems s = xs ++ elems s' := by
  have hs := skipFully_elems eof n s
  rw [h, overElems_ok] at hs
  split at hs
  · next hle =>
    injection hs with _ hrest
    exact ⟨_, List.length_take_of_le hle, by rw [hrest, List.take_append_drop]⟩
  · cases hs

theorem shrinks_skipFully (eof : ε) (n : Nat) : Shrinks (skipFully eof n : EStateM ε σ Unit) := by
  intro s u s' h
  obtain ⟨xs, -, happ⟩ := skipFully_ok h
  exact ⟨xs, happ.symm⟩

/-- A loop whose turns take something each. -/
def readingLoop {P : α → Prop} (body : γ → EStateM ε σ (γ ⊕ α))
    (h : ∀ c, Takes (GoesOnOr P) (body c)) (c : γ) : EStateM ε σ α :=
  loop body (fun _ s => (elems s).length) (fun c s c' s' heq => h c s (.inl c') s' heq trivial) c

theorem takes_readingLoop {P : α → Prop} {body : γ → EStateM ε σ (γ ⊕ α)}
    (h : ∀ c, Takes (GoesOnOr P) (body c)) (c : γ) : Takes P (readingLoop body h c) := by
  intro s a s' heq hP
  unfold readingLoop at heq
  induction hn : (elems s).length using Nat.strongRecOn generalizing c s with
  | ind n ih =>
    cases hs : body c s with
    | ok r t =>
      cases r with
      | inl c' =>
        have hlt := h c s (.inl c') t hs trivial
        rw [loop_next hs] at heq
        exact Nat.lt_trans (ih (elems t).length (hn ▸ hlt) c' t heq rfl) (hn ▸ hlt)
      | inr b =>
        have hlt := h c s (.inr b) t hs
        rw [loop_break hs] at heq
        cases heq
        exact hn ▸ hlt hP
    | error e t =>
      rw [loop_error hs] at heq
      cases heq

/-! ### On lists -/

theorem readFully_take (eof : ε) {n : Nat} {xs : List β} (h : n ≤ xs.length) :
    readFully eof n xs = .ok (xs.take n) (xs.drop n) := by
  have hlist := readFully_elems eof n xs
  rwa [overElems_list, elems_list, if_pos h] at hlist

theorem readFully_append (eof : ε) {n : Nat} {xs : List β} (rest : List β) (h : xs.length = n) :
    readFully eof n (xs ++ rest) = .ok xs rest := by
  subst h
  rw [readFully_take eof (by simp), List.take_left, List.drop_left]

theorem readFully_short (eof : ε) {n : Nat} {xs : List β} (h : xs.length < n) :
    readFully eof n xs = .error eof [] := by
  have hlist := readFully_elems eof n xs
  rwa [overElems_list, elems_list, if_neg (Nat.not_le.mpr h)] at hlist

theorem skipFully_drop (eof : ε) {n : Nat} {xs : List β} (h : n ≤ xs.length) :
    skipFully eof n xs = .ok () (xs.drop n) := by
  have hlist := skipFully_elems eof n xs
  rwa [overElems_list, elems_list, if_pos h] at hlist

theorem skipFully_append (eof : ε) {n : Nat} {xs : List β} (rest : List β) (h : xs.length = n) :
    skipFully eof n (xs ++ rest) = .ok () rest := by
  subst h
  rw [skipFully_drop eof (by simp), List.drop_left]

theorem skipFully_short (eof : ε) {n : Nat} {xs : List β} (h : xs.length < n) :
    skipFully eof n xs = .error eof [] := by
  have hlist := skipFully_elems eof n xs
  rwa [overElems_list, elems_list, if_neg (Nat.not_le.mpr h)] at hlist

end InputStream

/-! ## 5. A buffer in front of a stream -/

open InputStream

/-- `BufferedInputStream`, never marked: what it has read ahead, and the stream behind it. -/
structure Buffered (σ β : Type) where
  capacity : Nat
  capacity_pos : 0 < capacity
  buffer : List β
  input : σ

namespace Buffered

variable {σ β : Type} [InputStream σ β]

/-- A new buffer is empty. -/
def new (capacity : Nat) (h : 0 < capacity) (input : σ) : Buffered σ β := ⟨capacity, h, [], input⟩

/-- `new BufferedInputStream(input)`, of the default size. -/
def ofInput (input : σ) : Buffered σ β := new 8192 (by decide) input

def elems (b : Buffered σ β) : List β := b.buffer ++ InputStream.elems b.input

/-- `fill()`, on an empty buffer. -/
def fill (b : Buffered σ β) : Buffered σ β :=
  { b with buffer := (read b.capacity b.input).1, input := (read b.capacity b.input).2 }

/-- Hands over what is in the buffer. -/
def take (n : Nat) (b : Buffered σ β) : List β × Buffered σ β :=
  (b.buffer.take n, { b with buffer := b.buffer.drop n })

/-- `read1`: from the buffer; if that is empty, from the stream when the request is not smaller than
the buffer, else the buffer is filled first. -/
def read1 (n : Nat) (b : Buffered σ β) : List β × Buffered σ β :=
  if b.buffer.isEmpty then
    if b.capacity ≤ n then ((read n b.input).1, { b with input := (read n b.input).2 })
    else b.fill.take n
  else b.take n

/-- `read`: again and again, as long as the stream behind claims to have more at hand. -/
def readAgain : Nat → Nat → Buffered σ β → List β × Buffered σ β
  | 0, _, b => ([], b)
  | turns + 1, n, b =>
    match b.read1 n with
    | ([], b') => ([], b')
    | (x :: part, b') =>
      if n ≤ (x :: part).length ∨ available b'.input = 0 then (x :: part, b')
      else
        let (more, b'') := readAgain turns (n - (x :: part).length) b'
        (x :: part ++ more, b'')

/-- `skip`: within the buffer, or by the stream behind if that is empty. -/
def skip (n : Nat) (b : Buffered σ β) : Nat × Buffered σ β :=
  if b.buffer.isEmpty then
    ((InputStream.skip n b.input).1, { b with input := (InputStream.skip n b.input).2 })
  else (min n b.buffer.length, { b with buffer := b.buffer.drop n })

theorem elems_fill {b : Buffered σ β} (h : b.buffer = []) : b.fill.elems = b.elems := by
  simp [fill, elems, h, read_append]

theorem take_append (n : Nat) (b : Buffered σ β) :
    (b.take n).1 ++ (b.take n).2.elems = b.elems := by
  simp [take, elems, ← List.append_assoc]

/-- What one request does: the elements it hands over stood in front, there are no more than asked
for, and none only at the end. -/
theorem read1_spec (n : Nat) (b : Buffered σ β) :
    (b.read1 n).1 ++ (b.read1 n).2.elems = b.elems ∧ (b.read1 n).1.length ≤ n
      ∧ (0 < n → (b.read1 n).1 = [] → b.elems = []) := by
  unfold read1
  split
  · next hempty =>
    have hbuffer : b.buffer = [] := by simpa using hempty
    split
    · refine ⟨?_, read_length_le n b.input, ?_⟩
      · simp [elems, hbuffer, read_append]
      · intro hn h
        simp [elems, hbuffer, read_eq_nil n b.input hn h]
    · refine ⟨?_, List.length_take_le n _, ?_⟩
      · rw [take_append, elems_fill hbuffer]
      · intro hn h
        have hfill : (read b.capacity b.input).1 = [] := by
          rcases List.take_eq_nil_iff.mp h with h0 | h0
          · omega
          · exact h0
        simp [elems, hbuffer, read_eq_nil b.capacity b.input b.capacity_pos hfill]
  · next hempty =>
    refine ⟨take_append n b, List.length_take_le n _, ?_⟩
    intro hn h
    rcases List.take_eq_nil_iff.mp h with h0 | h0
    · omega
    · simp [h0] at hempty

theorem readAgain_spec (turns n : Nat) (b : Buffered σ β) :
    (readAgain turns n b).1 ++ (readAgain turns n b).2.elems = b.elems
      ∧ (readAgain turns n b).1.length ≤ n
      ∧ (0 < turns → 0 < n → (readAgain turns n b).1 = [] → b.elems = []) := by
  induction turns generalizing n b with
  | zero => exact ⟨rfl, Nat.zero_le n, fun h => absurd h (Nat.lt_irrefl 0)⟩
  | succ turns ih =>
    obtain ⟨happ, hle, hnil⟩ := read1_spec n b
    unfold readAgain
    cases hread : b.read1 n with
    | mk part b' =>
      rw [hread] at happ hle hnil
      cases part with
      | nil => exact ⟨happ, Nat.zero_le n, fun _ hn _ => hnil hn rfl⟩
      | cons x part =>
        simp only
        split
        · exact ⟨happ, hle, fun _ _ h => by cases h⟩
        · obtain ⟨happ', hle', -⟩ := ih (n - (x :: part).length) b'
          refine ⟨?_, ?_, fun _ _ h => by cases h⟩
          · rw [List.append_assoc, happ', happ]
          · rw [List.length_append]
            simp only at hle
            omega

/-- **A buffered stream is a stream.** -/
instance : InputStream (Buffered σ β) β where
  elems := elems
  read n b := readAgain n n b
  skip := skip
  available b := b.buffer.length + available b.input
  read_append n b := (readAgain_spec n n b).1
  read_length_le n b := (readAgain_spec n n b).2.1
  read_eq_nil n b hn := (readAgain_spec n n b).2.2 hn hn
  skip_le n b := by
    unfold skip
    split
    · exact InputStream.skip_le n b.input
    · exact Nat.min_le_left n _
  skip_le_length n b := by
    unfold skip
    split
    · next hempty =>
      have hbuffer : b.buffer = [] := by simpa using hempty
      simpa [elems, hbuffer] using skip_le_length n b.input
    · simp only [elems, List.length_append]
      omega
  skip_elems n b := by
    unfold skip
    split
    · next hempty =>
      have hbuffer : b.buffer = [] := by simpa using hempty
      simp [elems, hbuffer, InputStream.skip_elems]
    · rcases Nat.le_total n b.buffer.length with hn | hn
      · simp [elems, Nat.min_eq_left hn, List.drop_append_of_le_length hn]
      · simp [elems, Nat.min_eq_right hn, List.drop_of_length_le hn]

@[simp] theorem elems_ofInput (input : σ) :
    InputStream.elems (ofInput input : Buffered σ β) = InputStream.elems input := rfl

end Buffered

/-! ## 6. Objects that read a stream -/

section Sessions

variable {σ β ε ρ κ α : Type} [InputStream σ β]

/-- What calls on an object give, one after another.  A call that throws leaves the fields as they
were, and the next one goes on with what is left of the stream. -/
def answers (call : κ → ρ → EStateM ε σ (α × ρ)) : List κ → ρ → σ → List (Except ε α)
  | [], _, _ => []
  | k :: ks, r, s =>
    match call k r s with
    | .ok (a, r') s' => .ok a :: answers call ks r' s'
    | .error e s' => .error e :: answers call ks r s'

/-- An object is built on a stream and called. -/
def session (construct : EStateM ε σ ρ) (call : κ → ρ → EStateM ε σ (α × ρ)) (calls : List κ)
    (s : σ) : Except ε (ρ × List (Except ε α)) :=
  match construct s with
  | .ok r s' => .ok (r, answers call calls r s')
  | .error e _ => .error e

theorem answers_eq {call : κ → ρ → EStateM ε σ (α × ρ)} {call' : κ → ρ → EStateM ε (List β) (α × ρ)}
    (h : ∀ k r, ActsAs (call k r) (call' k r)) (calls : List κ) (r : ρ) (s : σ) :
    answers call calls r s = answers call' calls r (elems s) := by
  induction calls generalizing r s with
  | nil => rfl
  | cons k ks ih =>
    have hk := h k r s
    rw [answers, answers, ← hk]
    cases call k r s with
    | ok v s' =>
      obtain ⟨a, r'⟩ := v
      simp only [overElems_ok, ih]
    | error e s' => simp only [overElems_error, ih]

/-- **What an object answers depends on the elements of its stream only.** -/
theorem session_eq {construct : EStateM ε σ ρ} {construct' : EStateM ε (List β) ρ}
    {call : κ → ρ → EStateM ε σ (α × ρ)} {call' : κ → ρ → EStateM ε (List β) (α × ρ)}
    (hconstruct : ActsAs construct construct') (hcall : ∀ k r, ActsAs (call k r) (call' k r))
    (calls : List κ) (s : σ) :
    session construct call calls s = session construct' call' calls (elems s) := by
  have hs := hconstruct s
  rw [session, session, ← hs]
  cases construct s with
  | ok r s' => simp only [overElems_ok, answers_eq hcall]
  | error e s' => rfl

end Sessions

/-! ## 7. Readers of a stream in pieces

The readers of `Lib.ByteInput` forget the stream when they throw.  What they do besides can be read
off a program on lists. -/

section Readers

variable {β ε α γ : Type}

/-- The reader gives what `q` gives for the elements of its stream, and leaves the same. -/
def Matches (p : Reader β ε α) (q : EStateM ε (List β) α) : Prop :=
  ∀ i : Input β, match q i.elems with
    | .ok a rest => ∃ i', p i = .ok (a, i') ∧ i'.elems = rest
    | .error e _ => p i = .error e

theorem matches_pure (a : α) : Matches (pure a : Reader β ε α) (pure a) :=
  fun i => ⟨i, rfl, rfl⟩

theorem matches_throw (e : ε) : Matches (throw e : Reader β ε α) (throw e) := fun _ => rfl

theorem Matches.bind {p : Reader β ε α} {q : EStateM ε (List β) α} {f : α → Reader β ε γ}
    {g : α → EStateM ε (List β) γ} (hp : Matches p q) (hf : ∀ a, Matches (f a) (g a)) :
    Matches (p >>= f) (q >>= g) := by
  intro i
  have hi := hp i
  change match EStateM.bind q g i.elems with
    | .ok a rest => ∃ i', (p i >>= fun r => f r.1 r.2) = .ok (a, i') ∧ i'.elems = rest
    | .error e _ => (p i >>= fun r => f r.1 r.2) = .error e
  unfold EStateM.bind
  cases hq : q i.elems with
  | ok a rest =>
    rw [hq] at hi
    obtain ⟨i', hp', rfl⟩ := hi
    rw [hp']
    exact hf a i'
  | error e rest =>
    rw [hq] at hi
    rw [show p i = .error e from hi]
    rfl

theorem Matches.check (c : Prop) [Decidable c] (e : ε) {δ : Type} {f : δ → Reader β ε α}
    {g : δ → EStateM ε (List β) α} {p : Reader β ε α} {q : EStateM ε (List β) α}
    (h : Matches p q) :
    Matches (if c then throw e >>= f else p) (if c then throw e >>= g else q) := by
  split
  · exact fun _ => rfl
  · exact h

theorem Matches.ite (c : Prop) [Decidable c] {p p' : Reader β ε α} {q q' : EStateM ε (List β) α}
    (h : Matches p q) (h' : Matches p' q') :
    Matches (if c then p else p') (if c then q else q') := by
  split
  · exact h
  · exact h'

theorem matches_readOne (eof : ε) :
    Matches (readOne eof : Reader β ε β) (InputStream.readOne eof) := by
  intro i
  cases hi : i.elems with
  | nil => exact readOne_raises eof i hi
  | cons b bs => exact readOne_yields eof b bs i hi

theorem matches_readFully (eof : ε) (n : Nat) :
    Matches (readFully eof n : Reader β ε (List β)) (InputStream.readFully eof n) := by
  intro i
  have helems := InputStream.readFully_elems eof n i.elems
  rw [overElems_list, elems_list] at helems
  rw [helems]
  by_cases hn : n ≤ i.elems.length
  · rw [if_pos hn]
    have hyields := readFully_yields eof (i.elems.drop n) (List.length_take_of_le hn)
    rw [List.take_append_drop] at hyields
    exact hyields i rfl
  · rw [if_neg hn]
    exact readFully_raises eof (Nat.lt_of_not_le hn) i rfl

/-- Passing over elements, by reading them. -/
theorem matches_skipFully (eof : ε) (n : Nat) {f : List β → Reader β ε γ}
    {g : Unit → EStateM ε (List β) γ} (h : ∀ xs, Matches (f xs) (g ())) :
    Matches (readFully eof n >>= f) (InputStream.skipFully eof n >>= g) := by
  intro i
  have hread := matches_readFully eof n i
  have hskip := InputStream.skipFully_elems eof n i.elems
  have helems := InputStream.readFully_elems eof n i.elems
  rw [overElems_list, elems_list] at hskip helems
  rw [helems] at hread
  change match EStateM.bind (InputStream.skipFully eof n) g i.elems with
    | .ok a rest => ∃ i', (readFully eof n i >>= fun r => f r.1 r.2) = .ok (a, i')
        ∧ i'.elems = rest
    | .error e _ => (readFully eof n i >>= fun r => f r.1 r.2) = .error e
  unfold EStateM.bind
  rw [hskip]
  by_cases hn : n ≤ i.elems.length
  · rw [if_pos hn] at hread ⊢
    obtain ⟨i', hi', hrest⟩ := hread
    rw [hi', ← hrest]
    exact h _ i'
  · rw [if_neg hn] at hread ⊢
    rw [show readFully eof n i = .error eof from hread]
    rfl

/-- **What a reader is known to do, the program does.** -/
theorem Matches.of_yields {p : Reader β ε α} {q : EStateM ε (List β) α} (h : Matches p q)
    {xs rest : List β} {a : α} (hp : Yields p xs a rest) : q xs = .ok a rest := by
  have hi := h (Input.whole xs)
  obtain ⟨i', hok, hrest⟩ := hp (Input.whole xs) (Input.elems_whole xs)
  rw [Input.elems_whole] at hi
  cases hq : q xs with
  | ok b rest' =>
    rw [hq] at hi
    obtain ⟨i'', hok', hrest'⟩ := hi
    rw [hok] at hok'
    cases hok'
    rw [← hrest, hrest']
  | error e rest' =>
    rw [hq] at hi
    rw [show p (Input.whole xs) = .error e from hi] at hok
    cases hok

end Readers

end WebrtcBridge.Lib
