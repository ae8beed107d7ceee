/-
# What a reading program may return and throw

`Meets E Q p` says that on every stream the program `p` either returns a value of the kind `Q` or
throws an exception of the kind `E`.  It is a contract without a precondition, and there is one rule
for each construct that programs are made of: sequence, branch, check and the ways to read.
In a sequence the second part is only met with values that the first can return.

Two programs that differ in what they CHECK are compared by `Tracks F R p q`: both read the same,
and what `q` returns and throws stands in the relations `R` and `F` to what `p` does.  If `q` has
checks that `p` has not, this is how one says that they never fail.

At the level of objects that are built and called, `Orderly E Q` says of all calls what `Meets` says
of one program.  Nothing here knows any file format.
-/
import WebrtcBridge.Lib.InputStream

namespace WebrtcBridge.Lib.InputStream

variable {σ β ε ε' α γ : Type}

/-! ## 1. Contracts -/

/-- What a result is allowed to be. -/
def Allowed (E : ε → Prop) (Q : α → Prop) : EStateM.Result ε σ α → Prop
  | .ok a _ => Q a
  | .error e _ => E e

/-- **`p` returns values of the kind `Q` and throws exceptions of the kind `E`.** -/
def Meets (E : ε → Prop) (Q : α → Prop) (p : EStateM ε σ α) : Prop := ∀ s, Allowed E Q (p s)

/-- Anything may be returned. -/
def Anything : α → Prop := fun _ => True

section Contracts

variable {E : ε → Prop} {Q : α → Prop}

theorem Meets.of_ok {p : EStateM ε σ α} (h : Meets E Q p) {s s' : σ} {a : α} (hs : p s = .ok a s') :
    Q a := by
  have hallowed := h s
  rwa [hs] at hallowed

theorem Meets.of_error {p : EStateM ε σ α} (h : Meets E Q p) {s s' : σ} {e : ε}
    (hs : p s = .error e s') : E e := by
  have hallowed := h s
  rwa [hs] at hallowed

theorem meets_pure {a : α} (h : Q a) : Meets E Q (pure a : EStateM ε σ α) := fun _ => h

theorem meets_throw {e : ε} (h : E e) : Meets E Q (throw e : EStateM ε σ α) := fun _ => h

theorem Meets.mono {E' : ε → Prop} {Q' : α → Prop} {p : EStateM ε σ α} (h : Meets E Q p)
    (hE : ∀ e, E e → E' e) (hQ : ∀ a, Q a → Q' a) : Meets E' Q' p := by
  intro s
  have hs := h s
  cases hp : p s with
  | ok a s' =>
    rw [hp] at hs
    exact hQ a hs
  | error e s' =>
    rw [hp] at hs
    exact hE e hs

theorem Meets.bind {R : γ → Prop} {p : EStateM ε σ α} {f : α → EStateM ε σ γ} (hp : Meets E Q p)
    (hf : ∀ a, Q a → Meets E R (f a)) : Meets E R (p >>= f) := by
  intro s
  have hs := hp s
  cases h : p s with
  | ok a s' =>
    rw [h] at hs
    rw [bind_of_ok h]
    exact hf a hs s'
  | error e s' =>
    rw [h] at hs
    rw [bind_of_error h]
    exact hs

theorem Meets.ite (c : Prop) [Decidable c] {p q : EStateM ε σ α} (hp : c → Meets E Q p)
    (hq : ¬ c → Meets E Q q) : Meets E Q (if c then p else q) := by
  split
  · next hc => exact hp hc
  · next hc => exact hq hc

/-- A check that throws, and what comes behind it. -/
theorem Meets.check (c : Prop) [Decidable c] {e : ε} {δ : Type} {f : δ → EStateM ε σ α}
    {p : EStateM ε σ α} (he : E e) (hp : ¬ c → Meets E Q p) :
    Meets E Q (if c then throw e >>= f else p) :=
  Meets.ite c (fun _ => fun _ => he) hp

variable [InputStream σ β]

theorem meets_readByte : Meets E Anything (readByte : EStateM ε σ (Option β)) := fun _ => trivial

theorem Meets.readElse {p : EStateM ε σ α} {f : β → EStateM ε σ α} (hp : Meets E Q p)
    (hf : ∀ b, Meets E Q (f b)) : Meets E Q (InputStream.readElse p f) := by
  refine meets_readByte.bind ?_
  intro b _
  cases b with
  | none => exact hp
  | some b => exact hf b

theorem meets_readOne {eof : ε} (h : E eof) :
    Meets E Anything (readOne eof : EStateM ε σ β) :=
  Meets.readElse (meets_throw h) fun _ => meets_pure trivial

theorem meets_readFully {eof : ε} (h : E eof) (n : Nat) :
    Meets E (fun xs => xs.length = n) (readFully eof n : EStateM ε σ (List β)) := by
  intro s
  have hs := readFully_elems eof n s
  cases hread : readFully eof n s with
  | ok xs s' => exact (readFully_ok hread).2
  | error e s' =>
    rw [hread, overElems_error] at hs
    split at hs
    · cases hs
    · injection hs with he _
      rw [he]
      exact h

theorem meets_skipFully {eof : ε} (h : E eof) (n : Nat) :
    Meets E Anything (skipFully eof n : EStateM ε σ Unit) := by
  intro s
  have hs := skipFully_elems eof n s
  cases hskip : skipFully eof n s with
  | ok u s' => trivial
  | error e s' =>
    rw [hskip, overElems_error] at hs
    split at hs
    · cases hs
    · injection hs with he _
      rw [he]
      exact h

end Contracts

/-! ## 2. A program beside another -/

/-- Two results that belong together, with the same stream left. -/
def Related {α' : Type} (F : ε → ε' → Prop) (R : α → α' → Prop) :
    EStateM.Result ε σ α → EStateM.Result ε' σ α' → Prop
  | .ok a s, .ok b s' => R a b ∧ s' = s
  | .error e s, .error e' s' => F e e' ∧ s' = s
  | _, _ => False

/-- **`q` follows `p`**: it reads the same, returns what `R` allows beside what `p` returns, and
throws what `F` allows beside what `p` throws. -/
def Tracks {α' : Type} (F : ε → ε' → Prop) (R : α → α' → Prop) (p : EStateM ε σ α)
    (q : EStateM ε' σ α') : Prop :=
  ∀ s, Related F R (p s) (q s)

section Tracking

variable {α' γ' : Type} {F : ε → ε' → Prop} {R : α → α' → Prop}

theorem tracks_pure {a : α} {b : α'} (h : R a b) :
    Tracks F R (pure a : EStateM ε σ α) (pure b : EStateM ε' σ α') := fun _ => ⟨h, rfl⟩

theorem tracks_throw {e : ε} {e' : ε'} (h : F e e') :
    Tracks F R (throw e : EStateM ε σ α) (throw e' : EStateM ε' σ α') := fun _ => ⟨h, rfl⟩

/-- What `p` returns, `q` has something beside. -/
theorem Tracks.of_ok {p : EStateM ε σ α} {q : EStateM ε' σ α'} (h : Tracks F R p q)
    {s t : σ} {a : α} (hp : p s = .ok a t) : ∃ b, q s = .ok b t ∧ R a b := by
  have hs := h s
  rw [hp] at hs
  cases hq : q s with
  | ok b t' =>
    rw [hq] at hs
    obtain ⟨hR, rfl⟩ := hs
    exact ⟨b, rfl, hR⟩
  | error e' t' =>
    rw [hq] at hs
    cases hs

theorem Tracks.of_error {p : EStateM ε σ α} {q : EStateM ε' σ α'} (h : Tracks F R p q) {s t : σ}
    {e : ε} (hp : p s = .error e t) : ∃ e', q s = .error e' t ∧ F e e' := by
  have hs := h s
  rw [hp] at hs
  cases hq : q s with
  | ok b t' =>
    rw [hq] at hs
    cases hs
  | error e' t' =>
    rw [hq] at hs
    obtain ⟨hF, rfl⟩ := hs
    exact ⟨e', rfl, hF⟩

/-- And nothing else. -/
theorem Tracks.of_ok_right {p : EStateM ε σ α} {q : EStateM ε' σ α'} (h : Tracks F R p q) {s t : σ}
    {b : α'} (hq : q s = .ok b t) : ∃ a, p s = .ok a t ∧ R a b := by
  cases hp : p s with
  | ok a t' =>
    obtain ⟨b', hq', hR⟩ := h.of_ok hp
    obtain ⟨rfl, rfl⟩ := EStateM.Result.ok.inj (hq.symm.trans hq')
    exact ⟨a, rfl, hR⟩
  | error e t' =>
    obtain ⟨e', hq', -⟩ := h.of_error hp
    cases hq.symm.trans hq'

/-- **What follows a program can return and throw.** -/
theorem Tracks.meets {p : EStateM ε σ α} {q : EStateM ε' σ α'} (h : Tracks F R p q) :
    Meets (fun e' => ∃ e, F e e') (fun b => ∃ a, R a b) q := by
  intro s
  cases hp : p s with
  | ok a t =>
    obtain ⟨b, hq, hR⟩ := h.of_ok hp
    rw [hq]
    exact ⟨a, hR⟩
  | error e t =>
    obtain ⟨e', hq, hF⟩ := h.of_error hp
    rw [hq]
    exact ⟨e, hF⟩

theorem Tracks.bind {S : γ → γ' → Prop} {p : EStateM ε σ α} {q : EStateM ε' σ α'}
    {g : α → EStateM ε σ γ} {g' : α' → EStateM ε' σ γ'} (hp : Tracks F R p q)
    (hg : ∀ a b, R a b → Tracks F S (g a) (g' b)) : Tracks F S (p >>= g) (q >>= g') := by
  intro s
  cases h : p s with
  | ok a t =>
    obtain ⟨b, hq, hR⟩ := hp.of_ok h
    rw [bind_of_ok h, bind_of_ok hq]
    exact hg a b hR t
  | error e t =>
    obtain ⟨e', hq, hF⟩ := hp.of_error h
    rw [bind_of_error h, bind_of_error hq]
    exact ⟨hF, rfl⟩

/-- A check that `q` makes and that cannot fail. -/
theorem Tracks.bind_pure {p : EStateM ε σ α} {q : EStateM ε' σ γ} {b : γ}
    {g' : γ → EStateM ε' σ α'} (hq : q = pure b) (h : Tracks F R p (g' b)) :
    Tracks F R p (q >>= g') := by
  rw [hq, LawfulMonad.pure_bind]
  exact h

theorem Tracks.ite (c : Prop) [Decidable c] {p p' : EStateM ε σ α} {q q' : EStateM ε' σ α'}
    (h : c → Tracks F R p q) (h' : ¬ c → Tracks F R p' q') :
    Tracks F R (if c then p else p') (if c then q else q') := by
  split
  · next hc => exact h hc
  · next hc => exact h' hc

theorem Tracks.check (c : Prop) [Decidable c] {e : ε} {e' : ε'} {δ : Type} {g : δ → EStateM ε σ α}
    {g' : δ → EStateM ε' σ α'} {p : EStateM ε σ α} {q : EStateM ε' σ α'} (he : F e e')
    (h : ¬ c → Tracks F R p q) :
    Tracks F R (if c then throw e >>= g else p) (if c then throw e' >>= g' else q) :=
  Tracks.ite c (fun _ => fun _ => ⟨he, rfl⟩) h

/-- Turns of two loops that go on or end together. -/
def TurnsOr (R : α → α' → Prop) : γ ⊕ α → γ ⊕ α' → Prop
  | .inl c, .inl c' => c' = c
  | .inr a, .inr b => R a b
  | _, _ => False

theorem Tracks.loop {body : γ → EStateM ε σ (γ ⊕ α)} {body' : γ → EStateM ε' σ (γ ⊕ α')}
    {m m' : γ → σ → Nat} {hm : ∀ c s c' s', body c s = .ok (.inl c') s' → m c' s' < m c s}
    {hm' : ∀ c s c' s', body' c s = .ok (.inl c') s' → m' c' s' < m' c s}
    (h : ∀ c, Tracks F (TurnsOr R) (body c) (body' c)) (c : γ) :
    Tracks F R (InputStream.loop body m hm c) (InputStream.loop body' m' hm' c) := by
  intro s
  induction hn : m c s using Nat.strongRecOn generalizing c s with
  | ind n ih =>
    cases hs : body c s with
    | ok r t =>
      obtain ⟨r', hs', hR⟩ := (h c).of_ok hs
      cases r with
      | inl c1 =>
        cases r' with
        | inl c2 =>
          obtain rfl : c2 = c1 := hR
          have hlt : m c2 t < n := hn ▸ hm c s c2 t hs
          rw [loop_next hs, loop_next hs']
          exact ih (m c2 t) hlt c2 t rfl
        | inr b => cases hR
      | inr a =>
        cases r' with
        | inl c2 => cases hR
        | inr b =>
          rw [loop_break hs, loop_break hs']
          exact ⟨hR, rfl⟩
    | error e t =>
      obtain ⟨e', hs', hF⟩ := (h c).of_error hs
      rw [loop_error hs, loop_error hs']
      exact ⟨hF, rfl⟩

variable [InputStream σ β]

/-- What follows a program takes as much from the stream. -/
theorem Tracks.takes {P : α → Prop} {P' : α' → Prop} {p : EStateM ε σ α} {q : EStateM ε' σ α'}
    (h : Tracks F R p q) (hP : ∀ a b, R a b → P' b → P a) (hp : Takes P p) : Takes P' q := by
  intro s b t hq hb
  obtain ⟨a, hpa, hR⟩ := h.of_ok_right hq
  exact hp s a t hpa (hP a b hR hb)

theorem tracks_readByte :
    Tracks F (fun b b' => b' = b) (readByte : EStateM ε σ (Option β)) (readByte : EStateM ε' σ _) :=
  fun _ => ⟨rfl, rfl⟩

theorem Tracks.readElse {p : EStateM ε σ α} {q : EStateM ε' σ α'} {g : β → EStateM ε σ α}
    {g' : β → EStateM ε' σ α'} (hp : Tracks F R p q) (hg : ∀ b, Tracks F R (g b) (g' b)) :
    Tracks F R (InputStream.readElse p g) (InputStream.readElse q g') := by
  refine tracks_readByte.bind ?_
  intro b b' hb
  obtain rfl : b' = b := hb
  cases b' with
  | none => exact hp
  | some b => exact hg b

theorem tracks_readOne {eof : ε} {eof' : ε'} (h : F eof eof') :
    Tracks F (fun b b' => b' = b) (readOne eof : EStateM ε σ β) (readOne eof') :=
  Tracks.readElse (tracks_throw h) fun _ => tracks_pure rfl

theorem tracks_readFully {eof : ε} {eof' : ε'} (h : F eof eof') (n : Nat) :
    Tracks F (fun xs ys => ys = xs ∧ xs.length = n) (readFully eof n : EStateM ε σ (List β))
      (readFully eof' n) := by
  have hsame : Tracks F (fun xs ys => ys = xs) (readFully eof n : EStateM ε σ (List β))
      (readFully eof' n) := by
    refine Tracks.loop ?_ _
    intro buf s
    unfold readTurn
    split
    · split
      · exact ⟨h, rfl⟩
      · exact ⟨rfl, rfl⟩
    · exact ⟨rfl, rfl⟩
  intro s
  cases hs : readFully eof n s with
  | ok xs t =>
    obtain ⟨ys, hs', rfl⟩ := hsame.of_ok hs
    rw [hs']
    exact ⟨⟨rfl, (readFully_ok hs).2⟩, rfl⟩
  | error e t =>
    obtain ⟨e', hs', hF⟩ := hsame.of_error hs
    rw [hs']
    exact ⟨hF, rfl⟩

end Tracking

/-! ## 3. Objects and their calls -/

/-- What a call may answer. -/
def AllowedAnswer (E : ε → Prop) (Q : α → Prop) : Except ε α → Prop
  | .ok a => Q a
  | .error e => E e

/-- **What an object may do**: its construction may throw exceptions of the kind `E`, and so may
each of the calls, which return values of the kind `Q` otherwise. -/
def Orderly {ρ : Type} (E : ε → Prop) (Q : α → Prop) (calls : Nat) :
    Except ε (ρ × List (Except ε α)) → Prop
  | .error e => E e
  | .ok (_, results) => results.length = calls ∧ ∀ x ∈ results, AllowedAnswer E Q x

section Calls

variable {ρ κ : Type} {E : ε → Prop} {Q : α → Prop}

theorem answers_length (call : κ → ρ → EStateM ε σ (α × ρ)) (calls : List κ) (r : ρ) (s : σ) :
    (answers call calls r s).length = calls.length := by
  induction calls generalizing r s with
  | nil => rfl
  | cons k ks ih =>
    rw [answers]
    split
    · rw [List.length_cons, List.length_cons, ih]
    · rw [List.length_cons, List.length_cons, ih]

/-- **All calls**, by induction on them, if every one keeps the object as `I` says. -/
theorem answers_meet {call : κ → ρ → EStateM ε σ (α × ρ)} (K : κ → Prop) (I : ρ → Prop)
    (h : ∀ k r, K k → I r → Meets E (fun v => Q v.1 ∧ I v.2) (call k r)) (calls : List κ)
    (hK : ∀ k ∈ calls, K k) (r : ρ) (hr : I r) (s : σ) :
    ∀ x ∈ answers call calls r s, AllowedAnswer E Q x := by
  induction calls generalizing r s with
  | nil =>
    intro x hx
    cases hx
  | cons k ks ih =>
    have hk := h k r (hK k List.mem_cons_self) hr
    have hks := ih fun k' hk' => hK k' (List.mem_cons_of_mem k hk')
    intro x hx
    rw [answers] at hx
    cases hcall : call k r s with
    | ok v s' =>
      obtain ⟨a, r'⟩ := v
      obtain ⟨hQ, hI⟩ := hk.of_ok hcall
      rw [hcall] at hx
      rcases List.mem_cons.mp hx with rfl | hx
      · exact hQ
      · exact hks r' hI s' x hx
    | error e s' =>
      rw [hcall] at hx
      rcases List.mem_cons.mp hx with rfl | hx
      · exact hk.of_error hcall
      · exact hks r hr s' x hx

/-- **An object whose parts meet their contracts is orderly.** -/
theorem session_orderly {construct : EStateM ε σ ρ} {call : κ → ρ → EStateM ε σ (α × ρ)}
    (K : κ → Prop) (I : ρ → Prop) (hconstruct : Meets E I construct)
    (hcall : ∀ k r, K k → I r → Meets E (fun v => Q v.1 ∧ I v.2) (call k r)) (calls : List κ)
    (hK : ∀ k ∈ calls, K k) (s : σ) :
    Orderly E Q calls.length (session construct call calls s) := by
  unfold session
  cases h : construct s with
  | ok r s' =>
    constructor
    · exact answers_length call calls r s'
    · exact answers_meet K I hcall calls hK r (hconstruct.of_ok h) s'
  | error e s' => exact hconstruct.of_error h

end Calls

end WebrtcBridge.Lib.InputStream
