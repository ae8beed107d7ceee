/-
# Complete and truncated input

A program that decodes returns when it has read some elements, whatever follows them, and on
anything less it fails with an exception that says that the input has ended.  `ReadsExactly` says
so, and like `ActsAs` it is closed under what programs are made of.  `ReadsExactly.cut` is its use:
if a program decodes a unit, it fails on every proper beginning of it.

The second part is the loop that decodes unit after unit up to a `null`.  `whileNext_units` says
what it gets, and `whileNext_unique` that it is over in one way only.
-/
import WebrtcBridge.Lib.InputStream

namespace WebrtcBridge.Lib.InputStream

variable {β ε σ α γ : Type} [InputStream σ β]

/-! ## 1. Programs that need what they read -/

section ReadsExactly

variable {isEof : ε → Prop}

omit [InputStream σ β]

/-- Where `p` returns, it has read `used`; more behind it does not matter, and less is not
enough. -/
def ReadsExactly (isEof : ε → Prop) (p : EStateM ε (List β) α) : Prop :=
  ∀ xs a rest, p xs = .ok a rest → ∃ used, xs = used ++ rest ∧ (∀ ys, p (used ++ ys) = .ok a ys)
    ∧ ∀ part more, used = part ++ more → more ≠ [] → ∃ e ys, isEof e ∧ p part = .error e ys

theorem readsExactly_pure (a : α) :
    ReadsExactly isEof (pure a : EStateM ε (List β) α) := by
  intro xs b rest h
  cases h
  refine ⟨[], rfl, fun ys => rfl, fun part more hused hmore => ?_⟩
  exact absurd (List.append_eq_nil_iff.mp hused.symm).2 hmore

theorem readsExactly_throw (e : ε) :
    ReadsExactly isEof (throw e : EStateM ε (List β) α) := by
  intro xs b rest h
  cases h

theorem ReadsExactly.ite (c : Prop) [Decidable c] {p q : EStateM ε (List β) α}
    (hp : ReadsExactly isEof p) (hq : ReadsExactly isEof q) :
    ReadsExactly isEof (if c then p else q) := by
  split
  · exact hp
  · exact hq

theorem ReadsExactly.check (c : Prop) [Decidable c] (e : ε) {δ : Type}
    {f : δ → EStateM ε (List β) α} {p : EStateM ε (List β) α} (h : ReadsExactly isEof p) :
    ReadsExactly isEof (if c then throw e >>= f else p) := by
  split
  · intro xs a rest heq
    cases heq
  · exact h

theorem ReadsExactly.bind {p : EStateM ε (List β) α} {f : α → EStateM ε (List β) γ}
    (hp : ReadsExactly isEof p) (hf : ∀ a, ReadsExactly isEof (f a)) :
    ReadsExactly isEof (p >>= f) := by
  intro xs c rest h
  obtain ⟨a, t, hpa, hfa⟩ := bind_eq_ok h
  obtain ⟨used, rfl, hread, hcut⟩ := hp xs a t hpa
  obtain ⟨used', rfl, hread', hcut'⟩ := hf a t c rest hfa
  refine ⟨used ++ used', by rw [List.append_assoc], fun ys => ?_, fun part more hused hmore => ?_⟩
  · rw [List.append_assoc, bind_of_ok (hread _), hread']
  -- the cut is in what `f a` reads, or before that
  rcases List.append_eq_append_iff.mp hused with ⟨bs, rfl, rfl⟩ | ⟨bs, rfl, rfl⟩
  · obtain ⟨e, ys, he, herror⟩ := hcut' bs more rfl hmore
    exact ⟨e, ys, he, by rw [bind_of_ok (hread bs), herror]⟩
  · cases bs with
    | nil =>
      obtain ⟨e, ys, he, herror⟩ := hcut' [] used' rfl hmore
      rw [List.append_nil] at hread
      exact ⟨e, ys, he, by rw [← List.append_nil part, bind_of_ok (hread []), herror]⟩
    | cons b bs =>
      obtain ⟨e, ys, he, herror⟩ := hcut part (b :: bs) rfl (List.cons_ne_nil b bs)
      exact ⟨e, ys, he, bind_of_error herror⟩

theorem readsExactly_readFully {eof : ε} (heof : isEof eof) (n : Nat) :
    ReadsExactly isEof (readFully eof n : EStateM ε (List β) (List β)) := by
  intro xs a rest h
  obtain ⟨happ, hlength⟩ := readFully_ok h
  refine ⟨a, happ, fun ys => readFully_append eof ys hlength, fun part more hused hmore => ?_⟩
  have hlt : part.length < n := by
    have hpos := List.length_pos_iff.mpr hmore
    rw [hused, List.length_append] at hlength
    omega
  exact ⟨eof, [], heof, readFully_short eof hlt⟩

theorem readsExactly_skipFully {eof : ε} (heof : isEof eof) (n : Nat) :
    ReadsExactly isEof (skipFully eof n : EStateM ε (List β) Unit) := by
  intro xs a rest h
  have helems := skipFully_elems eof n xs
  rw [overElems_list, elems_list, h] at helems
  split at helems
  · next hn =>
    injection helems with _ hrest
    subst hrest
    have hlength : (xs.take n).length = n := List.length_take_of_le hn
    refine ⟨xs.take n, (List.take_append_drop n xs).symm,
      fun ys => skipFully_append eof ys hlength, fun part more hused hmore => ?_⟩
    have hlt : part.length < n := by
      have hpos := List.length_pos_iff.mpr hmore
      rw [hused, List.length_append] at hlength
      omega
    exact ⟨eof, [], heof, skipFully_short eof hlt⟩
  · cases helems

theorem readsExactly_readOne {eof : ε} (heof : isEof eof) :
    ReadsExactly isEof (readOne eof : EStateM ε (List β) β) := by
  intro xs a rest h
  cases xs with
  | nil => cases h
  | cons b bs =>
    cases h
    refine ⟨[a], rfl, fun ys => rfl, fun part more hused hmore => ?_⟩
    rcases List.append_eq_cons_iff.mp hused.symm with ⟨rfl, -⟩ | ⟨part', -, hnil⟩
    · exact ⟨eof, [], heof, rfl⟩
    · exact absurd (List.append_eq_nil_iff.mp hnil.symm).2 hmore

/-- **What is cut off is missed.** -/
theorem ReadsExactly.cut {p : EStateM ε (List β) α} (h : ReadsExactly isEof p)
    {part more rest : List β} {a : α} (hread : p (part ++ more ++ rest) = .ok a rest)
    (hmore : more ≠ []) : ∃ e ys, isEof e ∧ p part = .error e ys := by
  obtain ⟨used, hused, -, hcut⟩ := h _ a rest hread
  exact hcut part more (List.append_cancel_right hused).symm hmore

end ReadsExactly

/-! ## 2. `while ((x = next()) != null)` -/

/-- How far the loop has come. -/
inductive LoopEnd (ε : Type)
  | ended
  | threw (e : ε)
  | running
  deriving DecidableEq, Repr

omit [InputStream σ β] in
/-- The first turns of the loop: what they get, and how it stands then. -/
def whileNext (next : EStateM ε σ (Option α)) : Nat → σ → List α × LoopEnd ε
  | 0, _ => ([], .running)
  | turns + 1, s =>
    match next s with
    | .ok none _ => ([], .ended)
    | .ok (some a) s' => (a :: (whileNext next turns s').1, (whileNext next turns s').2)
    | .error e _ => ([], .threw e)

theorem whileNext_eq {next : EStateM ε σ (Option α)} {next' : EStateM ε (List β) (Option α)}
    (h : ActsAs next next') (turns : Nat) (s : σ) :
    whileNext next turns s = whileNext next' turns (elems s) := by
  induction turns generalizing s with
  | zero => rfl
  | succ turns ih =>
    rw [whileNext, whileNext, ← h s]
    cases next s with
    | ok a s' =>
      cases a with
      | none => rfl
      | some a => simp only [overElems_ok, ih]
    | error e s' => rfl

section WhileNext

omit [InputStream σ β]

variable {next : EStateM ε σ (Option α)}

theorem whileNext_add {turns : Nat} {s : σ} (h : (whileNext next turns s).2 ≠ .running)
    (more : Nat) :
    whileNext next (turns + more) s = whileNext next turns s := by
  induction turns generalizing s with
  | zero => exact absurd rfl h
  | succ turns ih =>
    rw [Nat.add_right_comm, whileNext, whileNext]
    rw [whileNext] at h
    cases hnext : next s with
    | ok a s' =>
      rw [hnext] at h
      cases a with
      | none => rfl
      | some a => simp only [ih h]
    | error e s' => rfl

theorem whileNext_unique {turns turns' : Nat} {s : σ} {outs outs' : List α}
    {ending ending' : LoopEnd ε} (h : whileNext next turns s = (outs, ending))
    (h' : whileNext next turns' s = (outs', ending')) (hover : ending ≠ .running)
    (hover' : ending' ≠ .running) : outs = outs' ∧ ending = ending' := by
  have hmore := whileNext_add (show (whileNext next turns s).2 ≠ .running by rwa [h]) turns'
  have hmore' := whileNext_add (show (whileNext next turns' s).2 ≠ .running by rwa [h']) turns
  rw [Nat.add_comm, hmore', h, h'] at hmore
  exact Prod.mk.inj hmore.symm

/-- What is read unit by unit is what the loop gets first. -/
theorem whileNext_units {υ : Type} (next : EStateM ε (List β) (Option α)) (bytes : υ → List β)
    (read : υ → α) (units : List υ) (rest : List β)
    (h : ∀ u ∈ units, ∀ ys, next (bytes u ++ ys) = .ok (some (read u)) ys) (turns : Nat) :
    whileNext next (units.length + turns) (units.flatMap bytes ++ rest)
      = (units.map read ++ (whileNext next turns rest).1, (whileNext next turns rest).2) := by
  induction units with
  | nil => simp
  | cons u us ih =>
    have hu := h u List.mem_cons_self (us.flatMap bytes ++ rest)
    have hus := ih fun v hv => h v (List.mem_cons_of_mem u hv)
    rw [List.length_cons, Nat.add_right_comm, List.flatMap_cons, List.append_assoc, whileNext, hu]
    simp only [hus, List.map_cons, List.cons_append]

end WhileNext

end WebrtcBridge.Lib.InputStream
