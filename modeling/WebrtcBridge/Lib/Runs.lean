/-
# Runs of a system that takes one action at a time

Every concurrent part of the bridge is modelled the same way: a state, a type of ACTIONS, and
a TOTAL function `step` that says what an action does.  An action that is not enabled leaves
the state alone, so a SCHEDULE is just a list of actions and "for every interleaving" is "for
every list".  Nothing here mentions the bridge.

Four notions are all the later files need:

* `run step s as`, the state after the schedule `as`;
* `Always P step s as`, `P` in every state the schedule passes through, the last included;
* `Heeds ok step s as`, every step of the schedule is taken in a state where `ok` allows it;
* `Preceded needs log`, every entry of a log comes after what it needs.

The rule that ties them together is `always_of_heeds`: an invariant that every ALLOWED step
keeps holds along every schedule that heeds the condition.  The converse direction, used for
exact conditions, is `heeds_of_always`: if a forbidden step always leaves `P`, then a schedule
along which `P` never fails contains no forbidden step.  For "finitely many further steps" there
is a progress rule over a measure, `fin_of_turns`, and two systems on the same schedule are compared
by `run_lockstep`.
-/
import Mathlib.Data.List.Basic
import Mathlib.Logic.Function.Basic

namespace WebrtcBridge.Lib

variable {σ α : Type}

/-! ## 1. Running a schedule -/

/-- The state after taking the actions of `as` in order. -/
def run (step : σ → α → σ) (s : σ) (as : List α) : σ := as.foldl step s

@[simp] theorem run_nil (step : σ → α → σ) (s : σ) : run step s [] = s := rfl

@[simp] theorem run_cons (step : σ → α → σ) (s : σ) (a : α) (as : List α) :
    run step s (a :: as) = run step (step s a) as := rfl

@[simp] theorem run_append (step : σ → α → σ) (s : σ) (as bs : List α) :
    run step s (as ++ bs) = run step (run step s as) bs := by
  simp [run]

/-- **The invariant rule.**  What every step keeps, every run keeps. -/
theorem run_inv {step : σ → α → σ} {I : σ → Prop} (hstep : ∀ s a, I s → I (step s a)) :
    ∀ (as : List α) (s : σ), I s → I (run step s as)
  | [], _, h => h
  | a :: as, s, h => run_inv hstep as (step s a) (hstep s a h)

/-- The same for schedules made of actions that `ok` allows. -/
theorem run_inv_on {step : σ → α → σ} (I : σ → Prop) (ok : α → Prop)
    (hstep : ∀ s a, ok a → I s → I (step s a)) :
    ∀ (as : List α) (s : σ), (∀ a ∈ as, ok a) → I s → I (run step s as)
  | [], _, _, h => h
  | a :: as, s, hok, h =>
    run_inv_on I ok hstep as (step s a) (fun b hb => hok b (List.mem_cons_of_mem a hb))
      (hstep s a (hok a List.mem_cons_self) h)

/-- The same for an invariant that also looks at the actions taken so far. -/
theorem run_inv_trace {step : σ → α → σ} {I : List α → σ → Prop} (ok : α → Prop)
    (hstep : ∀ pre s a, ok a → I pre s → I (pre ++ [a]) (step s a)) :
    ∀ (as pre : List α) (s : σ), (∀ a ∈ as, ok a) → I pre s → I (pre ++ as) (run step s as)
  | [], pre, _, _, h => by rwa [List.append_nil]
  | a :: as, pre, s, hok, h => by
    have hnext := hstep pre s a (hok a List.mem_cons_self) h
    have hrest := run_inv_trace ok hstep as (pre ++ [a]) (step s a)
      (fun b hb => hok b (List.mem_cons_of_mem a hb)) hnext
    rwa [List.append_assoc] at hrest

/-! ## 2. Along a run -/

/-- `P` holds in every state the schedule passes through, the first and the last included. -/
def Always (P : σ → Prop) (step : σ → α → σ) : σ → List α → Prop
  | s, [] => P s
  | s, a :: as => P s ∧ Always P step (step s a) as

/-- Every action of the schedule is taken in a state in which `ok` allows it. -/
def Heeds (ok : σ → α → Prop) (step : σ → α → σ) : σ → List α → Prop
  | _, [] => True
  | s, a :: as => ok s a ∧ Heeds ok step (step s a) as

instance decidableHeeds {ok : σ → α → Prop} [∀ s a, Decidable (ok s a)] (step : σ → α → σ) :
    ∀ (s : σ) (as : List α), Decidable (Heeds ok step s as)
  | _, [] => .isTrue trivial
  | s, a :: as =>
    have : Decidable (Heeds ok step (step s a) as) := decidableHeeds step (step s a) as
    inferInstanceAs (Decidable (ok s a ∧ Heeds ok step (step s a) as))

section Along

variable {P : σ → Prop} {ok : σ → α → Prop} {step : σ → α → σ}

theorem Always.last : ∀ (as : List α) (s : σ), Always P step s as → P (run step s as)
  | [], _, h => h
  | a :: as, s, h => Always.last as (step s a) h.2

theorem Always.head : ∀ {as : List α} {s : σ}, Always P step s as → P s
  | [], _, h => h
  | _ :: _, _, h => h.1

theorem Always.mono {Q : σ → Prop} (hPQ : ∀ s, P s → Q s) :
    ∀ {as : List α} {s : σ}, Always P step s as → Always Q step s as
  | [], _, h => hPQ _ h
  | _ :: _, _, h => ⟨hPQ _ h.1, Always.mono hPQ h.2⟩

/-- **The conditional invariant rule.**  An invariant kept by every allowed step holds in every
state of every schedule that takes only allowed steps. -/
theorem always_of_heeds {I : σ → Prop} (hstep : ∀ s a, ok s a → I s → I (step s a)) :
    ∀ (as : List α) (s : σ), I s → Heeds ok step s as → Always I step s as
  | [], _, h, _ => h
  | a :: as, s, h, ho => ⟨h, always_of_heeds hstep as (step s a) (hstep s a ho.1 h) ho.2⟩

/-- **The converse.**  If a forbidden step taken from a state with `I` always leaves `P`, and
allowed steps keep `I`, then a schedule along which `P` never fails takes only allowed steps. -/
theorem heeds_of_always {I : σ → Prop} (hstep : ∀ s a, ok s a → I s → I (step s a))
    (hbad : ∀ s a, I s → ¬ ok s a → ¬ P (step s a)) :
    ∀ (as : List α) (s : σ), I s → Always P step s as → Heeds ok step s as
  | [], _, _, _ => trivial
  | a :: as, s, hI, h => by
    have hok : ok s a := by
      by_contra hn
      exact hbad s a hI hn h.2.head
    exact ⟨hok, heeds_of_always hstep hbad as (step s a) (hstep s a hok hI) h.2⟩

/-- **The converse, from the last state alone**: if a forbidden step leads to `B` and `B` stays,
then a schedule that does not end with `B` takes only allowed steps. -/
theorem heeds_of_last {B : σ → Prop} (hkeep : ∀ s a, B s → B (step s a))
    (hbad : ∀ s a, ¬ ok s a → B (step s a)) :
    ∀ (as : List α) (s : σ), ¬ B (run step s as) → Heeds ok step s as
  | [], _, _ => trivial
  | a :: as, s, h => by
    have hok : ok s a := by
      by_contra hn
      exact h (run_inv hkeep as (step s a) (hbad s a hn))
    exact ⟨hok, heeds_of_last hkeep hbad as (step s a) h⟩

/-- An invariant under two conditions: one on the actions, one on the actions where they are
taken. -/
theorem run_inv_heeds {I : σ → Prop} (good : α → Prop)
    (hstep : ∀ s a, good a → ok s a → I s → I (step s a)) :
    ∀ (as : List α) (s : σ), (∀ a ∈ as, good a) → Heeds ok step s as → I s → I (run step s as)
  | [], _, _, _, h => h
  | a :: as, s, hgood, hok, h =>
    run_inv_heeds good hstep as (step s a) (fun b hb => hgood b (List.mem_cons_of_mem a hb)) hok.2
      (hstep s a (hgood a List.mem_cons_self) hok.1 h)

/-- What allows everything is heeded by every schedule. -/
theorem heeds_of_forall (h : ∀ s a, ok s a) : ∀ (as : List α) (s : σ), Heeds ok step s as
  | [], _ => trivial
  | a :: as, s => ⟨h s a, heeds_of_forall h as (step s a)⟩

theorem heeds_append : ∀ (as bs : List α) (s : σ),
    Heeds ok step s (as ++ bs) ↔ Heeds ok step s as ∧ Heeds ok step (run step s as) bs
  | [], bs, s => by simp [Heeds]
  | a :: as, bs, s => by
    simp only [List.cons_append, Heeds, run_cons, heeds_append as bs, and_assoc]

/-- **Two systems on one schedule** stay related if every allowed action, taken by both, keeps them
so. -/
theorem run_lockstep {σ' : Type} {step' : σ' → α → σ'} {R : σ → σ' → Prop} (good : α → Prop)
    (hstep : ∀ s s' a, good a → ok s a → R s s' → R (step s a) (step' s' a)) :
    ∀ (as : List α) (s : σ) (s' : σ'), (∀ a ∈ as, good a) → Heeds ok step s as → R s s' →
      R (run step s as) (run step' s' as)
  | [], _, _, _, _, h => h
  | a :: as, s, s', hgood, hok, h =>
    run_lockstep good hstep as (step s a) (step' s' a)
      (fun b hb => hgood b (List.mem_cons_of_mem a hb)) hok.2
      (hstep s s' a (hgood a List.mem_cons_self) hok.1 h)

/-- **The log rule.**  When every step appends to a log, and under the invariant `I` what a step
appends is good exactly if the step is allowed, then the whole log of a run is good exactly if the
run takes only allowed steps (and the log was good to begin with). -/
theorem log_good_iff {β : Type} (step : σ → α → σ) (log : σ → List β) (new : σ → α → List β)
    (good : β → Prop)
    (I : σ → Prop) (ok : σ → α → Prop) (hlog : ∀ s a, log (step s a) = log s ++ new s a)
    (hinv : ∀ s a, I s → I (step s a))
    (hnew : ∀ s a, I s → ((∀ x ∈ new s a, good x) ↔ ok s a)) :
    ∀ (as : List α) (s : σ), I s →
      ((∀ x ∈ log (run step s as), good x) ↔ (∀ x ∈ log s, good x) ∧ Heeds ok step s as)
  | [], s, _ => by simp [Heeds]
  | a :: as, s, hI => by
    rw [run_cons, log_good_iff step log new good I ok hlog hinv hnew as (step s a) (hinv s a hI),
      hlog, Heeds, ← hnew s a hI]
    simp only [List.mem_append, or_imp, forall_and, and_assoc]

/-- **The moment something comes about.**  What does not hold at first and holds at the end came
about by one particular step. -/
theorem exists_moment (step : σ → α → σ) (Q : σ → Prop) :
    ∀ (as : List α) (s : σ), ¬ Q s → Q (run step s as) →
      ∃ cs a ds, as = cs ++ a :: ds ∧ ¬ Q (run step s cs) ∧ Q (step (run step s cs) a)
  | [], _, hs, h => absurd h hs
  | a :: as, s, hs, h => by
    by_cases ha : Q (step s a)
    · exact ⟨[], a, as, rfl, hs, ha⟩
    · obtain ⟨cs, b, ds, heq, h1, h2⟩ := exists_moment step Q as (step s a) ha h
      exact ⟨a :: cs, b, ds, by rw [heq]; rfl, h1, h2⟩

/-! ## 3. Getting there -/

/-- How many actions of a schedule are a `turn`. -/
def turns (turn : α → Bool) (as : List α) : Nat := as.countP turn

theorem turns_replicate {turn : α → Bool} {a : α} (h : turn a = true) (n : Nat) :
    turns turn (List.replicate n a) = n := by
  simp [turns, List.countP_replicate, h]

/-- **The progress rule.**  If under the invariant `I`, before `fin`, every turn decreases the
measure and no other action of the schedule increases it, and if `fin` is never lost, then a
schedule with as many turns as the measure allows reaches `fin`. -/
theorem fin_of_turns (I fin : σ → Prop) (m : σ → Nat) (turn : α → Bool) (ok : α → Prop)
    (hinv : ∀ s a, ok a → I s → I (step s a))
    (hturn : ∀ s a, ok a → turn a = true → I s → ¬ fin s → m (step s a) < m s)
    (hother : ∀ s a, ok a → turn a = false → I s → ¬ fin s → m (step s a) ≤ m s)
    (hfin : ∀ s a, ok a → I s → fin s → fin (step s a))
    (hzero : ∀ s, I s → m s = 0 → fin s) :
    ∀ (as : List α) (s : σ), (∀ a ∈ as, ok a) → I s → m s ≤ turns turn as ∨ fin s →
      fin (run step s as)
  | [], s, _, hI, h => by
    rcases h with h | h
    · exact hzero s hI (by simpa [turns] using h)
    · exact h
  | a :: as, s, hok, hI, h => by
    have hoka := hok a (by simp)
    refine fin_of_turns I fin m turn ok hinv hturn hother hfin hzero as (step s a)
      (fun b hb => hok b (by simp [hb])) (hinv s a hoka hI) ?_
    by_cases hf : fin s
    · exact Or.inr (hfin s a hoka hI hf)
    · have hm : m s ≤ turns turn (a :: as) := h.resolve_right hf
      cases ht : turn a with
      | true =>
        have hlt := hturn s a hoka ht hI hf
        simp only [turns, List.countP_cons, ht, if_true] at hm ⊢
        exact Or.inl (by omega)
      | false =>
        have hle := hother s a hoka ht hI hf
        simp only [turns, List.countP_cons, ht, Bool.false_eq_true, if_false] at hm ⊢
        exact Or.inl (by omega)

end Along

/-! ## 4. Logs in which an entry needs what came before -/

section Preceded

variable {β : Type} {needs : List β → β → Prop}

/-- Every entry of the log is preceded by what it needs. -/
def Preceded (needs : List β → β → Prop) (log : List β) : Prop :=
  ∀ pre x post, log = pre ++ x :: post → needs pre x

theorem preceded_nil : Preceded needs [] := by
  rintro pre x post h
  simp at h

theorem Preceded.snoc {log : List β} {x : β} (h : Preceded needs log) (hx : needs log x) :
    Preceded needs (log ++ [x]) := by
  intro pre y post heq
  rcases List.eq_nil_or_concat post with rfl | ⟨post, z, rfl⟩
  · obtain ⟨rfl, hxy⟩ := List.append_inj' heq rfl
    cases hxy
    exact hx
  · rw [List.concat_eq_append, ← List.cons_append, ← List.append_assoc] at heq
    exact h pre y post (List.append_inj' heq rfl).1

/-- More entries, of a kind that needs nothing. -/
theorem Preceded.append {log more : List β} (h : Preceded needs log)
    (hmore : ∀ x ∈ more, ∀ pre, needs pre x) : Preceded needs (log ++ more) := by
  induction more generalizing log with
  | nil => rwa [List.append_nil]
  | cons x more ih =>
    have hsnoc := h.snoc (hmore x List.mem_cons_self log)
    rw [List.append_cons]
    exact ih hsnoc fun y hy => hmore y (List.mem_cons_of_mem x hy)

end Preceded

end WebrtcBridge.Lib
