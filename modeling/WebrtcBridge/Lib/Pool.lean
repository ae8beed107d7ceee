/-
# Threads over a shared state

A system of threads is a shared state and the list of the threads that are still running.  A thread
is whatever it has to remember: where it is and what it holds.  One of its steps looks at the shared
state, changes it, and leaves the thread somewhere else, or finished.

Threads are named by their place in the list, and a finished thread leaves it, so the places of the
others move up.  That makes no difference to an invariant: `turn_inv` asks only that it does not
depend on the order of the threads, and then the thread that moves may as well be the first.
`turn_lockstep` is the same rule for two systems that run the same threads, and `turn_project` says
that bookkeeping on the side changes nothing.
-/
import Mathlib.Data.List.Perm.Basic

namespace WebrtcBridge.Lib

variable {σ τ ω : Type}

/-- What is left of thread `i` takes its place. -/
def putBack (threads : List τ) (i : Nat) : Option τ → List τ
  | some t => threads.set i t
  | none => threads.eraseIdx i

/-- Up to their order, the threads are the one that moves and the rest, before and after. -/
theorem perm_putBack {threads : List τ} {i : Nat} {t : τ} (h : threads[i]? = some t) :
    ∃ rest, threads.Perm (t :: rest)
      ∧ ∀ t' : Option τ, (putBack threads i t').Perm (t'.toList ++ rest) := by
  obtain ⟨hi, rfl⟩ := List.getElem?_eq_some_iff.mp h
  refine ⟨threads.eraseIdx i, (List.getElem_cons_eraseIdx_perm hi).symm, ?_⟩
  rintro (_ | t')
  · exact .rfl
  · exact List.set_perm_cons_eraseIdx hi t'

/-- Thread `i` takes a step; there may be no such thread. -/
def turn (step : σ → τ → ω → σ × Option τ) (s : σ) (threads : List τ) (i : Nat) (o : ω) :
    σ × List τ :=
  match threads[i]? with
  | none => (s, threads)
  | some t => ((step s t o).1, putBack threads i (step s t o).2)

theorem turn_none {step : σ → τ → ω → σ × Option τ} {s : σ} {threads : List τ} {i : Nat} {o : ω}
    (h : threads[i]? = none) : turn step s threads i o = (s, threads) := by
  simp [turn, h]

theorem turn_some {step : σ → τ → ω → σ × Option τ} {s : σ} {threads : List τ} {i : Nat} {o : ω}
    {t : τ} (h : threads[i]? = some t) :
    turn step s threads i o = ((step s t o).1, putBack threads i (step s t o).2) := by
  simp [turn, h]

/-- **The invariant rule for threads.**  An invariant that does not depend on their order is kept by
a step of any thread if it is kept by a step of the first. -/
theorem turn_inv {step : σ → τ → ω → σ × Option τ} {I : σ → List τ → Prop}
    (hperm : ∀ {s l l'}, l.Perm l' → I s l → I s l') {s : σ} {threads : List τ} {i : Nat} {o : ω}
    (hstep : ∀ t rest, threads[i]? = some t → threads.Perm (t :: rest) → I s (t :: rest) →
      I (step s t o).1 ((step s t o).2.toList ++ rest))
    (h : I s threads) :
    I (turn step s threads i o).1 (turn step s threads i o).2 := by
  cases ht : threads[i]? with
  | none => rwa [turn_none ht]
  | some t =>
    obtain ⟨rest, hbefore, hafter⟩ := perm_putBack ht
    rw [turn_some ht]
    exact hperm (hafter _).symm (hstep t rest ht hbefore (hperm hbefore h))

/-- **Two pools in lockstep.**  If the same step of the first thread leaves the same of it in both
and keeps the two states related, so does a step of any thread. -/
theorem turn_lockstep {step : σ → τ → ω → σ × Option τ} {R : σ → σ → List τ → Prop}
    (hperm : ∀ {s s' l l'}, l.Perm l' → R s s' l → R s s' l') {s s' : σ}
    {threads : List τ} {i : Nat} {o : ω}
    (hstep : ∀ t rest, threads[i]? = some t → R s s' (t :: rest) →
      (step s t o).2 = (step s' t o).2
        ∧ R (step s t o).1 (step s' t o).1 ((step s t o).2.toList ++ rest))
    (h : R s s' threads) :
    (turn step s threads i o).2 = (turn step s' threads i o).2
      ∧ R (turn step s threads i o).1 (turn step s' threads i o).1 (turn step s threads i o).2 := by
  cases ht : threads[i]? with
  | none =>
    rw [turn_none ht, turn_none ht]
    exact ⟨rfl, h⟩
  | some t =>
    obtain ⟨rest, hbefore, hafter⟩ := perm_putBack ht
    obtain ⟨hsame, hrelated⟩ := hstep t rest ht (hperm hbefore h)
    rw [turn_some ht, turn_some ht]
    refine ⟨?_, hperm (hafter _).symm hrelated⟩
    rw [hsame]

/-- **Bookkeeping on the side.**  A system with more in its state and in its threads is the plain
one if each of its steps is. -/
theorem turn_project {σ' τ' : Type} (step : σ → τ → ω → σ × Option τ)
    (step' : σ' → τ' → ω → σ' × Option τ') (f : σ' → σ) (g : τ' → τ)
    (hstep : ∀ s t o, step (f s) (g t) o = (f (step' s t o).1, (step' s t o).2.map g))
    (s : σ') (threads : List τ') (i : Nat) (o : ω) :
    turn step (f s) (threads.map g) i o
      = (f (turn step' s threads i o).1, (turn step' s threads i o).2.map g) := by
  cases ht : threads[i]? with
  | none =>
    have hmap : (threads.map g)[i]? = none := by simp [ht]
    rw [turn_none ht, turn_none hmap]
  | some t =>
    have hmap : (threads.map g)[i]? = some (g t) := by simp [ht]
    rw [turn_some ht, turn_some hmap, hstep]
    cases (step' s t o).2 with
    | none => simp [putBack, List.eraseIdx_map]
    | some t' => simp [putBack, List.map_set]

end WebrtcBridge.Lib
