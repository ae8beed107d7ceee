/-
# Mutexes, who owns them and who waits

Non-re-entrant mutexes, any number of threads.  What a system of locks has to keep straight is
small: an OWNER map, and for every thread the guards it HOLDS.  `Owned` says that the two agree;
it survives taking a free mutex and releasing a held one.

A thread that waits for a mutex waits for its owner.  If every thread asks for mutexes in
increasing RANK, that is, whatever it holds ranks below what it waits for, then no cycle of waits
exists (`no_wait_cycle`): along a chain of waits the rank of the mutex waited for goes up.
-/
import Mathlib.Data.List.Basic
import Mathlib.Logic.Function.Basic
import Mathlib.Logic.Relation

namespace WebrtcBridge.Lib

variable {τ μ : Type}

/-! ## 1. Owners and guards -/

/-- The owner map and the threads' guards say the same thing. -/
structure Owned (owner : μ → Option τ) (held : τ → List μ) : Prop where
  agree : ∀ t m, owner m = some t ↔ m ∈ held t
  nodup : ∀ t, (held t).Nodup

theorem Owned.nobody : Owned (fun _ : μ => (Option.none : Option τ)) fun _ => [] where
  agree := fun t m => by simp
  nodup := fun t => List.nodup_nil

variable [DecidableEq τ] [DecidableEq μ]

theorem Owned.acquire {owner : μ → Option τ} {held : τ → List μ} (h : Owned owner held) {m : μ}
    (hm : owner m = Option.none) (t : τ) :
    Owned (Function.update owner m (some t)) (Function.update held t (m :: held t)) where
  agree := by
    intro u m'
    have hfree : ∀ v, m ∉ held v := fun v hv => by
      rw [(h.agree v m).mpr hv] at hm
      cases hm
    by_cases hu : u = t
    · subst hu
      by_cases hmm : m' = m
      · subst hmm
        simp
      · simp [hmm, h.agree]
    · by_cases hmm : m' = m
      · subst hmm
        simp [hu, hfree u, Ne.symm hu]
      · simp [hmm, hu, h.agree]
  nodup := by
    intro u
    by_cases hu : u = t
    · subst hu
      have hfree : m ∉ held u := fun hv => by
        rw [(h.agree u m).mpr hv] at hm
        cases hm
      simpa using ⟨hfree, h.nodup u⟩
    · simpa [hu] using h.nodup u

theorem Owned.release {owner : μ → Option τ} {held : τ → List μ} (h : Owned owner held) {m : μ}
    {t : τ} (hm : m ∈ held t) :
    Owned (Function.update owner m Option.none) (Function.update held t ((held t).erase m)) where
  agree := by
    intro u m'
    by_cases hu : u = t
    · subst hu
      by_cases hmm : m' = m
      · subst hmm
        simp [(h.nodup u).mem_erase_iff]
      · simp [hmm, h.agree, List.mem_erase_of_ne hmm]
    · by_cases hmm : m' = m
      · subst hmm
        -- the mutex was `t`'s, so nobody else's
        have hnot : m' ∉ held u := fun hv => by
          have h1 := (h.agree u m').mpr hv
          rw [(h.agree t m').mpr hm] at h1
          exact hu (Option.some.inj h1).symm
        simp [hu, hnot]
      · simp [hmm, hu, h.agree]
  nodup := by
    intro u
    by_cases hu : u = t
    · subst hu
      simpa using (h.nodup u).erase m
    · simpa [hu] using h.nodup u

/-! ## 2. Waiting -/

omit [DecidableEq τ] [DecidableEq μ]

/-- A thread waits for the owner of the mutex it asks for. -/
def WaitFor (waits : τ → μ → Prop) (owns : τ → μ → Prop) (t u : τ) : Prop :=
  ∃ m, waits t m ∧ owns u m

/-- **Lock order excludes wait cycles.** -/
theorem no_wait_cycle {waits owns : τ → μ → Prop} (rank : μ → Nat)
    (hone : ∀ t m m', waits t m → waits t m' → m = m')
    (hrank : ∀ t m m', owns t m → waits t m' → rank m < rank m') (t : τ) :
    ¬ Relation.TransGen (WaitFor waits owns) t t := by
  -- along a chain of waits the rank goes up
  have hup : ∀ {u v}, Relation.TransGen (WaitFor waits owns) u v →
      ∀ m m', waits u m → waits v m' → rank m < rank m' := by
    intro u v h
    induction h with
    | single hw =>
      intro m m' hm hm'
      obtain ⟨m₁, hw₁, ho⟩ := hw
      rw [hone _ _ _ hm hw₁]
      exact hrank _ _ _ ho hm'
    | tail _ hw ih =>
      intro m m' hm hm'
      obtain ⟨m₁, hw₁, ho⟩ := hw
      exact Nat.lt_trans (ih m m₁ hm hw₁) (hrank _ _ _ ho hm')
  intro hcycle
  obtain ⟨m, hm⟩ : ∃ m, waits t m := by
    obtain ⟨u, ⟨m, hm, -⟩, -⟩ := Relation.TransGen.head'_iff.mp hcycle
    exact ⟨m, hm⟩
  exact Nat.lt_irrefl _ (hup hcycle m m hm hm)

end WebrtcBridge.Lib
