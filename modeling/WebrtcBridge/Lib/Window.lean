/-
# Windows over the numbers seen so far

Whoever must not take a number twice would have to remember all of them.  A WINDOW remembers less:
the highest number seen, its HEAD, and one bit for each of the `n` numbers up to it.  What lies
below the window is refused without a look.

`Window` ties such a memory to the list of what was really seen.  There are two ways to see a
number:

* ahead of the window, which moves the head and shifts the bits (`Window.ahead`);
* inside it, at a bit that is not set (`Window.behind`).

Both keep the tie, and part of the tie is that nothing has been seen twice.  So a detector that does
only these two things never takes a number twice, and what it refuses inside the window was taken
before.  How the bits are stored does not matter here.  Where there are several windows, one for
each class of numbers, `nodup_of_fibres` puts them together.
-/
import Mathlib.Data.List.Nodup

namespace WebrtcBridge.Lib

/-- **The memory and what was seen.**  Bit `j` is that of `head - j`. -/
structure Window (n : Nat) (head : Int) (bit : Nat → Bool) (seen : List Int) : Prop where
  le_head : ∀ a ∈ seen, a ≤ head
  bit_iff : ∀ j : Nat, j < n → (bit j = true ↔ head - j ∈ seen)
  nodup : seen.Nodup

namespace Window

variable {n : Nat} {head : Int} {bit bit' : Nat → Bool} {seen : List Int}

/-- Nothing has been seen. -/
theorem empty (n : Nat) (head : Int) (hbit : ∀ j, j < n → bit j = false) :
    Window n head bit [] where
  le_head := by simp
  bit_iff := by
    intro j hj
    simp [hbit j hj]
  nodup := List.nodup_nil

/-- A bit that is not set is that of a number not seen. -/
theorem not_mem (h : Window n head bit seen) {j : Nat} (hj : j < n) (hbit : bit j = false) :
    head - j ∉ seen := by
  rw [← h.bit_iff j hj, hbit]
  simp

/-- **A number ahead of the window** becomes its head: the bits move away from it. -/
theorem ahead (h : Window n head bit seen) {k : Nat} (hk : 0 < k)
    (hbit : ∀ j, j < n → bit' j = (decide (j = 0) || (decide (k ≤ j) && bit (j - k)))) :
    Window n (head + k) bit' (seen ++ [head + k]) where
  le_head := by
    intro a ha
    rcases List.mem_append.mp ha with ha | ha
    · have hle := h.le_head a ha
      omega
    · exact Int.le_of_eq (List.mem_singleton.mp ha)
  bit_iff := by
    intro j hj
    rw [hbit j hj, List.mem_append, List.mem_singleton]
    rcases Nat.eq_zero_or_pos j with rfl | hpos
    · simp
    · have hne : ¬ head + k - j = head + k := by omega
      by_cases hle : k ≤ j
      · have hold : bit (j - k) = true ↔ head - (j - k : Nat) ∈ seen := h.bit_iff (j - k) (by omega)
        have heq : head + k - j = head - (j - k : Nat) := by omega
        rw [← heq] at hold
        simp [hle, hne, hold, Nat.pos_iff_ne_zero.mp hpos]
      · -- between the old head and the new one nothing has been seen
        have hnot : head + k - j ∉ seen := by
          intro hmem
          have := h.le_head _ hmem
          omega
        simp [hle, hne, hnot, Nat.pos_iff_ne_zero.mp hpos]
  nodup := by
    refine List.nodup_append.mpr ⟨h.nodup, List.nodup_singleton _, ?_⟩
    intro a ha b hb hab
    rw [List.mem_singleton] at hb
    have hle := h.le_head a ha
    omega

/-- **A number inside the window** that has not been seen. -/
theorem behind (h : Window n head bit seen) {j : Nat} (hj : j < n) (hfree : bit j = false)
    (hbit : ∀ i, i < n → bit' i = (bit i || decide (i = j))) :
    Window n head bit' (seen ++ [head - j]) where
  le_head := by
    intro a ha
    rcases List.mem_append.mp ha with ha | ha
    · exact h.le_head a ha
    · rw [List.mem_singleton.mp ha]
      omega
  bit_iff := by
    intro i hi
    rw [hbit i hi, List.mem_append, List.mem_singleton, Bool.or_eq_true, h.bit_iff i hi,
      decide_eq_true_iff]
    constructor
    · exact Or.imp_right fun hij => by rw [hij]
    · exact Or.imp_right fun hij => by omega
  nodup := by
    refine List.nodup_append.mpr ⟨h.nodup, List.nodup_singleton _, ?_⟩
    rintro a ha b hb rfl
    rw [List.mem_singleton] at hb
    exact h.not_mem hj hfree (hb ▸ ha)

end Window

/-- Where numbers are told apart only within a class, distinct numbers in each class make distinct
entries. -/
theorem nodup_of_fibres {α κ β : Type} [DecidableEq κ] {l : List α} (key : α → κ) (number : α → β)
    (h : ∀ k, ((l.filter fun a => key a = k).map number).Nodup) : l.Nodup := by
  rw [List.nodup_iff_sublist]
  intro a htwice
  have htwo := (htwice.filter fun b => key b = key a).map number
  simp only [decide_true, List.filter_cons_of_pos, List.filter_nil, List.map_cons,
    List.map_nil] at htwo
  exact List.nodup_iff_sublist.mp (h (key a)) (number a) htwo

end WebrtcBridge.Lib
