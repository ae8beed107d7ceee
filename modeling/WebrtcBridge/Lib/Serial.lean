/-
# Counters that wrap, and lists kept in their order

A counter of a fixed width loses everything but a remainder.  SERIAL NUMBER arithmetic compares two
remainders by the shorter way around the circle, and as long as the two counters are less than half
the circle apart, that is the order of the counters themselves.  Beyond half the circle it is the
wrong way around, and nothing in the remainders tells.

So a proof about such a counter speaks of the COUNT, a natural number, and of its remainder; what is
compared is remainders, what is meant is counts.  §1 has the comparison, §2 what it does to lists
that are kept in the order of a counter: a place found by `partitionPoint` among the remainders is
the place among the counts, so a list of remainders that is built by such insertions is the image of
an increasing list.

§3 is about items that carry their count: taken in order without a gap, they are a beginning of all
items.
-/
import Mathlib.Algebra.Group.Nat.Defs
import Mathlib.Data.List.Sort
import Mathlib.Data.List.TakeWhile

namespace WebrtcBridge.Lib

/-! ## 1. Comparing remainders -/

/-- `i1` comes before `i2` on a circle of `2 * half` places. -/
def serialLt (half i1 i2 : Nat) : Bool :=
  (i1 < i2 && i2 - i1 < half) || (i1 > i2 && i1 - i2 > half)

/-- `i1` comes after `i2`; two places half the circle apart come after each other. -/
def serialGt (half i1 i2 : Nat) : Bool :=
  (i1 < i2 && i2 - i1 ≥ half) || (i1 > i2 && i1 - i2 ≤ half)

section Circle

variable {half a b : Nat}

/-- Two counts less than half the circle apart are on the same turn, or on two that follow each
other. -/
theorem rests_near (hab : a < b + half) (hba : b < a + half) :
    a % (2 * half) + b = b % (2 * half) + a
      ∨ a % (2 * half) + 2 * half + b = b % (2 * half) + a
      ∨ a % (2 * half) + b = b % (2 * half) + 2 * half + a := by
  have hpos : 0 < 2 * half := by omega
  have ha := Nat.div_add_mod a (2 * half)
  have hb := Nat.div_add_mod b (2 * half)
  have har := Nat.mod_lt a hpos
  have hbr := Nat.mod_lt b hpos
  have hmono : ∀ x y : Nat, x ≤ y → 2 * half * x ≤ 2 * half * y :=
    fun x y h => Nat.mul_le_mul_left _ h
  have hsucc : ∀ x : Nat, 2 * half * (x + 1) = 2 * half * x + 2 * half := fun x => Nat.mul_succ _ x
  rcases Nat.lt_trichotomy (a / (2 * half)) (b / (2 * half)) with hlt | heq | hgt
  · rcases Nat.lt_or_ge (a / (2 * half) + 1) (b / (2 * half)) with hfar | hnear
    · have h2 := hmono _ _ (Nat.succ_le_of_lt hfar)
      rw [Nat.succ_eq_add_one, hsucc, hsucc] at h2
      omega
    · rw [show b / (2 * half) = a / (2 * half) + 1 by omega, hsucc] at hb
      omega
  · rw [heq] at ha
    omega
  · rcases Nat.lt_or_ge (b / (2 * half) + 1) (a / (2 * half)) with hfar | hnear
    · have h2 := hmono _ _ (Nat.succ_le_of_lt hfar)
      rw [Nat.succ_eq_add_one, hsucc, hsucc] at h2
      omega
    · rw [show a / (2 * half) = b / (2 * half) + 1 by omega, hsucc] at ha
      omega

/-- **Within half the circle remainders compare like counts.** -/
theorem serialLt_mod (hab : a < b + half) (hba : b < a + half) :
    serialLt half (a % (2 * half)) (b % (2 * half)) = decide (a < b) := by
  have hrests := rests_near hab hba
  have har := Nat.mod_lt a (by omega : 0 < 2 * half)
  have hbr := Nat.mod_lt b (by omega : 0 < 2 * half)
  simp only [serialLt, Bool.or_eq_decide, Bool.and_eq_decide, decide_eq_true_eq, decide_eq_decide]
  omega

theorem serialGt_mod (hab : a < b + half) (hba : b < a + half) :
    serialGt half (a % (2 * half)) (b % (2 * half)) = decide (b < a) := by
  have hrests := rests_near hab hba
  have har := Nat.mod_lt a (by omega : 0 < 2 * half)
  have hbr := Nat.mod_lt b (by omega : 0 < 2 * half)
  simp only [serialGt, Bool.or_eq_decide, Bool.and_eq_decide, decide_eq_true_eq, decide_eq_decide]
  omega

/-- Within half the circle a remainder belongs to one count only. -/
theorem eq_of_mod_eq (hab : a < b + half) (hba : b < a + half)
    (h : a % (2 * half) = b % (2 * half)) : a = b := by
  have hrests := rests_near hab hba
  omega

end Circle

/-! ## 2. Lists in the order of a counter -/

variable {α β : Type}

/-- How many elements stand in front of the first that fails the test: where a binary search ends in
a list in which all elements that pass stand before all that fail. -/
def partitionPoint (before : α → Bool) (l : List α) : Nat := (l.takeWhile before).length

/-- Insert an element behind those that come before it. -/
def insertSorted (before : α → α → Bool) (x : α) (l : List α) : List α :=
  l.insertIdx (partitionPoint (before · x) l) x

theorem insertIdx_length_append (l r : List α) (x : α) :
    (l ++ r).insertIdx l.length x = l ++ x :: r := by
  induction l with
  | nil => rfl
  | cons a l ih =>
    rw [List.cons_append, List.length_cons, List.insertIdx_succ_cons, ih, List.cons_append]

theorem insertSorted_eq (before : α → α → Bool) (x : α) (l : List α) :
    insertSorted before x l
      = l.takeWhile (before · x) ++ x :: l.dropWhile (before · x) := by
  have h := insertIdx_length_append (l.takeWhile (before · x)) (l.dropWhile (before · x)) x
  rwa [List.takeWhile_append_dropWhile] at h

/-- Only what is compared matters. -/
theorem map_insertSorted (g : α → β) (before : β → β → Bool) (x : α) (l : List α) :
    (insertSorted (fun c d => before (g c) (g d)) x l).map g
      = insertSorted before (g x) (l.map g) := by
  rw [insertSorted_eq, insertSorted_eq, List.map_append, List.map_cons, List.takeWhile_map,
    List.dropWhile_map]
  rfl

/-- **Inserting among remainders is inserting among counts**, where the test agrees with the order
of the counts. -/
theorem insertSorted_map {f : Nat → β} (before : β → β → Bool) {k : Nat} {ks : List Nat}
    (hagree : ∀ i ∈ ks, before (f i) (f k) = decide (i < k)) :
    insertSorted before (f k) (ks.map f) = (ks.orderedInsert (· ≤ ·) k).map f := by
  have hsplit : ∀ l : List Nat, (∀ i ∈ l, before (f i) (f k) = decide (i < k)) →
      (l.map f).takeWhile (before · (f k)) = (l.takeWhile fun i => decide (i < k)).map f
        ∧ (l.map f).dropWhile (before · (f k)) = (l.dropWhile fun i => decide (i < k)).map f := by
    intro l hl
    induction l with
    | nil => exact ⟨rfl, rfl⟩
    | cons i l ih =>
      obtain ⟨h1, h2⟩ := ih fun j hj => hl j (List.mem_cons_of_mem i hj)
      have hi := hl i List.mem_cons_self
      rw [List.map_cons, List.takeWhile_cons, List.dropWhile_cons, List.takeWhile_cons,
        List.dropWhile_cons, hi, h1, h2]
      split
      · exact ⟨rfl, rfl⟩
      · exact ⟨rfl, rfl⟩
  obtain ⟨h1, h2⟩ := hsplit ks hagree
  rw [insertSorted_eq, h1, h2, List.orderedInsert_eq_take_drop, List.map_append, List.map_cons]
  simp only [Nat.not_le]

/-- An insertion into an increasing list keeps it increasing, if the element is new. -/
theorem pairwise_orderedInsert {k : Nat} {ks : List Nat} (hks : ks.Pairwise (· < ·)) (hk : k ∉ ks) :
    (ks.orderedInsert (· ≤ ·) k).Pairwise (· < ·) := by
  have hle : (ks.orderedInsert (· ≤ ·) k).Pairwise (· ≤ ·) :=
    (hks.imp Nat.le_of_lt).orderedInsert k
  have hnodup : (ks.orderedInsert (· ≤ ·) k).Nodup := by
    refine (List.perm_orderedInsert (· ≤ ·) k ks).nodup_iff.mpr (List.nodup_cons.mpr ⟨hk, ?_⟩)
    exact hks.imp Nat.ne_of_lt
  exact (hle.and hnodup).imp fun h => Nat.lt_of_le_of_ne h.1 h.2

/-- Numbers within `half` of each other stay so with one more. -/
theorem near_orderedInsert {half k : Nat} {ks : List Nat} (hpos : 0 < half)
    (hks : ∀ a ∈ ks, ∀ b ∈ ks, b < a + half) (hk : ∀ b ∈ ks, k < b + half ∧ b < k + half) :
    ∀ a ∈ ks.orderedInsert (· ≤ ·) k, ∀ b ∈ ks.orderedInsert (· ≤ ·) k, b < a + half := by
  intro a ha b hb
  rw [List.mem_orderedInsert] at ha hb
  rcases ha with rfl | ha
  · rcases hb with rfl | hb
    · omega
    · exact (hk b hb).2
  · rcases hb with rfl | hb
    · exact (hk a ha).1
    · exact hks a ha b hb

/-! ## 3. Numbered items -/

/-- Items that are numbered from 0 without a gap, all of them among others that are, are the first
of those. -/
theorem prefix_of_numbered {α : Type} {number : α → Nat} {xs ys : List α} {n c : Nat}
    (hxs : xs.map number = List.range n) (hys : ys.map number = List.range c)
    (hsub : ∀ x ∈ xs, x ∈ ys) : xs <+: ys := by
  have hat : ∀ {l : List α} {k : Nat}, l.map number = List.range k → ∀ i (hi : i < l.length),
      number l[i] = i := by
    intro l k hl i hi
    have hlen : l.length = k := by simpa using congrArg List.length hl
    have hmap := congrArg (·[i]?) hl
    simpa [List.getElem?_eq_getElem hi, hlen ▸ hi] using hmap
  have hsame : ∀ i (hi : i < xs.length), ∃ hi' : i < ys.length, xs[i] = ys[i] := by
    intro i hi
    obtain ⟨j, hj, heq⟩ := List.getElem_of_mem (hsub _ (List.getElem_mem hi))
    have hij : j = i := by rw [← hat hys j hj, heq, hat hxs i hi]
    subst hij
    exact ⟨hj, heq.symm⟩
  have hlen : xs.length ≤ ys.length := by
    by_contra hlt
    obtain ⟨hi, -⟩ := hsame ys.length (by omega)
    omega
  exact List.prefix_iff_getElem.mpr ⟨hlen, fun i hi => (hsame i hi).2⟩

end WebrtcBridge.Lib
