/-
# Patterns that are sequences

A regular expression like `k:(\d+)\s+([^/]+)` is a sequence of LITERALS and of CLASSES of characters
that are repeated at least once.  A repetition is GREEDY: it takes as many characters as it can and
gives them back one by one while the rest of the pattern does not match.  `matchAt` does just that.

`findAll` looks for the matches in a text from left to right, each behind the one before.  To know
what it finds one has to know where matches start:

* where no match starts, it passes (`findAll_uncut`); a text without the literal that the pattern
  begins with is such a place (`uncut_of_lit`);
* a repetition that is followed by something outside its class does not have to give back anything
  (`matchAt_plus`).

A pattern that could match without taking a character is not meant.
-/
import Mathlib.Data.List.Infix
import WebrtcBridge.Lib.Text

namespace WebrtcBridge.Lib

open Text

inductive Piece where
  | lit (word : Text)
  | plus (cls : Char → Bool)

abbrev Pattern := List Piece

namespace Pattern

/-- A match at the start of a text: what the repetitions have taken, and what follows. -/
def matchAt : Pattern → Text → Option (List Text × Text)
  | [], t => some ([], t)
  | .lit word :: ps, t => if word.isPrefixOf t then matchAt ps (t.drop word.length) else none
  | .plus cls :: ps, t =>
    (List.range (t.takeWhile cls).length).reverse.findSome? fun n =>
      (matchAt ps (t.drop (n + 1))).map fun m => (t.take (n + 1) :: m.1, m.2)

/-- What follows a match at the start of a text. -/
def rest (p : Pattern) (t : Text) : Option Text := (matchAt p t).map (·.2)

/-- `skip` characters still belong to the last match. -/
def findAllGo (p : Pattern) (skip : Nat) : Text → List (List Text)
  | [] => []
  | c :: cs =>
    match skip with
    | skip + 1 => findAllGo p skip cs
    | 0 =>
      match matchAt p (c :: cs) with
      | none => findAllGo p 0 cs
      | some (groups, rest) => groups :: findAllGo p (cs.length - rest.length) cs

/-- All matches in a text. -/
def findAll (p : Pattern) (t : Text) : List (List Text) := findAllGo p 0 t

/-! ## 1. Matching -/

theorem matchAt_lit (word : Text) (ps : Pattern) (t : Text) :
    matchAt (.lit word :: ps) (word ++ t) = matchAt ps t := by
  have hprefix : word.isPrefixOf (word ++ t) = true :=
    List.isPrefixOf_iff_prefix.mpr (List.prefix_append word t)
  rw [matchAt, if_pos hprefix, List.drop_left]

theorem matchAt_lit_none {word t : Text} (ps : Pattern) (h : ¬ word <+: t) :
    matchAt (.lit word :: ps) t = none := by
  rw [matchAt, if_neg]
  rwa [List.isPrefixOf_iff_prefix]

/-- **A repetition up to something outside its class.** -/
theorem matchAt_plus {cls : Char → Bool} {ps : Pattern} {u t t' : Text} {groups : List Text}
    (hne : u ≠ []) (hu : ∀ c ∈ u, cls c = true) (ht : ∀ c ∈ t.head?, cls c = false)
    (hmatch : matchAt ps t = some (groups, t')) :
    matchAt (.plus cls :: ps) (u ++ t) = some (u :: groups, t') := by
  have htail : t.takeWhile cls = [] := by
    cases t with
    | nil => rfl
    | cons c t => rw [List.takeWhile_cons_of_neg (by rw [ht c rfl]; exact Bool.false_ne_true)]
  have htake : (u ++ t).takeWhile cls = u := by
    rw [List.takeWhile_append_of_pos hu, htail, List.append_nil]
  obtain ⟨n, hn⟩ := Nat.exists_eq_succ_of_ne_zero (mt List.length_eq_zero_iff.mp hne)
  have hfirst : (u ++ t).take (n + 1) = u ∧ (u ++ t).drop (n + 1) = t := by
    rw [← Nat.succ_eq_add_one, ← hn]
    exact ⟨List.take_left, List.drop_left⟩
  -- the first attempt is the longest
  rw [matchAt, htake, hn, List.range_succ, List.reverse_append]
  simp only [List.reverse_cons, List.reverse_nil, List.nil_append, List.singleton_append,
    List.findSome?_cons, hfirst, hmatch, Option.map_some]

/-! ## 2. Finding -/

theorem findAllGo_skip (p : Pattern) (x t : Text) :
    findAllGo p x.length (x ++ t) = findAllGo p 0 t := by
  induction x with
  | nil => rfl
  | cons c x ih => exact ih

/-- **A match at the start.** -/
theorem findAll_match {p : Pattern} {x t : Text} {groups : List Text} (hx : x ≠ [])
    (h : matchAt p (x ++ t) = some (groups, t)) : findAll p (x ++ t) = groups :: findAll p t := by
  cases x with
  | nil => exact absurd rfl hx
  | cons c x =>
    have hlength : (x ++ t).length - t.length = x.length := by
      rw [List.length_append, Nat.add_sub_cancel]
    rw [List.cons_append] at h
    rw [findAll, List.cons_append, findAllGo, h]
    simp only
    rw [hlength, findAllGo_skip, findAll]

/-- **Where no match starts, nothing is found.** -/
theorem findAll_uncut {p : Pattern} {u t : Text} (h : Uncut p.rest u t) :
    findAll p (u ++ t) = findAll p t := by
  induction u with
  | nil => rfl
  | cons c u ih =>
    have hnone : matchAt p (c :: (u ++ t)) = none := by
      have hrest := h [] (c :: u) rfl (by simp)
      exact Option.map_eq_none_iff.mp hrest
    have hu : Uncut p.rest u t := fun a b hab hb => h (c :: a) b (by rw [hab]; rfl) hb
    rw [findAll, List.cons_append, findAllGo, hnone]
    exact ih hu

/-- A word cannot reach over a character that it does not have. -/
theorem prefix_of_stop {word u t : Text} {stop : Char} (h : word <+: u ++ stop :: t)
    (hstop : stop ∉ word) : word <+: u := by
  rcases Nat.lt_or_ge u.length word.length with hlt | hle
  · have hover : u ++ [stop] <+: word := by
      refine List.prefix_of_prefix_length_le ⟨t, by simp⟩ h ?_
      rw [List.length_append, List.length_singleton]
      exact hlt
    have hmem : stop ∈ u ++ [stop] := List.mem_append_right u List.mem_cons_self
    exact absurd (hover.subset hmem) hstop
  · exact List.prefix_of_prefix_length_le h (List.prefix_append u _) hle

/-- **No match starts in a piece without the literal**, if the piece ends with something that the
literal has not. -/
theorem uncut_of_lit {word u : Text} {stop : Char} (ps : Pattern) (hstop : stop ∉ word)
    (hu : ¬ word <:+: u) (t : Text) : Uncut (rest (.lit word :: ps)) (u ++ [stop]) t := by
  intro a b hab hb
  have hnot : ¬ word <+: b ++ t := by
    intro hprefix
    rcases List.eq_nil_or_concat b with rfl | ⟨b', x, rfl⟩
    · exact hb rfl
    · rw [List.concat_eq_append, ← List.append_assoc] at hab
      obtain ⟨rfl, hx⟩ := List.append_inj' hab rfl
      obtain rfl : stop = x := List.singleton_inj.mp hx
      rw [List.concat_eq_append, List.append_assoc] at hprefix
      have hword := prefix_of_stop hprefix hstop
      exact hu (hword.isInfix.trans (List.suffix_append a b').isInfix)
  rw [rest, matchAt_lit_none ps hnot]
  rfl

end Pattern

end WebrtcBridge.Lib
