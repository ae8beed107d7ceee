/-
# Searching and cutting text

What hand-written parsers do with a text: look for the first occurrence of something and go on
behind it, take what stands before a character, cut at separators.  A text is a list of
characters.

The results are about text that is CUT BY QUOTES: pieces without a quote, with quotes between
them.  In such a text a quoted word can only be found where a piece is that word
(`after_inQuotes_found`, `after_inQuotes_skip`), whatever the pieces look like.  Cutting at
separators is described by what a separator is at a given place; a stretch in which no separator
starts is passed over as a whole (`splitGo_uncut`).
-/
import Mathlib.Data.List.Basic
import Mathlib.Data.List.TakeWhile

namespace WebrtcBridge.Lib

/-- A text. -/
abbrev Text := List Char

namespace Text

/-! ## 1. First occurrences -/

/-- What follows the first occurrence of `word`. -/
def after (word : Text) : Text → Option Text
  | [] => if word.isEmpty then some [] else none
  | c :: cs =>
    if word.isPrefixOf (c :: cs) then some ((c :: cs).drop word.length) else after word cs

/-- What precedes the first `c`. -/
def before (c : Char) : Text → Option Text
  | [] => none
  | x :: xs => if x = c then some [] else (before c xs).map (x :: ·)

theorem after_singleton (c : Char) : ∀ {u : Text} (v : Text), c ∉ u →
    after [c] (u ++ c :: v) = some v
  | [], v, _ => by simp [after]
  | x :: u, v, h => by
    have hx : c ≠ x := fun heq => h (heq ▸ List.mem_cons_self ..)
    have hu : c ∉ u := fun hmem => h (List.mem_cons_of_mem x hmem)
    simp [after, hx, after_singleton c v hu]

theorem after_head (c : Char) (v : Text) : after [c] (c :: v) = some v := by
  simp [after]

theorem before_append {c : Char} : ∀ {u : Text} (v : Text), c ∉ u → before c (u ++ c :: v) = some u
  | [], v, _ => by simp [before]
  | x :: u, v, h => by
    have hx : x ≠ c := fun heq => h (heq ▸ List.mem_cons_self ..)
    have hu : c ∉ u := fun hmem => h (List.mem_cons_of_mem x hmem)
    simp [before, hx, before_append v hu]

theorem before_eq_some {c : Char} : ∀ {t u : Text}, before c t = some u →
    c ∉ u ∧ ∃ rest, t = u ++ c :: rest
  | [], _, h => by cases h
  | x :: t, u, h => by
    rw [before] at h
    by_cases hx : x = c
    · rw [if_pos hx] at h
      cases h
      exact ⟨by simp, t, by rw [hx]; rfl⟩
    · rw [if_neg hx] at h
      obtain ⟨u', hu', rfl⟩ := Option.map_eq_some_iff.mp h
      obtain ⟨hnot, rest, rfl⟩ := before_eq_some hu'
      exact ⟨by simp [hnot, Ne.symm hx], rest, rfl⟩

/-- What precedes the last `c`, and what follows it. -/
def splitLast (c : Char) : Text → Option (Text × Text)
  | [] => none
  | x :: xs =>
    match splitLast c xs with
    | some (u, v) => some (x :: u, v)
    | none => if x = c then some ([], xs) else none

theorem splitLast_eq_none {c : Char} {t : Text} (h : c ∉ t) : splitLast c t = none := by
  induction t with
  | nil => rfl
  | cons x t ih =>
    have hx : x ≠ c := fun heq => h (heq ▸ List.mem_cons_self ..)
    simp [splitLast, ih fun hmem => h (List.mem_cons_of_mem x hmem), hx]

theorem splitLast_append {c : Char} (u : Text) {v : Text} (h : c ∉ v) :
    splitLast c (u ++ c :: v) = some (u, v) := by
  induction u with
  | nil => simp [splitLast, splitLast_eq_none h]
  | cons x u ih => simp [splitLast, ih]

/-! ## 2. Text cut by quotes -/

/-- The word in quotes. -/
def inQuotes (word : Text) : Text := '"' :: word ++ ['"']

/-- Pieces without quotes are equal if they and a quote start equal texts. -/
theorem isPrefixOf_quote : ∀ {word s : Text} (rest : Text), '"' ∉ word → '"' ∉ s →
    ((word ++ ['"']).isPrefixOf (s ++ '"' :: rest) = true ↔ word = s)
  | [], [], rest, _, _ => by simp
  | [], c :: s, rest, _, hs => by
    have hc : '"' ≠ c := fun heq => hs (heq ▸ List.mem_cons_self ..)
    simp [hc]
  | c :: word, [], rest, hw, _ => by
    have hc : c ≠ '"' := fun heq => hw (heq ▸ List.mem_cons_self ..)
    simp [hc]
  | c :: word, d :: s, rest, hw, hs => by
    have ih := isPrefixOf_quote rest (fun hmem => hw (List.mem_cons_of_mem c hmem))
      (fun hmem => hs (List.mem_cons_of_mem d hmem))
    simp only [List.cons_append, List.isPrefixOf_cons_cons, Bool.and_eq_true, beq_iff_eq, ih,
      List.cons.injEq]

/-- Nothing in quotes starts within a piece. -/
theorem after_inQuotes_piece (word : Text) : ∀ {s : Text} (rest : Text), '"' ∉ s →
    after (inQuotes word) (s ++ rest) = after (inQuotes word) rest
  | [], _, _ => rfl
  | c :: s, rest, hs => by
    have hc : '"' ≠ c := fun heq => hs (heq ▸ List.mem_cons_self ..)
    have htail : '"' ∉ s := fun hmem => hs (List.mem_cons_of_mem c hmem)
    rw [List.cons_append, after, if_neg (by simp [inQuotes, hc]),
      after_inQuotes_piece word rest htail]

/-- **A quoted word is found** where it stands. -/
theorem after_inQuotes_found (word rest : Text) :
    after (inQuotes word) ('"' :: (word ++ '"' :: rest)) = some rest := by
  have hsplit : '"' :: (word ++ '"' :: rest) = inQuotes word ++ rest := by simp [inQuotes]
  have hfound : (inQuotes word).isPrefixOf ('"' :: (word ++ '"' :: rest)) = true := by
    rw [hsplit]
    exact List.isPrefixOf_iff_prefix.mpr (List.prefix_append _ _)
  rw [after, if_pos hfound, hsplit, List.drop_left]

/-- **A piece between quotes that is another word is passed over**, up to its closing quote. -/
theorem after_inQuotes_skip {word x : Text} (rest : Text) (hword : '"' ∉ word) (hx : '"' ∉ x)
    (hne : x ≠ word) :
    after (inQuotes word) ('"' :: (x ++ '"' :: rest)) = after (inQuotes word) ('"' :: rest) := by
  have hnot : ¬ (inQuotes word).isPrefixOf ('"' :: (x ++ '"' :: rest)) = true := by
    simp only [inQuotes, List.cons_append, List.isPrefixOf_cons_cons, beq_self_eq_true,
      Bool.true_and]
    exact fun hpart => hne ((isPrefixOf_quote rest hword hx).mp hpart).symm
  rw [after, if_neg hnot, after_inQuotes_piece word _ hx]

/-! ## 3. Cutting at separators -/

section

variable (sep : Text → Option Text)

/-- Cut at separators: `sep` gives what follows a separator at the start of a text.  `skip`
characters still belong to one. -/
def splitGo (skip : Nat) (piece : Text) : Text → List Text
  | [] => [piece]
  | c :: cs =>
    match skip with
    | skip + 1 => splitGo skip piece cs
    | 0 =>
      match sep (c :: cs) with
      | none => splitGo 0 (piece ++ [c]) cs
      | some rest => piece :: splitGo (cs.length - rest.length) [] cs

/-- The pieces of a text. -/
def split (t : Text) : List Text := splitGo sep 0 [] t

theorem splitGo_skip : ∀ (x : Text) (piece rest : Text),
    splitGo sep x.length piece (x ++ rest) = splitGo sep 0 piece rest
  | [], _, _ => rfl
  | _ :: x, piece, rest => splitGo_skip x piece rest

/-- **The first piece ends at the first separator**: it starts the text, and no separator starts
inside it. -/
theorem splitGo_first :
    ∀ (t piece : Text), ∃ w pieces, splitGo sep 0 piece t = (piece ++ w) :: pieces
    ∧ w <+: t ∧ ∀ a b, t = a ++ b → b ≠ [] → (sep b).isSome → w.length ≤ a.length
  | [], piece => ⟨[], [], by simp [splitGo], List.nil_prefix, by simp⟩
  | c :: t, piece => by
    cases hsep : sep (c :: t) with
    | some rest =>
      refine ⟨[], splitGo sep (t.length - rest.length) [] t, ?_, List.nil_prefix, by simp⟩
      rw [splitGo, hsep, List.append_nil]
    | none =>
      obtain ⟨w, pieces, hsplit, ⟨v, hv⟩, hfirst⟩ := splitGo_first t (piece ++ [c])
      refine ⟨c :: w, pieces, ?_, ⟨v, by rw [List.cons_append, hv]⟩, ?_⟩
      · rw [splitGo, hsep]
        simp only
        rw [hsplit, List.append_assoc, List.singleton_append]
      · intro a b hab hb hsome
        cases a with
        | nil =>
          rw [List.nil_append] at hab
          rw [← hab, hsep] at hsome
          cases hsome
        | cons x a =>
          have htail : t = a ++ b := (List.cons.inj hab).2
          exact Nat.succ_le_succ (hfirst a b htail hb hsome)

/-- No separator starts within `u`, when `rest` follows. -/
def Uncut (u rest : Text) : Prop := ∀ a b, u = a ++ b → b ≠ [] → sep (b ++ rest) = none

variable {sep}

/-- **Where no separator starts, nothing is cut.** -/
theorem splitGo_uncut : ∀ {u : Text} (piece rest : Text), Uncut sep u rest →
    splitGo sep 0 piece (u ++ rest) = splitGo sep 0 (piece ++ u) rest
  | [], piece, rest, _ => by simp
  | c :: u, piece, rest, h => by
    have hnone : sep (c :: (u ++ rest)) = none := h [] (c :: u) rfl (by simp)
    have hu : Uncut sep u rest := fun a b hab hb => h (c :: a) b (by rw [hab]; rfl) hb
    rw [List.cons_append, splitGo, hnone]
    simp only
    rw [splitGo_uncut (piece ++ [c]) rest hu, List.append_assoc, List.singleton_append]

/-- **At a separator a piece ends.** -/
theorem splitGo_sep {c : Char} {s rest : Text} (piece : Text)
    (h : sep (c :: (s ++ rest)) = some rest) :
    splitGo sep 0 piece (c :: (s ++ rest)) = piece :: splitGo sep 0 [] rest := by
  have hlength : (s ++ rest).length - rest.length = s.length := by
    rw [List.length_append, Nat.add_sub_cancel]
  rw [splitGo, h]
  simp only
  rw [hlength, splitGo_skip]

theorem Uncut.append {u v rest : Text} (hu : Uncut sep u (v ++ rest)) (hv : Uncut sep v rest) :
    Uncut sep (u ++ v) rest := by
  intro a b hab hb
  rcases List.append_eq_append_iff.mp hab with ⟨a', rfl, hv'⟩ | ⟨b', hu', rfl⟩
  · exact hv a' b hv' hb
  · by_cases hb' : b' = []
    · subst hb'
      rw [List.nil_append] at hb ⊢
      exact hv [] v rfl hb
    · rw [List.append_assoc]
      exact hu a b' hu' hb'

end

end Text

end WebrtcBridge.Lib
