/-
# Words

A text is read as the words between its spaces: several spaces in a row count as one, and there is
no empty word.  What a space is, is a parameter.

`words_cons` and `words_word` read a printed line back word by word; `isWord_of_mem_words` is what
makes the converse work, since whatever a reader finds is a word, and a text that is not a word can
never be found again.
-/
import Mathlib.Data.List.Basic

namespace WebrtcBridge.Lib

variable {α : Type} (space : α → Bool)

/-- A word: not empty, and without spaces. -/
def IsWord (w : List α) : Prop := w ≠ [] ∧ ∀ c ∈ w, space c = false

instance (w : List α) [DecidableEq α] : Decidable (IsWord space w) :=
  inferInstanceAs (Decidable (_ ∧ _))

/-- The words of a text, with the word that has begun. -/
def wordsGo (word : List α) : List α → List (List α)
  | [] => if word.isEmpty then [] else [word]
  | c :: rest =>
    if space c then
      if word.isEmpty then wordsGo [] rest else word :: wordsGo [] rest
    else wordsGo (word ++ [c]) rest

def words (t : List α) : List (List α) := wordsGo space [] t

variable {space}

/-- The letters of a word join the word that has begun. -/
theorem wordsGo_letters {w : List α} (hw : ∀ c ∈ w, space c = false) (word rest : List α) :
    wordsGo space word (w ++ rest) = wordsGo space (word ++ w) rest := by
  induction w generalizing word with
  | nil => simp
  | cons c w ih =>
    have hc : space c = false := hw c (by simp)
    rw [List.cons_append, wordsGo, hc, if_neg Bool.false_ne_true,
      ih fun d hd => hw d (List.mem_cons_of_mem c hd), List.append_assoc, List.singleton_append]

/-- **A word and a space behind it is read as that word.** -/
theorem words_cons {w : List α} (hw : IsWord space w) {c : α} (hc : space c = true)
    (rest : List α) : words space (w ++ c :: rest) = w :: words space rest := by
  have hne : w.isEmpty = false := by simpa using hw.1
  simp [words, wordsGo_letters hw.2, wordsGo, hc, hne]

theorem words_word {w : List α} (hw : IsWord space w) : words space w = [w] := by
  have hne : w.isEmpty = false := by simpa using hw.1
  have h := wordsGo_letters hw.2 [] []
  rw [List.append_nil, List.nil_append] at h
  rw [words, h, wordsGo, hne, if_neg Bool.false_ne_true]

theorem isWord_of_mem_wordsGo {t word : List α} (hword : ∀ c ∈ word, space c = false)
    {w : List α} (h : w ∈ wordsGo space word t) : IsWord space w := by
  -- the recursion of `wordsGo`: the word that has begun stays free of spaces
  fun_induction wordsGo space word t with
  | case1 word hempty => simp at h
  | case2 word hempty =>
    rw [List.mem_singleton.mp h]
    exact ⟨by simpa using hempty, hword⟩
  | case3 word c rest hc hempty ih => exact ih (by simp) h
  | case4 word c rest hc hempty ih =>
    rcases List.mem_cons.mp h with rfl | h
    · exact ⟨by simpa using hempty, hword⟩
    · exact ih (by simp) h
  | case5 word c rest hc ih =>
    refine ih (fun d hd => ?_) h
    rcases List.mem_append.mp hd with hd | hd
    · exact hword d hd
    · rw [List.mem_singleton.mp hd]
      exact Bool.eq_false_iff.mpr hc

/-- **Whatever is found is a word.** -/
theorem isWord_of_mem_words {t w : List α} (h : w ∈ words space t) : IsWord space w :=
  isWord_of_mem_wordsGo (by simp) h

end WebrtcBridge.Lib
