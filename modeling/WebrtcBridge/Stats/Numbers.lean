/-
# Printed numbers

The numbers in a stats report, as `format!` prints them: JSON numbers, and tokens that
`Long.parseLong`, `Integer.parseInt` and `Double.parseDouble` read back.  Where the number does not
fit into a `long` or an `int` they throw, and the callers take 0 (`extractInteger`).
-/
import WebrtcBridge.Lib.Json
import WebrtcBridge.Stats.Parser

namespace WebrtcBridge.Stats

open Lib Lib.Text Lib.Json

/-! ## 1. Tokens -/

/-- The characters of a printed number. -/
def isTokenChar (c : Char) : Bool := c.isDigit || c = '-' || c = '.'

/-- A text of such characters. -/
def IsToken (t : Text) : Prop := t ≠ [] ∧ ∀ c ∈ t, isTokenChar c = true

theorem isDigit_not_whitespace {c : Char} (h : c.isDigit = true) : isJavaWhitespace c = false := by
  simp only [Char.isDigit, Bool.and_eq_true, decide_eq_true_eq, ge_iff_le] at h
  simp only [isJavaWhitespace, isRegexSpace, Bool.or_eq_false_iff, Bool.and_eq_false_iff,
    decide_eq_false_iff_not, Char.ext_iff, Char.le_def]
  simp only [UInt32.le_iff_toNat_le, UInt32.ext_iff, Char.reduceVal, UInt32.reduceToNat] at h ⊢
  omega

theorem isTokenChar_not_whitespace {c : Char} (h : isTokenChar c = true) :
    isJavaWhitespace c = false := by
  simp only [isTokenChar, Bool.or_eq_true, decide_eq_true_eq] at h
  rcases h with (h | rfl) | rfl
  · exact isDigit_not_whitespace h
  · decide
  · decide

/-- Characters with another meaning do not occur in a number. -/
theorem IsToken.not_mem {t : Text} (h : IsToken t) {c : Char} (hc : isTokenChar c = false) :
    c ∉ t := by
  intro hmem
  rw [h.2 c hmem] at hc
  cases hc

theorem IsToken.append {t u : Text} (ht : IsToken t) (hu : ∀ c ∈ u, isTokenChar c = true) :
    IsToken (t ++ u) := by
  refine ⟨by simp [ht.1], ?_⟩
  intro c hc
  rcases List.mem_append.mp hc with hc | hc
  · exact ht.2 c hc
  · exact hu c hc

theorem isDigit_of_mem_digits {n : Nat} {c : Char} (h : c ∈ digits n) : c.isDigit = true :=
  Nat.isDigit_of_mem_toDigits (by decide) (by decide) h

theorem isToken_digits (n : Nat) : IsToken (digits n) :=
  ⟨Nat.toDigits_ne_nil, fun c hc => by simp [isTokenChar, isDigit_of_mem_digits hc]⟩

theorem isToken_minus {t : Text} (h : IsToken t) : IsToken ('-' :: t) := by
  refine ⟨by simp, ?_⟩
  rintro c hc
  rcases List.mem_cons.mp hc with rfl | hc
  · rfl
  · exact h.2 c hc

theorem isToken_signedDigits (n : Int) : IsToken (signedDigits n) := by
  unfold signedDigits
  split
  · exact isToken_minus (isToken_digits _)
  · exact isToken_digits _

/-- The digits behind the point. -/
def Decimal.fractionText (d : Decimal) : Text := d.fraction.map fun i => i.val.digitChar

theorem isDigit_of_mem_fractionText {d : Decimal} {c : Char} (h : c ∈ d.fractionText) :
    c.isDigit = true := by
  obtain ⟨i, -, rfl⟩ := List.mem_map.mp h
  simp [Nat.isDigit_digitChar]

/-- The text without the sign. -/
def Decimal.magnitude (d : Decimal) : Text :=
  digits d.whole ++ if d.fraction.isEmpty then [] else '.' :: d.fractionText

theorem Decimal.text_eq (d : Decimal) :
    d.text = if d.negative then '-' :: d.magnitude else d.magnitude := by
  obtain ⟨negative, whole, fraction⟩ := d
  cases negative <;> simp [Decimal.text, Decimal.magnitude, Decimal.fractionText]

theorem Decimal.isToken_text (d : Decimal) : IsToken d.text := by
  have hmagnitude : IsToken d.magnitude := by
    refine (isToken_digits d.whole).append ?_
    intro c hc
    split at hc
    · cases hc
    · rcases List.mem_cons.mp hc with rfl | hc
      · rfl
      · simp [isTokenChar, isDigit_of_mem_fractionText hc]
  rw [Decimal.text_eq]
  split
  · exact isToken_minus hmagnitude
  · exact hmagnitude

/-! ## 2. Reading them back -/

theorem digits_head {n : Nat} {c : Char} (hc : c.isDigit = false) : (digits n).head? ≠ some c := by
  intro h
  have hdigit := isDigit_of_mem_digits (List.mem_of_head? h)
  rw [hc] at hdigit
  cases hdigit

theorem digits_ok (n : Nat) : ((digits n).isEmpty || !(digits n).all Char.isDigit) = false := by
  simp only [Bool.or_eq_false_iff, List.isEmpty_eq_false_iff, Bool.not_eq_false', List.all_eq_true]
  exact ⟨Nat.toDigits_ne_nil, fun c hc => isDigit_of_mem_digits hc⟩

theorem ofDigitChars_digits (n : Nat) : Nat.ofDigitChars 10 (digits n) 0 = n :=
  Nat.ofDigitChars_ten_toDigits

/-- **An unsigned number is read back if it fits.** -/
theorem parseInteger_digits (bound n : Nat) :
    parseInteger bound (digits n) = if n < bound then some (n : Int) else none := by
  have hminus : (digits n).head? ≠ some '-' := digits_head (by decide)
  have hplus : (digits n).head? ≠ some '+' := digits_head (by decide)
  simp only [parseInteger, hminus, hplus, or_self, if_false, digits_ok, Bool.false_eq_true,
    ofDigitChars_digits]

theorem parseInteger_minus {bound n : Nat} (h : n ≤ bound) :
    parseInteger bound ('-' :: digits n) = some (-(n : Int)) := by
  simp only [parseInteger, List.head?_cons, true_or, if_true, List.tail_cons, digits_ok,
    Bool.false_eq_true, if_false, ofDigitChars_digits, h]

/-- **A signed number in range is read back.** -/
theorem parseInteger_signedDigits {bound : Nat} {n : Int} (hlow : -bound ≤ n) (hhigh : n < bound) :
    parseInteger bound (signedDigits n) = some n := by
  unfold signedDigits
  by_cases hneg : n < 0
  · rw [if_pos hneg, parseInteger_minus (by omega)]
    simp only [Option.some.injEq]
    omega
  · rw [if_neg hneg, parseInteger_digits, if_pos (by omega)]
    simp only [Option.some.injEq]
    omega

theorem takeWhile_digits (n : Nat) {u : Text} (hu : ∀ c, u.head? = some c → c.isDigit = false) :
    (digits n ++ u).takeWhile Char.isDigit = digits n := by
  rw [List.takeWhile_append_of_pos fun c hc => isDigit_of_mem_digits hc]
  cases u with
  | nil => simp
  | cons c u => simp [hu c rfl]

theorem dropWhile_digits (n : Nat) {u : Text} (hu : ∀ c, u.head? = some c → c.isDigit = false) :
    (digits n ++ u).dropWhile Char.isDigit = u := by
  rw [List.dropWhile_append_of_pos fun c hc => isDigit_of_mem_digits hc]
  cases u with
  | nil => rfl
  | cons c u => simp [hu c rfl]

/-- **A decimal number is taken.** -/
theorem Decimal.isDecimal_text (d : Decimal) : isDecimal d.text = true := by
  have hmagnitude : d.magnitude.head? ≠ some '-' := by
    have hne : digits d.whole ≠ [] := Nat.toDigits_ne_nil
    rw [Decimal.magnitude, List.head?_append_of_ne_nil _ hne]
    exact digits_head (by decide)
  have hstrip : (if d.text.head? = some '-' then d.text.tail else d.text) = d.magnitude := by
    rw [Decimal.text_eq]
    cases d.negative with
    | false => simp [hmagnitude]
    | true => simp
  have hpoint : ∀ c, (if d.fraction.isEmpty then [] else '.' :: d.fractionText).head? = some c →
      c.isDigit = false := by
    intro c hc
    split at hc
    · cases hc
    · cases hc
      decide
  have hne : (digits d.whole).isEmpty = false :=
    List.isEmpty_eq_false_iff.mpr Nat.toDigits_ne_nil
  simp only [isDecimal, hstrip]
  rw [Decimal.magnitude, takeWhile_digits _ hpoint, dropWhile_digits _ hpoint]
  by_cases hfraction : d.fraction.isEmpty
  · rw [if_pos hfraction]
    simp only [hne, Bool.not_false]
  · have htext : d.fractionText.isEmpty = false := by
      simpa [Decimal.fractionText] using hfraction
    rw [if_neg hfraction]
    simp only [hne, htext, Bool.not_false, decide_true, Bool.true_and, List.all_eq_true]
    exact fun c hc => isDigit_of_mem_fractionText hc

theorem isDecimal_digits (n : Nat) : isDecimal (digits n) = true := by
  have htext : (⟨false, n, []⟩ : Decimal).text = digits n := by simp [Decimal.text]
  rw [← htext]
  exact Decimal.isDecimal_text _

/-! ## 3. They are JSON numbers -/

/-- The automaton may be before a number or behind its sign. -/
def BeforeDigits (m : NumMode) : Prop := m = .start ∨ m = .minus

theorem numStep_first {m : NumMode} (hm : BeforeDigits m) {c : Char} (hc : c.isDigit = true)
    (hzero : c ≠ '0') : numStep m c = some .int := by
  have hminus : c ≠ '-' := by
    rintro rfl
    cases hc
  rcases hm with rfl | rfl
  · simp [numStep, hc, hzero, hminus]
  · simp [numStep, hc, hzero]

theorem feed_digits_pos {m : NumMode} (hm : BeforeDigits m) (n : Nat) (hn : 0 < n) :
    feed numStep m (digits n) = some .int := by
  induction n using Nat.strong_induction_on with
  | _ n ih =>
    by_cases hlt : n < 10
    · have hdigit : n.digitChar.isDigit = true := by simp [Nat.isDigit_digitChar, hlt]
      have hzero : n.digitChar ≠ '0' := by simpa [Nat.digitChar_eq_zero] using hn.ne'
      rw [digits, Nat.toDigits_of_lt_base hlt, feed, numStep_first hm hdigit hzero]
      rfl
    · have hdigit : (n % 10).digitChar.isDigit = true := by
        simp [Nat.isDigit_digitChar, Nat.mod_lt]
      have hsplit : digits n = digits (n / 10) ++ [(n % 10).digitChar] :=
        Nat.toDigits_of_base_le (by decide) (by omega)
      rw [hsplit, feed_of_feed (ih (n / 10) (by omega) (by omega)), feed]
      simp [numStep, hdigit, feed]

theorem feed_digits {m : NumMode} (hm : BeforeDigits m) (n : Nat) :
    feed numStep m (digits n) = some .zero ∨ feed numStep m (digits n) = some .int := by
  rcases Nat.eq_zero_or_pos n with rfl | hn
  · rcases hm with rfl | rfl
    · exact .inl rfl
    · exact .inl rfl
  · exact .inr (feed_digits_pos hm n hn)

theorem feed_fraction {t : Text} (ht : ∀ c ∈ t, c.isDigit = true) :
    feed numStep .frac t = some .frac := by
  induction t with
  | nil => rfl
  | cons c t ih =>
    rw [feed, numStep, if_pos (ht c (by simp))]
    exact ih fun x hx => ht x (List.mem_cons_of_mem c hx)

theorem feed_magnitude {m : NumMode} (hm : BeforeDigits m) (d : Decimal) :
    ∃ m', feed numStep m d.magnitude = some m' ∧ m'.accepting = true := by
  have hfraction : ∀ m₁, m₁ = .zero ∨ m₁ = .int →
      ∃ m', feed numStep m₁ (if d.fraction.isEmpty then [] else '.' :: d.fractionText) = some m'
        ∧ m'.accepting = true := by
    intro m₁ hm₁
    have haccepting : m₁.accepting = true := by
      rcases hm₁ with rfl | rfl <;> rfl
    have hpoint : numStep m₁ '.' = some .point := by
      rcases hm₁ with rfl | rfl <;> rfl
    by_cases hempty : d.fraction.isEmpty
    · exact ⟨m₁, by rw [if_pos hempty]; rfl, haccepting⟩
    · refine ⟨.frac, ?_, rfl⟩
      have hdigits := fun c => isDigit_of_mem_fractionText (d := d) (c := c)
      rw [if_neg hempty, feed, hpoint]
      cases hcase : d.fractionText with
      | nil => simp [Decimal.fractionText] at hcase; simp [hcase] at hempty
      | cons c t =>
        rw [hcase] at hdigits
        simp only [Option.bind_some, feed, numStep, hdigits c (by simp), if_true]
        exact feed_fraction fun x hx => hdigits x (List.mem_cons_of_mem c hx)
  rw [Decimal.magnitude]
  rcases feed_digits hm d.whole with hrun | hrun
  · rw [feed_of_feed hrun]
    exact hfraction _ (.inl rfl)
  · rw [feed_of_feed hrun]
    exact hfraction _ (.inr rfl)

/-- **A printed decimal is a JSON number.** -/
theorem Decimal.number_text (d : Decimal) : Number d.text := by
  rw [Decimal.text_eq]
  cases d.negative with
  | false => exact feed_magnitude (.inl rfl) d
  | true =>
    obtain ⟨m, hrun, hm⟩ := feed_magnitude (.inr rfl) d
    exact ⟨m, hrun, hm⟩

theorem number_signedDigits (n : Int) : Number (signedDigits n) := by
  have htext : signedDigits n = (⟨decide (n < 0), n.natAbs, []⟩ : Decimal).text := by
    unfold signedDigits
    split <;> rename_i hneg <;> simp [Decimal.text, hneg]
  rw [htext]
  exact Decimal.number_text _

theorem number_digits (n : Nat) : Number (digits n) := by
  have htext : (⟨false, n, []⟩ : Decimal).text = digits n := by simp [Decimal.text]
  rw [← htext]
  exact Decimal.number_text _

end WebrtcBridge.Stats
