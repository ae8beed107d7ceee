/-
# Reading a field back

What `extractLong`, `extractInt`, `extractDouble` and `extractString` make of the fields of a
printed object.  A field is SOUND if both sides agree about it: the key and the value are JSON, and
the parser gets through it.  Numbers and fixed strings always are; only a free string may fail.
-/
import WebrtcBridge.Stats.Pieces

namespace WebrtcBridge.Stats

open Lib Lib.Text Lib.Json

/-! ## 1. Sound fields -/

/-- A field with a number without sign. -/
def counter (key : String) (n : Nat) : Field := (key.toList, .num (digits n))

/-- A key or a fixed string. -/
def IsName (t : Text) : Prop := IsWord t ∧ StringBody t

instance (t : Text) : Decidable (IsName t) := inferInstanceAs (Decidable (IsWord t ∧ StringBody t))

/-- A field that both sides agree about. -/
structure Field.Sound (f : Field) : Prop where
  clean : f.Clean
  key : StringBody f.1
  value : Derives .value f.2.text

/-- A string that does not get in the way of the parser. -/
def Neat (t : Text) : Prop := '"' ∉ t ∧ NoBorder t

instance (t : Text) : Decidable (Neat t) := inferInstanceAs (Decidable ('"' ∉ t ∧ NoBorder t))

theorem IsWord.neat {t : Text} (h : IsWord t) : Neat t := by
  refine ⟨h.1, fun b hb => ?_⟩
  obtain ⟨a, rfl⟩ := (List.mem_tails b t).mp hb
  cases b with
  | nil => rfl
  | cons c b =>
    have hc : c ≠ '\x7d' := by
      rintro rfl
      exact h.2.2.2 (by simp)
    exact borderRest_cons_of_ne hc b

theorem sound_str {k t : Text} (hk : IsName k) (ht : IsName t) : Field.Sound (k, .str t) :=
  ⟨⟨hk.1, ht.1.neat⟩, hk.2, .string ht.2⟩

theorem sound_num {k t : Text} (hk : IsName k) (htoken : IsToken t) (hnumber : Number t) :
    Field.Sound (k, .num t) :=
  ⟨⟨hk.1, htoken⟩, hk.2, .number hnumber⟩

theorem sound_counter {key : String} (hkey : IsName key.toList) (n : Nat) :
    Field.Sound (counter key n) :=
  sound_num hkey (isToken_digits n) (number_digits n)

/-! ## 2. Reading an object back -/

/-- What `extractLong` and `extractInt` make of a printed number. -/
def javaInteger (bound n : Nat) : Int := if n < bound then n else 0

theorem javaInteger_eq_self {bound n : Nat} (hbound : 0 < bound) :
    javaInteger bound n = n ↔ n < bound := by
  unfold javaInteger
  split <;> omega

section

variable {key : Text} {fs post : List Field} (hkey : IsWord key) (hfs : ∀ f ∈ fs, f.Clean)

include hkey hfs

theorem extractRaw_found {t : Text} (ht : IsToken t) (h : found key fs = some (.num t, post)) :
    extractRaw (fieldsText fs) key = .ok (some t) :=
  extractRaw_of_lookup ht (lookup_of_found hkey hfs h)

theorem extractInteger_found (bound : Nat) {n : Nat}
    (h : found key fs = some (.num (digits n), post)) :
    extractInteger bound (fieldsText fs) key = .ok (javaInteger bound n) := by
  simp only [extractInteger, extractRaw_found hkey hfs (isToken_digits n) h, Except.map,
    Option.bind_some, parseInteger_digits, javaInteger]
  split <;> rfl

theorem extractDouble_found {t : Text} (ht : IsToken t) (hdecimal : isDecimal t = true)
    (h : found key fs = some (.num t, post)) : extractDouble (fieldsText fs) key = .ok t := by
  simp only [extractDouble, extractRaw_found hkey hfs ht h, Except.map,
    Option.filter_some, hdecimal, if_true, Option.getD_some]

theorem extractString_found {s : Text} (hs : '"' ∉ s) (h : found key fs = some (.str s, post)) :
    extractString (fieldsText fs) key = some s := by
  have hlookup := lookup_of_found hkey hfs h
  rw [FieldValue.text, List.cons_append, List.append_assoc, List.singleton_append] at hlookup
  exact extractString_of_lookup hs hlookup

end

end WebrtcBridge.Stats
