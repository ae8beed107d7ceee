/-
# Byte streams cut by start codes

A byte stream format of video codecs: units one after another, each behind a START CODE, `00 00 01`
or `00 00 00 01`.  Inside a unit neither `00 00 00` nor `00 00 01` occurs, and a unit does not end
in `00`, so a start code can be told from data by looking at three bytes at any place.

Two facts about such streams are what a scanner is measured by:

* WHERE three bytes look like a start code (`startsCode_stream`): at the start codes, and one byte
  into the long ones, nowhere else;
* that cutting at the start codes gives the units back (`units_stream`).

For streams that are not of this form there is only a count: the pieces that cutting gives have,
with the last byte of their start codes, no more bytes other than zero than the stream has
(`weight_units_le`).
-/
import Mathlib.Algebra.Ring.Nat
import Mathlib.Data.List.Basic

namespace WebrtcBridge.Lib.AnnexB

/-! ## 1. Streams -/

/-- The next three bytes cannot stand inside a unit. -/
def startsCode : List UInt8 → Bool
  | a :: b :: x :: _ => a == 0 && b == 0 && (x == 0 || x == 1)
  | _ => false

/-- No start code inside, and no zero at the end for one to start with. -/
structure Clean (l : List UInt8) : Prop where
  inside : ∀ j < l.length, startsCode (l.drop j) = false
  last : l.getLast? ≠ some 0

/-- A unit and which of the two start codes stands before it. -/
structure Nal where
  long : Bool
  bytes : List UInt8
  ne_nil : bytes ≠ []
  clean : Clean bytes

def Nal.code (u : Nal) : List UInt8 := if u.long then [0, 0, 0, 1] else [0, 0, 1]

/-- The stream of the units. -/
def stream : List Nal → List UInt8
  | [] => []
  | u :: us => u.code ++ (u.bytes ++ stream us)

/-- A stream cut at its start codes; `unit` is the unit that is being collected, if one has
started. -/
def unitsGo (unit : Option (List UInt8)) : List UInt8 → List (List UInt8)
  | [] => unit.toList
  | 0 :: 0 :: 1 :: rest => unit.toList ++ unitsGo (some []) rest
  | 0 :: 0 :: 0 :: 1 :: rest => unit.toList ++ unitsGo (some []) rest
  | b :: rest => unitsGo (unit.map (· ++ [b])) rest

/-- The units of a stream. -/
def units (l : List UInt8) : List (List UInt8) := unitsGo none l

/-! ## 2. Where a start code is seen -/

theorem startsCode_of_first {a : UInt8} (h : a ≠ 0) : ∀ t, startsCode (a :: t) = false
  | [] | [_] => rfl
  | _ :: _ :: _ => by simp [startsCode, h]

theorem startsCode_of_second (a : UInt8) {b : UInt8} (h : b ≠ 0) :
    ∀ t, startsCode (a :: b :: t) = false
  | [] => rfl
  | _ :: _ => by simp [startsCode, h]

theorem Clean.tail {b : UInt8} {g : List UInt8} (h : Clean (b :: g)) : Clean g where
  inside j hj := h.inside (j + 1) (Nat.succ_lt_succ hj)
  last := by
    rcases g with - | ⟨c, g⟩
    · simp
    · simpa using h.last

/-- Whatever follows, no start code is seen from inside. -/
theorem Clean.append {l : List UInt8} (h : Clean l) (t : List UInt8) {j : Nat} (hj : j < l.length) :
    startsCode ((l ++ t).drop j) = false := by
  have hin := h.inside j hj
  have hlast : (l.drop j).getLast? ≠ some 0 := by
    rw [List.getLast?_drop, if_neg (by omega)]
    exact h.last
  have hne : l.drop j ≠ [] := by simp [List.drop_eq_nil_iff, hj]
  rw [List.drop_append_of_le_length (Nat.le_of_lt hj)]
  generalize l.drop j = d at hin hlast hne
  match d, hin, hlast, hne with
  | [a], _, hlast, _ => exact startsCode_of_first (by simpa using hlast) t
  | [a, b], _, hlast, _ => exact startsCode_of_second a (by simpa using hlast) t
  | a :: b :: c :: d, hin, _, _ => simpa [startsCode] using hin

/-- Where three bytes look like a start code, for units from `pos` on: at a start code, and one byte
into a long one. -/
def CodeAt : Nat → List Nal → Nat → Prop
  | _, [], _ => False
  | pos, u :: us, j =>
    j = pos ∨ (u.long = true ∧ j = pos + 1) ∨ CodeAt (pos + u.code.length + u.bytes.length) us j

theorem CodeAt.le : ∀ {us : List Nal} {pos j : Nat}, CodeAt pos us j → pos ≤ j
  | u :: us, pos, j, h => by
    rcases h with h | ⟨-, h⟩ | h
    · omega
    · omega
    · have := CodeAt.le h
      omega

theorem codeAt_add (d : Nat) : ∀ (us : List Nal) (pos j : Nat),
    CodeAt (d + pos) us (d + j) ↔ CodeAt pos us j
  | [], _, _ => Iff.rfl
  | u :: us, pos, j => by
    rw [CodeAt, CodeAt, Nat.add_assoc d, Nat.add_assoc d, Nat.add_assoc d, codeAt_add d us,
      Nat.add_left_cancel_iff, Nat.add_left_cancel_iff]

/-- Behind the first start code stands the first unit. -/
theorem drop_code (u : Nal) (us : List Nal) (k : Nat) :
    (stream (u :: us)).drop (u.code.length + k) = (u.bytes ++ stream us).drop k := by
  rw [stream, ← List.drop_drop, List.drop_left]

theorem startsCode_code (u : Nal) (t : List UInt8) {k : Nat} (hk : k < u.code.length) :
    startsCode ((u.code ++ t).drop k) = true ↔ k = 0 ∨ (u.long = true ∧ k = 1) := by
  cases hlong : u.long with
  | false =>
    have hcode : u.code = [0, 0, 1] := by simp [Nal.code, hlong]
    rw [hcode] at hk ⊢
    match k, hk with
    | 0, _ => simp [startsCode]
    | 1, _ => simp [startsCode_of_second]
    | 2, _ => simp [startsCode_of_first]
  | true =>
    have hcode : u.code = [0, 0, 0, 1] := by simp [Nal.code, hlong]
    rw [hcode] at hk ⊢
    match k, hk with
    | 0, _ => simp [startsCode]
    | 1, _ => simp [startsCode]
    | 2, _ => simp [startsCode_of_second]
    | 3, _ => simp [startsCode_of_first]

/-- **Where a start code is seen** in a stream that begins within a unit. -/
theorem startsCode_stream (us : List Nal) : ∀ {g : List UInt8} (j : Nat), Clean g →
    (startsCode ((g ++ stream us).drop j) = true ↔ CodeAt g.length us j) := by
  induction us with
  | nil =>
    intro g j hg
    by_cases hj : j < g.length
    · simp [hg.append _ hj, CodeAt]
    · have hend : (g ++ stream []).drop j = [] := by
        rw [stream, List.append_nil, List.drop_eq_nil_iff]
        omega
      simp [hend, startsCode, CodeAt]
  | cons u us ih =>
    intro g j hg
    by_cases hj : j < g.length
    · have hnot : ¬ CodeAt g.length (u :: us) j := fun h => by
        have := h.le
        omega
      simp [hg.append _ hj, hnot]
    · obtain ⟨k, rfl⟩ : ∃ k, j = g.length + k := ⟨j - g.length, by omega⟩
      rw [← List.drop_drop, List.drop_left, CodeAt]
      by_cases hk : k < u.code.length
      · -- at the start code
        have hfar : ¬ CodeAt (g.length + u.code.length + u.bytes.length) us (g.length + k) :=
          fun h => by
            have := h.le
            omega
        rw [stream, startsCode_code u _ hk]
        simp only [hfar, or_false, Nat.add_eq_left, Nat.add_left_cancel_iff]
      · -- behind it, where the next unit begins
        obtain ⟨m, rfl⟩ : ∃ m, k = u.code.length + m := ⟨k - u.code.length, by omega⟩
        have hcode : 2 < u.code.length := by
          rw [Nal.code]
          split <;> decide
        have hshift : CodeAt (g.length + u.code.length + u.bytes.length) us
            (g.length + (u.code.length + m)) ↔ CodeAt u.bytes.length us m := by
          rw [← Nat.add_assoc]
          exact codeAt_add (g.length + u.code.length) us _ _
        rw [drop_code, ih m u.clean, hshift]
        refine ⟨fun h => .inr (.inr h), ?_⟩
        rintro (h | ⟨-, h⟩ | h)
        · omega
        · omega
        · exact h

theorem Clean.cons_one {g : List UInt8} (hg : Clean g) (hne : g ≠ []) : Clean (1 :: g) where
  inside
    | 0, _ => startsCode_of_first (by decide) g
    | j + 1, hj => hg.inside j (by simpa using hj)
  last := by
    rw [List.getLast?_cons_of_ne_nil hne]
    exact hg.last

/-- Three bytes behind a place where a start code is seen there is a unit, or the last byte of the
start code and a unit. -/
theorem drop_codeAt (us : List Nal) : ∀ {g : List UInt8} {j : Nat}, CodeAt g.length us j →
    ∃ g' us', g' ≠ [] ∧ Clean g' ∧ (g ++ stream us).drop (j + 3) = g' ++ stream us' := by
  induction us with
  | nil => exact fun h => h.elim
  | cons u us ih =>
    intro g j h
    rcases h with rfl | ⟨hlong, rfl⟩ | h
    · rw [← List.drop_drop, List.drop_left, stream]
      cases hlong : u.long with
      | false => exact ⟨u.bytes, us, u.ne_nil, u.clean, by simp [Nal.code, hlong]⟩
      | true =>
        exact ⟨1 :: u.bytes, us, by simp, u.clean.cons_one u.ne_nil, by simp [Nal.code, hlong]⟩
    · refine ⟨u.bytes, us, u.ne_nil, u.clean, ?_⟩
      rw [Nat.add_assoc, ← List.drop_drop, List.drop_left, stream]
      simp [Nal.code, hlong]
    · obtain ⟨m, rfl⟩ : ∃ m, j = g.length + u.code.length + m :=
        ⟨j - (g.length + u.code.length), by have := h.le; omega⟩
      obtain ⟨g', us', hne, hclean, hdrop⟩ := ih ((codeAt_add _ us _ m).mp h)
      refine ⟨g', us', hne, hclean, ?_⟩
      rw [Nat.add_assoc, Nat.add_assoc, ← List.drop_drop, List.drop_left, drop_code, hdrop]

/-! ## 3. Cutting -/

theorem unitsGo_code (unit : Option (List UInt8)) (u : Nal) (t : List UInt8) :
    unitsGo unit (u.code ++ t) = unit.toList ++ unitsGo (some []) t := by
  cases hlong : u.long <;> simp [Nal.code, hlong, unitsGo]

/-- Where no start code is seen the byte belongs to the unit. -/
theorem unitsGo_byte (unit : Option (List UInt8)) {b : UInt8} {rest : List UInt8}
    (h : startsCode (b :: rest) = false) :
    unitsGo unit (b :: rest) = unitsGo (unit.map (· ++ [b])) rest := by
  rw [unitsGo.eq_def]
  split
  · next heq => cases heq
  · next heq => simp [heq, startsCode] at h
  · next heq => simp [heq, startsCode] at h
  · next heq =>
    cases heq
    rfl

theorem unitsGo_clean : ∀ {g t : List UInt8} (unit : List UInt8),
    (∀ j < g.length, startsCode ((g ++ t).drop j) = false) →
    unitsGo (some unit) (g ++ t) = unitsGo (some (unit ++ g)) t
  | [], t, unit, _ => by simp
  | b :: g, t, unit, h => by
    have htail : ∀ j < g.length, startsCode ((g ++ t).drop j) = false :=
      fun j hj => h (j + 1) (Nat.succ_lt_succ hj)
    have hbyte : startsCode (b :: (g ++ t)) = false := h 0 (Nat.succ_pos _)
    rw [List.cons_append, unitsGo_byte _ hbyte, Option.map_some,
      unitsGo_clean (unit ++ [b]) htail, List.append_assoc, List.singleton_append]

theorem unitsGo_stream : ∀ (us : List Nal) (u : Nal),
    unitsGo (some []) (u.bytes ++ stream us) = u.bytes :: us.map (·.bytes)
  | [], u => by
    rw [unitsGo_clean [] fun j hj => u.clean.append _ hj]
    simp [stream, unitsGo]
  | v :: us, u => by
    rw [unitsGo_clean [] fun j hj => u.clean.append _ hj, stream, unitsGo_code, unitsGo_stream us v]
    rfl

/-- **Cutting gives the units back.** -/
theorem units_stream : ∀ us : List Nal, units (stream us) = us.map (·.bytes)
  | [] => rfl
  | u :: us => by
    rw [units, stream, unitsGo_code, unitsGo_stream]
    rfl

/-! ## 4. Counting -/

/-- How many bytes are not zero. -/
def nonzero (l : List UInt8) : Nat := l.countP (· ≠ 0)

@[simp] theorem nonzero_nil : nonzero [] = 0 := rfl

@[simp] theorem nonzero_append (l m : List UInt8) : nonzero (l ++ m) = nonzero l + nonzero m :=
  List.countP_append

theorem Clean.nonzero_pos {g : List UInt8} (hg : Clean g) (hne : g ≠ []) : 0 < nonzero g := by
  rw [nonzero, List.countP_pos_iff]
  refine ⟨g.getLast hne, List.getLast_mem hne, ?_⟩
  have hlast := hg.last
  rw [List.getLast?_eq_some_getLast hne] at hlast
  simpa using hlast

/-- Units with the byte that ends their start code. -/
def weight (us : List (List UInt8)) : Nat := (us.map fun u => nonzero u + 1).sum

theorem nonzero_cons (b : UInt8) (l : List UInt8) :
    nonzero (b :: l) = nonzero l + if b = 0 then 0 else 1 := by
  by_cases h : b = 0 <;> simp [nonzero, h]

theorem weight_unitsGo_le (unit : Option (List UInt8)) (l : List UInt8) :
    weight (unitsGo unit l) ≤ weight unit.toList + nonzero l := by
  fun_induction unitsGo unit l with
  | case1 unit => simp
  | case2 unit rest ih =>
    simp [weight, nonzero_cons] at ih ⊢
    omega
  | case3 unit rest ih =>
    simp [weight, nonzero_cons] at ih ⊢
    omega
  | case4 unit b rest h1 h2 ih =>
    cases unit with
    | none | some unit =>
      simp [weight, nonzero_cons] at ih ⊢
      omega

/-- **What cutting gives is in the stream.** -/
theorem weight_units_le (l : List UInt8) : weight (units l) ≤ nonzero l := by
  simpa [units, weight] using weight_unitsGo_le none l

theorem Nal.nonzero_code (u : Nal) : nonzero u.code = 1 := by
  rw [Nal.code]
  split <;> decide

theorem weight_stream (us : List Nal) : weight (us.map (·.bytes)) = nonzero (stream us) := by
  induction us with
  | nil => rfl
  | cons u us ih =>
    rw [stream, nonzero_append, nonzero_append, ← ih, u.nonzero_code]
    simp [weight]
    omega

end WebrtcBridge.Lib.AnnexB
