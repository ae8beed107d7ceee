/-
# The RTP payload format for AV1

A packet is an aggregation header byte `|Z|Y|W W|N|-|-|-|` and OBU elements.  `Z`: the first element
continues an OBU; `Y`: the last one will be continued; `W`: the number of elements, or 0; `N`: a
new coded video sequence starts.  Every element is preceded by its size as LEB128, except that with
`W` given the last one is not.

This is the format itself, as a function from the abstract packets of `Lib.Reassembly` to bytes.
The payloader has to produce it and the depacketizer has to read it.
-/
import WebrtcBridge.Lib.Leb128
import WebrtcBridge.Lib.Reassembly

namespace WebrtcBridge.Av1

open Lib Lib.Leb128

/-! ## 1. The header byte -/

/-- A flag at its place. -/
def flagBit (flag : Bool) (mask : UInt8) : UInt8 := if flag then mask else 0

/-- The aggregation header of given flags and `W`. -/
def aggregationByte (z y : Bool) (w : Fin 4) (n : Bool) : UInt8 :=
  flagBit z 0b10000000 ||| flagBit y 0b01000000 ||| (UInt8.ofNat w.val <<< 4)
    ||| flagBit n 0b00001000

/-- **The four fields can be read back** with their masks. -/
theorem aggregationByte_fields : ∀ (z y : Bool) (w : Fin 4) (n : Bool),
    (aggregationByte z y w n &&& 0b10000000 != 0) = z
      ∧ (aggregationByte z y w n &&& 0b01000000 != 0) = y
      ∧ ((aggregationByte z y w n &&& 0b00110000) >>> 4).toNat = w.val
      ∧ (aggregationByte z y w n &&& 0b00001000 != 0) = n := by
  decide

/-! ## 2. The elements -/

/-- Up to three elements are counted in `W`. -/
def countField (count : Nat) : Fin 4 := if h : count ≤ 3 then ⟨count, by omega⟩ else 0

theorem countField_of_le {count : Nat} (h : count ≤ 3) : (countField count).val = count := by
  simp [countField, h]

theorem countField_of_gt {count : Nat} (h : 3 < count) : countField count = 0 := by
  simp [countField, Nat.not_le.mpr h]

/-- Elements are either counted or more than three. -/
theorem countField_eq_zero_iff {count : Nat} (h : 0 < count) :
    ((countField count).val == 0) = decide (3 < count) := by
  rcases Nat.lt_or_ge 3 count with hgt | hle
  · rw [countField_of_gt hgt, decide_eq_true hgt]
    rfl
  · rw [countField_of_le hle, decide_eq_false (Nat.not_lt.mpr hle)]
    exact beq_false_of_ne (Nat.ne_of_gt h)

theorem countField_counts {count : Nat} (h : (countField count).val ≠ 0) :
    count = (countField count).val := by
  rcases Nat.lt_or_ge 3 count with hgt | hle
  · rw [countField_of_gt hgt] at h
    exact absurd rfl h
  · exact (countField_of_le hle).symm

/-- An element with its size in front. -/
def sizedElement (e : List UInt8) : List UInt8 := encode e.length ++ e

/-- The last element has its size in front only if the elements are not counted. -/
def lastElement (sized : Bool) (e : List UInt8) : List UInt8 :=
  if sized then sizedElement e else e

/-- All elements of a packet. -/
def elementsBytes (sized : Bool) : List (List UInt8) → List UInt8
  | [] => []
  | [e] => lastElement sized e
  | e :: e' :: es => sizedElement e ++ elementsBytes sized (e' :: es)

/-- **A packet on the wire.** -/
def wire (n : Bool) (p : Packet UInt8) : List UInt8 :=
  aggregationByte p.continued p.unfinished (countField p.pieces.length) n
    :: elementsBytes (3 < p.pieces.length) p.pieces

/-- The packets of a frame on the wire: `N` can only be set on the first. -/
def wires (n : Bool) : List (Packet UInt8) → List (List UInt8)
  | [] => []
  | p :: ps => wire n p :: ps.map (wire false)

theorem elementsBytes_cons {sized : Bool} {e : List UInt8} {es : List (List UInt8)} (h : es ≠ []) :
    elementsBytes sized (e :: es) = sizedElement e ++ elementsBytes sized es := by
  cases es with
  | nil => exact absurd rfl h
  | cons e' es => rfl

theorem elementsBytes_concat (sized : Bool) (e : List UInt8) : ∀ es : List (List UInt8),
    elementsBytes sized (es ++ [e]) = es.flatMap sizedElement ++ lastElement sized e
  | [] => rfl
  | e' :: es => by
    rw [List.cons_append, elementsBytes_cons (by simp), elementsBytes_concat sized e es,
      List.flatMap_cons, List.append_assoc]

theorem length_le_lastElement (sized : Bool) (e : List UInt8) :
    e.length ≤ (lastElement sized e).length := by
  cases sized <;> simp [lastElement, sizedElement]

/-- Elements that are not empty take a byte each at least. -/
theorem length_le_elementsBytes (sized : Bool) : ∀ es : List (List UInt8), (∀ e ∈ es, e ≠ []) →
    es.length ≤ (elementsBytes sized es).length
  | [], _ => Nat.zero_le _
  | [e], h => by
    have hpos : 0 < e.length := List.length_pos_of_ne_nil (h e (by simp))
    have hle := length_le_lastElement sized e
    simp only [elementsBytes, List.length_singleton]
    omega
  | e :: e' :: es, h => by
    have hpos : 0 < e.length := List.length_pos_of_ne_nil (h e (by simp))
    have ih := length_le_elementsBytes sized (e' :: es) fun x hx => h x (List.mem_cons_of_mem e hx)
    rw [elementsBytes_cons (by simp), List.length_append, sizedElement, List.length_append,
      List.length_cons]
    omega

end WebrtcBridge.Av1
