/-
# The Java port against the Rust original

`docs/save-to-disk-av1.md` calls the Java class a straight port of the engine's depacketizer.  The
two loops are the same statement by statement.  What differs is the numbers they compute with:

* an unfinished LEB128 field is an error in Rust, while Java takes what there is;
* a field of more than eight bytes loses its FIRST bytes in Rust and its last ones in Java;
* a length field of more than 31 bits is a large `usize` in Rust and a negative `int` in Java, and a
  sum beyond `int` wraps;
* an `obu_size` is cut to 32 bits in Rust and not in Java.

`PayloadFits` says of a payload, in a given state of the buffer, that the fields the walk over it
comes to are none of these, and that what the call can make of it fits into a Java array.  Then the
two walks are in lockstep (`TurnAgrees`), and along every run of such payloads the port returns what
the original returns, throws an `IOException` where the original returns an error, and keeps the
same buffer (`port_agrees`).  Two bytes suffice for it to do something else (`port_differs`).
-/
import WebrtcBridge.Lib.Runs
import WebrtcBridge.Av1.Depacketizer
import WebrtcBridge.Av1.RustDepacketizer

namespace WebrtcBridge.Av1

open Lib Lib.Leb128

/-! ## 1. Fields on which the two agree -/

/-- A length field at `offset`: at most eight bytes, an end within the range of an `int`, and if it
is unfinished it does not read as zero. -/
structure LengthFits (offset : Nat) (bytes : List UInt8) : Prop where
  short : (field bytes).length ≤ 8
  inside : offset + (field bytes).length + value (field bytes) % 2 ^ 32 < 2 ^ 31
  ended : Field (field bytes) ∨ value (field bytes) % 2 ^ 32 ≠ 0

/-- An `obu_size` behind a header of `headerSize` bytes: at most eight bytes, not right by its low
32 bits alone, and if it is unfinished it does not read as zero. -/
structure SizeFits (headerSize : Nat) (obu : List UInt8) : Prop where
  short : (field (obu.drop headerSize)).length ≤ 8
  small : value (field (obu.drop headerSize)) < 2 ^ 32
    ∨ headerSize + (field (obu.drop headerSize)).length
        + value (field (obu.drop headerSize)) % 2 ^ 32 ≠ obu.length
  ended : Field (field (obu.drop headerSize)) ∨ field (obu.drop headerSize) = []
    ∨ value (field (obu.drop headerSize)) ≠ 0

instance (offset : Nat) (bytes : List UInt8) : Decidable (LengthFits offset bytes) :=
  decidable_of_iff
    ((field bytes).length ≤ 8
      ∧ offset + (field bytes).length + value (field bytes) % 2 ^ 32 < 2 ^ 31
      ∧ (Field (field bytes) ∨ value (field bytes) % 2 ^ 32 ≠ 0))
    ⟨fun h => ⟨h.1, h.2.1, h.2.2⟩, fun h => ⟨h.1, h.2, h.3⟩⟩

instance (headerSize : Nat) (obu : List UInt8) : Decidable (SizeFits headerSize obu) :=
  decidable_of_iff
    ((field (obu.drop headerSize)).length ≤ 8
      ∧ (value (field (obu.drop headerSize)) < 2 ^ 32
        ∨ headerSize + (field (obu.drop headerSize)).length
            + value (field (obu.drop headerSize)) % 2 ^ 32 ≠ obu.length)
      ∧ (Field (field (obu.drop headerSize)) ∨ field (obu.drop headerSize) = []
        ∨ value (field (obu.drop headerSize)) ≠ 0))
    ⟨fun h => ⟨h.1, h.2.1, h.2.2⟩, fun h => ⟨h.1, h.2, h.3⟩⟩

section

variable (overflowChecks : Bool) (payload : List UInt8) (obuZ obuY : Bool) (obuCount : Nat)

/-- The turn writes the OBU: it is not lost, not kept for the next payload and not of a dropped
type. -/
def completes (r : Rust.State) (h : Rust.Head) : Bool :=
  !(Rust.continues obuZ r && r.buffer.isEmpty) && !(h.isLast && obuY)
    && !((Rust.obuBuffer payload obuZ r h).isEmpty
      || Rust.isDropped ((Rust.obuBuffer payload obuZ r h).headD 0))

/-- The size field of the OBU that a turn writes. -/
def SizeFieldFits (r : Rust.State) (h : Rust.Head) : Prop :=
  h.offset + h.lengthField ≤ payload.length → completes payload obuZ obuY r h = true →
    obuHasSize ((Rust.obuBuffer payload obuZ r h).headD 0) = true →
    SizeFits (headerSize ((Rust.obuBuffer payload obuZ r h).headD 0))
      (Rust.obuBuffer payload obuZ r h)

instance (r : Rust.State) (h : Rust.Head) : Decidable (SizeFieldFits payload obuZ obuY r h) :=
  inferInstanceAs (Decidable (_ → _ → _ → SizeFits _ _))

/-- The fields a turn reads. -/
def TurnFits (r : Rust.State) : Prop :=
  (Rust.hasLengthField obuCount r.obuOffset = true → LengthFits r.offset (payload.drop r.offset))
    ∧ ∀ h ∈ Rust.readHead payload obuCount r.offset r.obuOffset, SizeFieldFits payload obuZ obuY r h

instance (r : Rust.State) : Decidable (TurnFits payload obuZ obuY obuCount r) :=
  inferInstanceAs (Decidable ((_ → LengthFits _ _) ∧ ∀ h ∈ Rust.readHead payload obuCount _ _, _))

/-- The fields of all turns. -/
def LoopFits : Nat → Rust.State → Prop
  | 0, _ => True
  | fuel + 1, r => r.offset < payload.length →
    TurnFits payload obuZ obuY obuCount r
      ∧ match Rust.turn overflowChecks payload obuZ obuY obuCount r with
        | .next r' => LoopFits fuel r'
        | _ => True

instance decidableLoopFits : ∀ (fuel : Nat) (r : Rust.State),
    Decidable (LoopFits overflowChecks payload obuZ obuY obuCount fuel r)
  | 0, _ => .isTrue trivial
  | fuel + 1, r =>
    have : Decidable (match Rust.turn overflowChecks payload obuZ obuY obuCount r with
        | .next r' => LoopFits overflowChecks payload obuZ obuY obuCount fuel r'
        | _ => True) :=
      match Rust.turn overflowChecks payload obuZ obuY obuCount r with
      | .next r' => decidableLoopFits fuel r'
      | .stop _ | .err _ | .panicked => .isTrue trivial
    inferInstanceAs (Decidable (_ → _ ∧ _))

end

/-- **A payload on which the port does what the original does**, when `buffer` is kept from
before. -/
structure PayloadFits (overflowChecks : Bool) (buffer payload : List UInt8) : Prop where
  space : 6 * (buffer.length + payload.length) < 2 ^ 31
  fields : LoopFits overflowChecks payload (Rust.readHeader payload).z (Rust.readHeader payload).y
    (Rust.readHeader payload).count payload.length (Rust.start buffer (Rust.readHeader payload))

instance (overflowChecks : Bool) (buffer payload : List UInt8) :
    Decidable (PayloadFits overflowChecks buffer payload) :=
  decidable_of_iff
    (6 * (buffer.length + payload.length) < 2 ^ 31
      ∧ LoopFits overflowChecks payload (Rust.readHeader payload).z (Rust.readHeader payload).y
        (Rust.readHeader payload).count payload.length
        (Rust.start buffer (Rust.readHeader payload)))
    ⟨fun h => ⟨h.1, h.2⟩, fun h => ⟨h.1, h.2⟩⟩

/-! ## 2. Heads -/

section

variable {overflowChecks : Bool} {payload : JavaBytes} {obuZ obuY : Bool} {obuCount : Nat}

theorem toInt_value {v : Nat} (h : v % 2 ^ 32 < 2 ^ 31) : toInt (v : Int) = (v % 2 ^ 32 : Nat) := by
  have hmod : ((v : Int) % (2 ^ 32 : Nat)) = (v % 2 ^ 32 : Nat) := by omega
  rw [toInt, Int.bmod_def, hmod, if_pos (by omega)]

/-- `readLeb128` in Java, at a place inside the array. -/
theorem readLeb128_any {bytes : List UInt8} {offset : Nat}
    (h : (field (bytes.drop offset)).length ≤ 8) :
    readLeb128 bytes offset
      = .ok ((value (field (bytes.drop offset)) : Int),
        ((field (bytes.drop offset)).length : Int)) := by
  have hpos : ¬ ((offset : Int) < 0) := by omega
  have hvalue : value (field (bytes.drop offset)) < 2 ^ 56 := by
    have hlt := value_lt (field (bytes.drop offset))
    have hle : 128 ^ (field (bytes.drop offset)).length ≤ 128 ^ 8 :=
      Nat.pow_le_pow_right (by decide) h
    omega
  have hlong : toLong (value (field (bytes.drop offset)) : Int)
      = value (field (bytes.drop offset)) :=
    toLong_eq (by omega) (by omega)
  simp only [readLeb128, hpos, if_false, Int.toNat_natCast, javaReadLoop_any _ h, hlong]

theorem isLast_eq (obuCount obuOffset : Nat) :
    (obuCount != 0 && obuOffset == obuCount - 1)
      = (obuCount != 0 && obuOffset + 1 == obuCount) := by
  rw [Bool.eq_iff_iff]
  simp only [Bool.and_eq_true, bne_iff_ne, beq_iff_eq]
  omega

/-- Java's head, where there is a length field `f`. -/
theorem readHead_lengthField {offset obuOffset : Nat} {f : List UInt8}
    (hinside : offset < payload.data.length) (hf : field (payload.data.drop offset) = f)
    (hfield : Rust.hasLengthField obuCount obuOffset = true)
    (hfit : LengthFits offset (payload.data.drop offset)) :
    f ≠ [] ∧ readHead payload obuCount offset obuOffset
      = .ok ⟨((offset + f.length : Nat) : Int), ((value f % 2 ^ 32 : Nat) : Int),
          (obuCount != 0 && obuOffset == obuCount - 1)
            || (obuCount == 0 && offset + f.length + value f % 2 ^ 32 == payload.data.length)⟩ := by
  have hlimit : offset + f.length + value f % 2 ^ 32 < 2 ^ 31 := hf ▸ hfit.inside
  have hread := readLeb128_any hfit.short
  rw [hf] at hread
  have hne : f ≠ [] := by
    rcases hdrop : payload.data.drop offset with - | ⟨b, bs⟩
    · rw [List.drop_eq_nil_iff] at hdrop
      omega
    · rw [← hf, hdrop, field]
      split <;> simp
  have hlength : 0 < f.length := List.length_pos_of_ne_nil hne
  refine ⟨hne, ?_⟩
  have hn : toInt (f.length : Int) = f.length := toInt_eq (by omega) (by omega)
  have hoffset : toInt ((offset : Int) + f.length) = (offset + f.length : Nat) := by
    rw [toInt_eq (by omega) (by omega)]
    omega
  have hlen : toInt (value f : Int) = (value f % 2 ^ 32 : Nat) := toInt_value (by omega)
  have hend : toInt (((offset + f.length : Nat) : Int) + (value f % 2 ^ 32 : Nat))
      = (offset + f.length + value f % 2 ^ 32 : Nat) := by
    rw [toInt_eq (by omega) (by omega)]
    omega
  have hzero : ¬ ((f.length : Int) = 0) := by omega
  have hcond : (obuCount == 0 || !(obuCount != 0 && obuOffset + 1 == obuCount)) = true := by
    rw [← isLast_eq]
    exact hfield
  have hlast : (((offset + f.length + value f % 2 ^ 32 : Nat) : Int) == (payload.data.length : Int))
      = (offset + f.length + value f % 2 ^ 32 == payload.data.length) := by
    rw [Bool.eq_iff_iff]
    simp only [beq_iff_eq]
    omega
  simp only [readHead, hcond, if_true, hread, hn, hzero, if_false, hoffset, hlen, hend, hlast,
    isLast_eq]

/-- Where Rust reads a head, Java reads the same one; where Rust finds the length field unfinished,
Java reads a length that is too large. -/
theorem readHead_agrees {offset obuOffset : Nat} (hinside : offset < payload.data.length)
    (hfit : Rust.hasLengthField obuCount obuOffset = true →
      LengthFits offset (payload.data.drop offset)) :
    (∃ h, Rust.readHead payload.data obuCount offset obuOffset = some h
        ∧ readHead payload obuCount offset obuOffset = .ok ⟨h.offset, h.lengthField, h.isLast⟩
        ∧ h.offset + h.lengthField < 2 ^ 31 ∧ offset ≤ h.offset)
      ∨ (Rust.readHead payload.data obuCount offset obuOffset = none
        ∧ ∃ h, readHead payload obuCount offset obuOffset = .ok h
          ∧ (payload.data.length : Int) < toInt (h.offset + h.lengthField)) := by
  have hpayload := payload.length_lt
  cases hfield : Rust.hasLengthField obuCount obuOffset with
  | true =>
    have hfit := hfit hfield
    obtain ⟨f, hf⟩ : ∃ f, field (payload.data.drop offset) = f := ⟨_, rfl⟩
    obtain ⟨hne, hjava⟩ := readHead_lengthField hinside hf hfield hfit
    have hlength := List.length_pos_of_ne_nil hne
    have hrust := rustReadLeb128_field _ hfit.short
    have hlimit := hfit.inside
    rw [hf] at hrust hlimit
    by_cases hended : Field f
    · rw [if_pos hended] at hrust
      have hhead : Rust.readHead payload.data obuCount offset obuOffset
          = some ⟨offset + f.length, value f % 2 ^ 32,
              (obuCount != 0 && obuOffset == obuCount - 1)
                || (obuCount == 0 && offset + f.length + value f % 2 ^ 32 ==
                  payload.data.length)⟩ := by
        simp only [Rust.readHead, hfield, if_true, hrust, Nat.ne_of_gt hlength, if_false]
      exact .inl ⟨_, hhead, hjava, hlimit, Nat.le_add_right _ _⟩
    · rw [if_neg hended] at hrust
      -- the field reaches to the end of the payload
      have hend : f.length = payload.data.length - offset := by
        rcases field_cases (payload.data.drop offset) with ⟨h, -⟩ | ⟨-, h, -⟩
        · exact absurd (hf ▸ h) hended
        · rw [← hf, h, List.length_drop]
      have hvalue : value f % 2 ^ 32 ≠ 0 := (hf ▸ hfit.ended).resolve_left hended
      refine .inr ⟨?_, _, hjava, ?_⟩
      · simp only [Rust.readHead, hfield, if_true, hrust]
      · dsimp only
        rw [toInt_eq (by omega) (by omega)]
        omega
  | false =>
    have hcond : (obuCount == 0 || !(obuCount != 0 && obuOffset + 1 == obuCount)) = false := by
      rw [← isLast_eq]
      exact hfield
    have hrest : toInt ((payload.data.length : Int) - offset)
        = (payload.data.length - offset : Nat) := by
      rw [toInt_eq (by omega) (by omega)]
      omega
    refine .inl ⟨⟨offset, payload.data.length - offset, true⟩, ?_, ?_, by dsimp only; omega,
      Nat.le_refl _⟩
    · simp only [Rust.readHead, hfield, Bool.false_eq_true, if_false]
    · simp only [readHead, hcond, Bool.false_eq_true, if_false, hrest]

/-! ## 3. Writing -/

theorem lebLoop_length : ∀ fuel n : Nat, (lebLoop fuel n).length ≤ fuel
  | 0, _ => Nat.le_refl 0
  | fuel + 1, n => by
    rw [lebLoop]
    split
    · simp
    · have ih := lebLoop_length fuel (n >>> 7)
      rw [List.length_cons]
      omega

/-- Java writes the size that Rust writes, that of `u32::MAX` included. -/
theorem writeLeb128_payloadSize {length headerSize : Nat} (hlength : length < 2 ^ 31)
    (hheader : headerSize ≤ 2) :
    writeLeb128 ((length : Int) - headerSize)
      = putLeb128 ((2 ^ 64 + length - headerSize) % 2 ^ 64) := by
  have hmod : (((length : Int) - headerSize) % 2 ^ 32).toNat
      = (2 ^ 64 + length - headerSize) % 2 ^ 64 % 2 ^ 32 := by omega
  rw [writeLeb128, putLeb128, hmod]

theorem headerSize_le (header : UInt8) : 1 ≤ headerSize header ∧ headerSize header ≤ 2 := by
  unfold headerSize
  split <;> omega

/-- The two write the same, or both refuse. -/
def WriteAgrees (room : Nat) (w : Rust.Write) (j : Except JavaError JavaBytes) : Prop :=
  (∃ out h, w = .done out ∧ out.length ≤ room ∧ j = .ok ⟨out, h⟩)
    ∨ (w = .err ∧ ∃ m, j = .error (.io m))

/-- The bytes of the `obu_size` field. -/
def sizeField (obu : List UInt8) : List UInt8 := field (obu.drop (headerSize (obu.headD 0)))

/-- The original wants a finished field that is right by its low 32 bits. -/
theorem rust_writeObu_sized (overflowChecks : Bool) (result : List UInt8) {obu : List UInt8}
    (hsize : obuHasSize (obu.headD 0) = true) (hlong : ¬ obu.length < headerSize (obu.headD 0))
    (hshort : (sizeField obu).length ≤ 8) :
    Rust.writeObu overflowChecks result obu obu.length
      = if Field (sizeField obu) ∧ obu.length
          = headerSize (obu.headD 0) + (sizeField obu).length + value (sizeField obu) % 2 ^ 32
        then .done (result ++ obu) else .err := by
  have hread := rustReadLeb128_field _ hshort
  rw [← sizeField] at hread
  simp only [Rust.writeObu, hsize, if_true, hlong, if_false, hread]
  by_cases hfield : Field (sizeField obu)
  · have hpos := Nat.ne_of_gt hfield.length_pos
    simp only [hfield, if_true, hpos, if_false, true_and, ne_eq, ite_not]
  · simp only [hfield, if_false, if_true, false_and]

/-- The port wants a field that is right, finished or not. -/
theorem java_writeObu_sized (result : JavaBytes) {obu : List UInt8}
    (hsize : obuHasSize (obu.headD 0) = true) (hshort : (sizeField obu).length ≤ 8) :
    writeObu result obu obu.length
      = if sizeField obu = [] then .error (.io "short AV1 OBU size")
        else if obu.length
          = headerSize (obu.headD 0) + (sizeField obu).length + value (sizeField obu)
        then JavaBytes.make (result.data ++ obu) else .error (.io "AV1 OBU size mismatch") := by
  have hread := readLeb128_any hshort
  rw [← sizeField] at hread
  have hvalue : value (sizeField obu) < 2 ^ 56 := by
    have hlt := value_lt (sizeField obu)
    have hle : 128 ^ (sizeField obu).length ≤ 128 ^ 8 := Nat.pow_le_pow_right (by decide) hshort
    omega
  have hheader := (headerSize_le (obu.headD 0)).2
  have hn : toInt ((sizeField obu).length : Int) = (sizeField obu).length :=
    toInt_eq (by omega) (by omega)
  have hexpected : toLong ((headerSize (obu.headD 0) : Int) + (sizeField obu).length
      + value (sizeField obu)) = headerSize (obu.headD 0) + (sizeField obu).length
      + value (sizeField obu) := toLong_eq (by omega) (by omega)
  have hempty : ((sizeField obu).length : Int) = 0 ↔ sizeField obu = [] := by
    rw [Int.natCast_eq_zero, List.length_eq_zero_iff]
  have hright : (obu.length : Int) = headerSize (obu.headD 0) + (sizeField obu).length
      + value (sizeField obu) ↔ obu.length = headerSize (obu.headD 0) + (sizeField obu).length
      + value (sizeField obu) := by omega
  simp only [writeObu, hsize, if_true, hread, hn, hexpected, hempty, ne_eq, hright, ite_not]

/-- **An OBU with a size field.**  The one way to be right for one of the two only is a value that
is cut, or an unfinished field that reads as zero. -/
theorem writeObu_sized (overflowChecks : Bool) {result : JavaBytes} {obu : List UInt8}
    (hroom : result.data.length + obu.length < 2 ^ 31) (hsize : obuHasSize (obu.headD 0) = true)
    (hlong : ¬ obu.length < headerSize (obu.headD 0))
    (hfit : SizeFits (headerSize (obu.headD 0)) obu) :
    WriteAgrees (result.data.length + obu.length)
      (Rust.writeObu overflowChecks result.data obu obu.length)
      (writeObu result obu obu.length) := by
  obtain ⟨hshort, hsmall, hended⟩ := hfit
  rw [← sizeField] at hshort hsmall hended
  rw [rust_writeObu_sized overflowChecks _ hsize hlong hshort,
    java_writeObu_sized result hsize hshort]
  by_cases hok : Field (sizeField obu) ∧ obu.length
      = headerSize (obu.headD 0) + (sizeField obu).length + value (sizeField obu) % 2 ^ 32
  · have hlimit : (result.data ++ obu).length < 2 ^ 31 := by rwa [List.length_append]
    have hright : obu.length
        = headerSize (obu.headD 0) + (sizeField obu).length + value (sizeField obu) := by
      rcases hsmall with hlt | hne
      · rw [← Nat.mod_eq_of_lt hlt]
        exact hok.2
      · exact absurd hok.2.symm hne
    rw [if_pos hok, if_neg hok.1.ne_nil, if_pos hright]
    exact .inl ⟨result.data ++ obu, hlimit, rfl, by rw [List.length_append],
      JavaBytes.make_eq hlimit⟩
  · rw [if_neg hok]
    by_cases hempty : sizeField obu = []
    · rw [if_pos hempty]
      exact .inr ⟨rfl, _, rfl⟩
    · have hwrong : ¬ obu.length
          = headerSize (obu.headD 0) + (sizeField obu).length + value (sizeField obu) := by
        intro hright
        rcases field_cases (obu.drop (headerSize (obu.headD 0))) with
          ⟨hfield, -⟩ | ⟨hfield, hlast, -⟩
        · -- a value that fits into an `int` is not cut
          refine hok ⟨hfield, ?_⟩
          rw [Nat.mod_eq_of_lt (by omega)]
          exact hright
        · -- an unfinished field reaches to the end
          have hzero := (hended.resolve_left hfield).resolve_left hempty
          have hlength := congrArg List.length hlast
          rw [← sizeField, List.length_drop] at hlength
          omega
      rw [if_neg hempty, if_neg hwrong]
      exact .inr ⟨rfl, _, rfl⟩

/-- An OBU that gets a size field. -/
theorem writeObu_unsized {result : JavaBytes} {obu : List UInt8} (hne : obu ≠ [])
    (hroom : result.data.length + 6 * obu.length < 2 ^ 31)
    (hsize : obuHasSize (obu.headD 0) = false)
    (hpanic : (overflowChecks && decide (obu.length < headerSize (obu.headD 0))) = false) :
    WriteAgrees (result.data.length + 6 * obu.length)
      (Rust.writeObu overflowChecks result.data obu obu.length)
      (writeObu result obu obu.length) := by
  have hlength := List.length_pos_of_ne_nil hne
  obtain ⟨hheader1, hheader2⟩ := headerSize_le (obu.headD 0)
  have hpayload : writeLeb128 ((obu.length : Int) - headerSize (obu.headD 0))
      = putLeb128 ((2 ^ 64 + obu.length - headerSize (obu.headD 0)) % 2 ^ 64) :=
    writeLeb128_payloadSize (by omega) hheader2
  generalize hout : result.data ++ (withSizeBit (obu.headD 0)
    :: (if (obuHasExtension (obu.headD 0) && decide (1 < obu.length)) then [obu.getD 1 0] else [])
    ++ putLeb128 ((2 ^ 64 + obu.length - headerSize (obu.headD 0)) % 2 ^ 64)
    ++ obu.drop (headerSize (obu.headD 0))) = out
  have hle : out.length ≤ result.data.length + 6 * obu.length := by
    have hleb :=
      lebLoop_length 5 ((2 ^ 64 + obu.length - headerSize (obu.headD 0)) % 2 ^ 64 % 2 ^ 32)
    have hext : (if (obuHasExtension (obu.headD 0) && decide (1 < obu.length)) then [obu.getD 1 0]
        else []).length + 1 ≤ min (headerSize (obu.headD 0)) obu.length := by
      split
      · next h =>
        simp only [Bool.and_eq_true, decide_eq_true_eq] at h
        simp only [headerSize, h.1, if_true, List.length_singleton]
        omega
      · simp only [List.length_nil]
        omega
    rw [← hout]
    simp only [List.length_append, List.length_cons, List.length_drop, putLeb128]
    omega
  have hlimit : out.length < 2 ^ 31 := by omega
  refine .inl ⟨out, hlimit, ?_, hle, ?_⟩
  · simp only [Rust.writeObu, hsize, Bool.false_eq_true, if_false, hpanic, hout]
  · simp only [writeObu, hsize, Bool.false_eq_true, if_false, hpayload, hout]
    exact JavaBytes.make_eq hlimit

/-- **Writing an OBU**, unless it panics. -/
theorem writeObu_agrees {result : JavaBytes} {obu : List UInt8} (hne : obu ≠ [])
    (hroom : result.data.length + 6 * obu.length < 2 ^ 31)
    (hfit : obuHasSize (obu.headD 0) = true → SizeFits (headerSize (obu.headD 0)) obu)
    (hpanic : Rust.writeObu overflowChecks result.data obu obu.length ≠ .panicked) :
    WriteAgrees (result.data.length + 6 * obu.length)
      (Rust.writeObu overflowChecks result.data obu obu.length)
      (writeObu result obu obu.length) := by
  cases hsize : obuHasSize (obu.headD 0) with
  | true =>
    have hlong : ¬ obu.length < headerSize (obu.headD 0) := by
      intro hlt
      exact hpanic (by simp only [Rust.writeObu, hsize, if_true, hlt])
    have hsmall : result.data.length + obu.length < 2 ^ 31 := by omega
    rcases writeObu_sized overflowChecks hsmall hsize hlong (hfit hsize) with
      ⟨out, h, hw, hle, hj⟩ | herr
    · exact .inl ⟨out, h, hw, by omega, hj⟩
    · exact .inr herr
  | false =>
    refine writeObu_unsized hne hroom hsize ?_
    rw [Bool.eq_false_iff]
    intro hpan
    exact hpanic (by simp only [Rust.writeObu, hsize, Bool.false_eq_true, if_false, hpan, if_true])

/-! ## 4. Turns -/

/-- The two loops are at the same place, and what the rest of the payload can add fits into the
room. -/
structure Same (payload : JavaBytes) (room : Nat) (r : Rust.State) (s : LoopState) : Prop where
  offset : s.offset = r.offset
  obuOffset : s.obuOffset = r.obuOffset
  result : s.result.data = r.result
  buffer : s.buffer.data = r.buffer
  fits : r.result.length + 6 * r.buffer.length + 6 * (payload.data.length - r.offset) ≤ room

/-- **The turns are in lockstep.** -/
inductive TurnAgrees (payload : JavaBytes) (room : Nat) : Rust.Turn → Turn → Prop
  | next {r s} : Same payload room r s → TurnAgrees payload room (.next r) (.next s)
  | stop {r s} : Same payload room r s → TurnAgrees payload room (.stop r) (.stop s)
  | err {b buffer m} : JavaBytes.data buffer = b →
      TurnAgrees payload room (.err b) (.throw buffer (.io m))

variable {room : Nat} {r : Rust.State} {s : LoopState}

theorem Same.goOn (h : Same payload room r s) (isLast : Bool) :
    TurnAgrees payload room (r.goOn isLast) (s.goOn isLast) := by
  cases isLast with
  | true => exact .stop h
  | false => exact .next ⟨h.offset, by simp [h.obuOffset], h.result, h.buffer, h.fits⟩

/-- Once the element is in `obuBuffer`. -/
theorem handleObu_agrees (obu : JavaBytes) {isLast : Bool} (h : Same payload room r s)
    (hroom : room < 2 ^ 31)
    (hfits : r.result.length + 6 * r.buffer.length + 6 * obu.data.length
      + 6 * (payload.data.length - r.offset) ≤ room)
    (hfit : (!(isLast && obuY) && !(obu.data.isEmpty || Rust.isDropped (obu.data.headD 0))) = true →
      obuHasSize (obu.data.headD 0) = true → SizeFits (headerSize (obu.data.headD 0)) obu.data)
    (hpanic : Rust.handleObu overflowChecks obuY r isLast obu.data obu.data.length ≠ .panicked) :
    TurnAgrees payload room (Rust.handleObu overflowChecks obuY r isLast obu.data obu.data.length)
      (handleObu obuY s isLast obu obu.data.length) := by
  unfold Rust.handleObu at hpanic ⊢
  unfold handleObu
  cases hkeep : isLast && obuY with
  | true =>
    -- kept for the next payload
    refine .stop ⟨h.offset, h.obuOffset, h.result, rfl, ?_⟩
    dsimp only
    omega
  | false =>
    simp only [hkeep, Bool.false_eq_true, if_false] at hpanic ⊢
    have hsame : isDropped (obu.data.headD 0) = Rust.isDropped (obu.data.headD 0) := rfl
    cases hskip : obu.data.isEmpty || Rust.isDropped (obu.data.headD 0) with
    | true =>
      simp only [hsame, hskip, if_true]
      exact h.goOn isLast
    | false =>
      simp only [hsame, hskip, Bool.false_eq_true, if_false, ← h.result] at hpanic ⊢
      have hne : obu.data ≠ [] := by
        rw [Bool.or_eq_false_iff, List.isEmpty_eq_false_iff] at hskip
        exact hskip.1
      have hlength := congrArg List.length h.result
      have hwrite : WriteAgrees (s.result.data.length + 6 * obu.data.length)
          (Rust.writeObu overflowChecks s.result.data obu.data obu.data.length)
          (writeObu s.result obu.data obu.data.length) := by
        refine writeObu_agrees hne (by omega) (hfit (by rw [hkeep, hskip]; rfl)) fun hw => hpanic ?_
        rw [hw]
      rcases hwrite with ⟨out, hlimit, hw, hle, hj⟩ | ⟨hw, m, hj⟩
      · have hnext :
          Same payload room { r with result := out } { s with result := ⟨out, hlimit⟩ } :=
          ⟨h.offset, h.obuOffset, rfl, h.buffer, by dsimp only; omega⟩
        rw [hw, hj]
        exact hnext.goOn isLast
      · rw [hw, hj]
        exact .err h.buffer

/-- The element takes its bytes from the payload and from the buffer. -/
theorem obuBuffer_length (obuZ : Bool) (r : Rust.State) {h : Rust.Head}
    (hinside : h.offset + h.lengthField ≤ payload.data.length) :
    (Rust.obuBuffer payload.data obuZ r h).length
      + (if Rust.continues obuZ r then [] else r.buffer).length
        = r.buffer.length + h.lengthField := by
  rw [Rust.obuBuffer, List.length_append, List.length_take, List.length_drop]
  split <;> simp only [List.length_nil] <;> omega

/-- What both call the actual size of the element is the length of `obuBuffer`. -/
theorem actualSize_eq {h : Rust.Head} (hinside : h.offset + h.lengthField ≤ payload.data.length) :
    (if Rust.continues obuZ r then (Rust.obuBuffer payload.data obuZ r h).length else h.lengthField)
      = (Rust.obuBuffer payload.data obuZ r h).length := by
  have hlength := obuBuffer_length obuZ r hinside
  split
  · rfl
  · next hnew =>
    rw [if_neg hnew] at hlength
    omega

theorem copyElement_obuBuffer {h : Rust.Head}
    (hinside : h.offset + h.lengthField ≤ payload.data.length)
    (hshort : (Rust.obuBuffer payload.data obuZ r h).length < 2 ^ 31) :
    copyElement (if Rust.continues obuZ r then r.buffer else []) payload h.offset h.lengthField
      = .ok ⟨Rust.obuBuffer payload.data obuZ r h, hshort⟩ := by
  have hlength := hshort
  rw [Rust.obuBuffer, List.length_append, List.length_take, List.length_drop] at hlength
  have hnew : ¬ toInt (((if Rust.continues obuZ r then r.buffer else []).length : Int)
      + h.lengthField) < 0 := by
    rw [toInt_eq (by omega) (by omega)]
    omega
  have hbounds : ¬ ((h.lengthField : Int) < 0 ∨ (h.offset : Int) < 0
      ∨ (payload.data.length : Int) < h.offset + h.lengthField) := by omega
  rw [copyElement, if_neg hnew, if_neg hbounds, Int.toNat_natCast, Int.toNat_natCast]
  exact JavaBytes.make_eq hshort

/-- Once the head is read. -/
theorem takeElement_agrees {h : Rust.Head} (hs : Same payload room r s) (hroom : room < 2 ^ 31)
    (hlimit : h.offset + h.lengthField < 2 ^ 31) (hoffset : r.offset ≤ h.offset)
    (hfit : SizeFieldFits payload.data obuZ obuY r h)
    (hpanic : Rust.takeElement overflowChecks payload.data obuZ obuY r h ≠ .panicked) :
    TurnAgrees payload room (Rust.takeElement overflowChecks payload.data obuZ obuY r h)
      (takeElement payload obuZ obuY s ⟨h.offset, h.lengthField, h.isLast⟩) := by
  have hfits := hs.fits
  have hnext : toInt ((h.offset : Int) + h.lengthField) = (h.offset + h.lengthField : Nat) := by
    rw [toInt_eq (by omega) (by omega)]
    omega
  have hcont : (s.obuOffset == 0 && obuZ) = Rust.continues obuZ r := by
    rw [Rust.continues, hs.obuOffset]
  unfold Rust.takeElement at hpanic ⊢
  unfold takeElement
  simp only [hnext, hcont, hs.buffer]
  by_cases hlong : payload.data.length < h.offset + h.lengthField
  · have hlong' : (payload.data.length : Int) < (h.offset + h.lengthField : Nat) := by omega
    rw [if_pos hlong, if_pos hlong']
    exact .err hs.buffer
  · have hlong' : ¬ (payload.data.length : Int) < (h.offset + h.lengthField : Nat) := by omega
    rw [if_neg hlong] at hpanic ⊢
    rw [if_neg hlong']
    cases hlost : Rust.continues obuZ r && r.buffer.isEmpty with
    | true =>
      -- the beginning of the element is missing: it is passed over
      simp only [if_true]
      cases h.isLast with
      | true =>
        refine .stop ⟨rfl, hs.obuOffset, hs.result, hs.buffer, ?_⟩
        dsimp only
        omega
      | false =>
        refine .next ⟨rfl, by simp [hs.obuOffset], hs.result, hs.buffer, ?_⟩
        dsimp only
        omega
    | false =>
      simp only [hlost, Bool.false_eq_true, if_false] at hpanic ⊢
      have hinside : h.offset + h.lengthField ≤ payload.data.length := Nat.le_of_not_lt hlong
      have hlength := obuBuffer_length obuZ r hinside
      have hshort : (Rust.obuBuffer payload.data obuZ r h).length < 2 ^ 31 := by omega
      have hactual :
        (if Rust.continues obuZ r then ((Rust.obuBuffer payload.data obuZ r h).length : Int)
          else (h.lengthField : Int)) = (Rust.obuBuffer payload.data obuZ r h).length := by
        rw [← actualSize_eq hinside]
        split <;> rfl
      rw [actualSize_eq hinside] at hpanic ⊢
      rw [copyElement_obuBuffer hinside hshort]
      dsimp only
      rw [hactual]
      refine handleObu_agrees ⟨Rust.obuBuffer payload.data obuZ r h, hshort⟩
        ⟨rfl, hs.obuOffset, hs.result, ?_, ?_⟩ hroom ?_ ?_ hpanic
      · dsimp only
        split
        · rfl
        · exact hs.buffer
      · dsimp only
        omega
      · dsimp only
        omega
      · intro hwrites
        refine hfit hinside ?_
        rw [completes, hlost]
        exact hwrites

/-- **One turn.** -/
theorem turn_agrees (hs : Same payload room r s) (hroom : room < 2 ^ 31)
    (hinside : r.offset < payload.data.length) (hfit : TurnFits payload.data obuZ obuY obuCount r)
    (hpanic : Rust.turn overflowChecks payload.data obuZ obuY obuCount r ≠ .panicked) :
    TurnAgrees payload room (Rust.turn overflowChecks payload.data obuZ obuY obuCount r)
      (turn payload obuZ obuY obuCount s) := by
  unfold Rust.turn at hpanic ⊢
  unfold turn
  rw [hs.offset, hs.obuOffset]
  rcases readHead_agrees hinside hfit.1 with
    ⟨h, hrust, hjava, hlimit, hoffset⟩ | ⟨hrust, h, hjava, hlong⟩
  · rw [hrust] at hpanic ⊢
    rw [hjava]
    exact takeElement_agrees hs hroom hlimit hoffset (hfit.2 h hrust) hpanic
  · -- unfinished for Rust, too long for Java
    rw [hrust, hjava]
    dsimp only
    rw [takeElement, if_pos hlong]
    exact .err hs.buffer

/-- **The loop**, by induction on the turns of the original; the port may be given more of them. -/
theorem loop_agrees (hroom : room < 2 ^ 31) : ∀ (fuel extra : Nat) (r : Rust.State) (s : LoopState),
    Same payload room r s → LoopFits overflowChecks payload.data obuZ obuY obuCount fuel r →
    Rust.depacketizeLoop overflowChecks payload.data obuZ obuY obuCount fuel r ≠ .panicked →
    (∀ r', Rust.depacketizeLoop overflowChecks payload.data obuZ obuY obuCount fuel r ≠ .next r') →
    TurnAgrees payload room
      (Rust.depacketizeLoop overflowChecks payload.data obuZ obuY obuCount fuel r)
      (depacketizeLoop payload obuZ obuY obuCount (fuel + extra) s)
  | 0, _, r, _, _, _, _, hends => absurd rfl (hends r)
  | fuel + 1, extra, r, s, hs, hfits, hpanic, hends => by
    rw [Nat.succ_add, depacketizeLoop, hs.offset]
    rw [Rust.depacketizeLoop] at hpanic hends ⊢
    by_cases hinside : r.offset < payload.data.length
    · rw [if_pos hinside] at hpanic hends ⊢
      rw [if_pos (by omega)]
      obtain ⟨hturn, hrest⟩ := hfits hinside
      have hnot : Rust.turn overflowChecks payload.data obuZ obuY obuCount r ≠ .panicked := by
        intro h
        rw [h] at hpanic
        exact hpanic rfl
      have hagree := turn_agrees hs hroom hinside hturn hnot
      generalize hr : Rust.turn overflowChecks payload.data obuZ obuY obuCount r = t at *
      generalize turn payload obuZ obuY obuCount s = t' at *
      cases hagree with
      | next h => exact loop_agrees hroom fuel extra _ _ h hrest hpanic hends
      | stop h => exact .stop h
      | err h => exact .err h
    · rw [if_neg hinside, if_neg (by omega)]
      exact .stop hs

end

/-! ## 5. Calls and runs -/

/-- What the port ends a call with, given what the original ends it with. -/
def OutcomeAgrees : Rust.Outcome → Outcome → Prop
  | .ok bytes, .returned out => out.data = bytes
  | .errShortPacket, .thrown (.io _) => True
  | _, _ => False

/-- The buffer of the port when the loop starts. -/
def startBuffer (buffer : JavaBytes) (h : Rust.Header) : JavaBytes :=
  let buffer := if h.n then .empty else buffer
  if !h.z && !buffer.data.isEmpty then .empty else buffer

theorem startBuffer_data (buffer : JavaBytes) (h : Rust.Header) :
    (startBuffer buffer h).data = (Rust.start buffer.data h).buffer := by
  have hn : (if h.n then JavaBytes.empty else buffer).data = if h.n then [] else buffer.data := by
    split <;> rfl
  unfold startBuffer Rust.start
  dsimp only
  rw [← hn]
  generalize (if h.n then JavaBytes.empty else buffer) = b
  split <;> rfl

/-- How the port goes on when the loop has ended. -/
def endCall (h : Rust.Header) : Turn → Depacketizer × Outcome
  | .next s => (⟨s.buffer, h.z, h.y, h.n⟩, .running)
  | .throw buffer e => (⟨buffer, h.z, h.y, h.n⟩, .thrown e)
  | .stop s =>
    if h.count != 0 && s.obuOffset + 1 != h.count && !h.y then
      (⟨s.buffer, h.z, h.y, h.n⟩, .thrown (.io "AV1 OBU count mismatch"))
    else (⟨s.buffer, h.z, h.y, h.n⟩, .returned s.result)

theorem depacketize_eq (j : Depacketizer) {payload : JavaBytes}
    (hlong : ¬ payload.data.length ≤ 1) :
    depacketize j payload
      = endCall (Rust.readHeader payload.data)
          (depacketizeLoop payload (Rust.readHeader payload.data).z (Rust.readHeader payload.data).y
            (Rust.readHeader payload.data).count (payload.data.length + 2)
            ⟨1, 0, .empty, startBuffer j.buffer (Rust.readHeader payload.data)⟩) := by
  rw [depacketize, if_neg hlong]
  rfl

theorem same_start {d : Rust.Depacketizer} {j : Depacketizer} (payload : JavaBytes)
    (hbuffer : j.buffer.data = d.buffer) (h : Rust.Header) :
    Same payload (6 * (d.buffer.length + payload.data.length)) (Rust.start d.buffer h)
      ⟨1, 0, .empty, startBuffer j.buffer h⟩ := by
  refine ⟨rfl, rfl, rfl, by rw [startBuffer_data, hbuffer], ?_⟩
  have hle : (Rust.start d.buffer h).buffer.length ≤ d.buffer.length := by
    unfold Rust.start
    dsimp only
    split <;> (try split) <;> simp
  show 0 + 6 * _ + 6 * _ ≤ _
  omega

/-- The number of elements is checked in the same way. -/
theorem countCheck_eq (h : Rust.Header) {n m : Nat} (hnm : n = m) :
    (h.count != 0 && n + 1 != h.count && !h.y) = (h.count != 0 && m != h.count - 1 && !h.y) := by
  by_cases hzero : h.count = 0
  · simp [hzero]
  · have hlast : (n + 1 != h.count) = (m != h.count - 1) := by
      rw [hnm, Bool.eq_iff_iff]
      simp only [bne_iff_ne]
      omega
    rw [hlast]

/-- **One call.** -/
theorem depacketize_agrees {overflowChecks : Bool} {d : Rust.Depacketizer} {j : Depacketizer}
    {payload : JavaBytes} (hbuffer : j.buffer.data = d.buffer)
    (hfit : PayloadFits overflowChecks d.buffer payload.data)
    (hpanic : (Rust.depacketize overflowChecks d payload.data).2 ≠ .panicked) :
    (depacketize j payload).1.buffer.data
      = (Rust.depacketize overflowChecks d payload.data).1.buffer
      ∧ OutcomeAgrees (Rust.depacketize overflowChecks d payload.data).2
        (depacketize j payload).2 := by
  unfold Rust.depacketize at hpanic ⊢
  by_cases hshort : payload.data.length ≤ 1
  · rw [if_pos hshort, depacketize, if_pos hshort]
    exact ⟨hbuffer, trivial⟩
  · rw [if_neg hshort] at hpanic ⊢
    rw [depacketize_eq j hshort]
    dsimp only at hpanic ⊢
    have hends : ∀ r', Rust.depacketizeLoop overflowChecks payload.data
      (Rust.readHeader payload.data).z
        (Rust.readHeader payload.data).y (Rust.readHeader payload.data).count payload.data.length
        (Rust.start d.buffer (Rust.readHeader payload.data)) ≠ .next r' :=
      fun r' => Rust.depacketizeLoop_ends payload.data.length _ r' (by omega)
        (by simp only [Rust.start]; omega)
    have hagree := loop_agrees hfit.space payload.data.length 2 _ _
      (same_start payload hbuffer (Rust.readHeader payload.data)) hfit.fields
      (fun h => by rw [h] at hpanic; exact hpanic rfl) hends
    generalize Rust.readHeader payload.data = h at *
    generalize Rust.depacketizeLoop overflowChecks payload.data h.z h.y h.count payload.data.length
      (Rust.start d.buffer h) = t at *
    generalize depacketizeLoop payload h.z h.y h.count (payload.data.length + 2) _ = t' at *
    cases hagree with
    | next hs => exact absurd rfl (hends _)
    | err hb => exact ⟨hb, trivial⟩
    | stop hs =>
      dsimp only [endCall]
      rw [countCheck_eq h hs.obuOffset]
      split
      · exact ⟨hs.buffer, trivial⟩
      · exact ⟨hs.buffer, hs.result⟩

/-- The two objects, and what the last call ended with. -/
structure Pair where
  rust : Rust.Depacketizer
  java : Depacketizer
  last : Option (Rust.Outcome × Outcome)

def Pair.fresh : Pair := ⟨.new, .fresh, none⟩

/-- Both are given the same payload. -/
def Pair.feed (overflowChecks : Bool) (p : Pair) (payload : JavaBytes) : Pair where
  rust := (Rust.depacketize overflowChecks p.rust payload.data).1
  java := (depacketize p.java payload).1
  last := some
    ((Rust.depacketize overflowChecks p.rust payload.data).2, (depacketize p.java payload).2)

/-- The same buffer, and the same end of the last call. -/
structure Pair.Agreed (p : Pair) : Prop where
  buffer : p.java.buffer.data = p.rust.buffer
  outcome : ∀ o, p.last = some o → OutcomeAgrees o.1 o.2

/-- The original does not panic, and the payload is one on which the two agree. -/
def Pair.Sound (overflowChecks : Bool) (p : Pair) (payload : JavaBytes) : Prop :=
  (Rust.depacketize overflowChecks p.rust payload.data).2 ≠ .panicked
    ∧ PayloadFits overflowChecks p.rust.buffer payload.data

/-- **The port does what the original does**, payload after payload. -/
theorem port_agrees (overflowChecks : Bool) (payloads : List JavaBytes)
    (h : Heeds (Pair.Sound overflowChecks) (Pair.feed overflowChecks) .fresh payloads) :
    Always Pair.Agreed (Pair.feed overflowChecks) .fresh payloads := by
  refine always_of_heeds ?_ payloads Pair.fresh ⟨rfl, nofun⟩ h
  rintro p payload ⟨hpanic, hfit⟩ hp
  obtain ⟨hbuffer, houtcome⟩ := depacketize_agrees hp.buffer hfit hpanic
  exact ⟨hbuffer, by rintro o ⟨⟩; exact houtcome⟩

/-- Two payloads of one OBU in two fragments, the second of which also has a complete one with size
field. -/
def fragmentPayloads : List JavaBytes :=
  [⟨[0b01010000, 0x30, 1, 2], by decide⟩, ⟨[0b10100000, 2, 3, 4, 0x32, 1, 9], by decide⟩]

instance (overflowChecks : Bool) (p : Pair) (payload : JavaBytes) :
    Decidable (Pair.Sound overflowChecks p payload) :=
  inferInstanceAs (Decidable (_ ∧ _))

theorem port_agrees_sample :
    Always Pair.Agreed (Pair.feed false) .fresh fragmentPayloads
      ∧ (run (Pair.feed false) .fresh fragmentPayloads).last
        = some (.ok [0x32, 4, 1, 2, 3, 4, 0x32, 1, 9],
            .returned ⟨[0x32, 4, 1, 2, 3, 4, 0x32, 1, 9], by decide⟩) :=
  ⟨port_agrees false fragmentPayloads (by decide), by decide⟩

/-- The payload `00 80`: no count of elements, and a length field that does not end. -/
def unfinishedLength : JavaBytes := ⟨[0x00, 0x80], by decide⟩

/-- **The port returns no bytes where the original returns an error**, in either build. -/
theorem port_differs :
    (Pair.feed false .fresh unfinishedLength).last = some (.errShortPacket, .returned .empty)
      ∧ ¬ (Pair.feed false .fresh unfinishedLength).Agreed
      ∧ ¬ (Pair.feed true .fresh unfinishedLength).Agreed := by
  have hlast : ∀ overflowChecks, (Pair.feed overflowChecks .fresh unfinishedLength).last
      = some (.errShortPacket, .returned .empty) := by decide
  exact ⟨hlast false, fun h => h.outcome _ (hlast false), fun h => h.outcome _ (hlast true)⟩

end WebrtcBridge.Av1
