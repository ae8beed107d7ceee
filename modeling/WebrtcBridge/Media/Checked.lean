/-
# The checks of the virtual machine in `OggReader` and `Mp3Reader`

A Java program checks more than its text says: an index against the length of its array, the length
of a new array against zero, a divisor against zero.  `OggStream` and `Media.Mp3` have only the
checks that their results depend on; the exceptions of an `OggReader` do not even have a name for
the others.  Here both readers are written down once more with ALL of them, and with one that Java
does not make: a sum, a product or a quotient that leaves its type counts as a fault as well.

* `tracks_nextPage`, `tracks_nextFrame`: no check ever fails.  The readers with the checks follow
  the readers without them, exception by exception.
* On the way the results are measured.  A page has at most 255 segments of at most 255 bytes.  A
  frame has the length that three tables give, and there are only 84 headers that lead to them: all
  are tried (`frameSizes_fine`).

So whatever the bytes are, a call returns a page or a frame of bounded length, or throws one of the
`IOException`s of the source (`ogg_mp3_robust`).
-/
import WebrtcBridge.Lib.Outcomes
import WebrtcBridge.Media.Splitting

namespace WebrtcBridge.Media.Checked

open Lib Lib.InputStream

/-! ## 1. Checks -/

/-- What is thrown: an exception that the model has already, or the failure of a check. -/
inductive Fault (ε : Type)
  | known (e : ε)
  | negativeArraySize
  | indexOutOfBounds
  | overflow
  | divisionByZero
  deriving DecidableEq, Repr

section Operations

variable {ε α : Type}

/-- `array[index]`. -/
def element (array : List α) (index : Nat) : Except (Fault ε) α :=
  match array[index]? with
  | some a => .ok a
  | none => .error .indexOutOfBounds

/-- `array[index] = a`. -/
def store (array : List α) (index : Nat) (a : α) : Except (Fault ε) (List α) :=
  if index < array.length then .ok (array.set index a) else .error .indexOutOfBounds

/-- The length of `new byte[n]`. -/
def newLength (n : Int32) : Except (Fault ε) Nat :=
  if n < 0 then .error .negativeArraySize else .ok n.toNatClampNeg

/-- The result of an operation on `int`s, if it is the result on integers. -/
def exactly (result : Int32) (value : Int) : Except (Fault ε) Int32 :=
  if result.toInt = value then .ok result else .error .overflow

def add (a b : Int32) : Except (Fault ε) Int32 := exactly (a + b) (a.toInt + b.toInt)

def sub (a b : Int32) : Except (Fault ε) Int32 := exactly (a - b) (a.toInt - b.toInt)

def mul (a b : Int32) : Except (Fault ε) Int32 := exactly (a * b) (a.toInt * b.toInt)

def div (a b : Int32) : Except (Fault ε) Int32 :=
  if b = 0 then .error .divisionByZero else exactly (a / b) (a.toInt.tdiv b.toInt)

/-- The same for `long`s. -/
def exactlyLong (result : Int64) (value : Int) : Except (Fault ε) Int64 :=
  if result.toInt = value then .ok result else .error .overflow

def mulLong (a b : Int64) : Except (Fault ε) Int64 := exactlyLong (a * b) (a.toInt * b.toInt)

def divLong (a b : Int64) : Except (Fault ε) Int64 :=
  if b = 0 then .error .divisionByZero else exactlyLong (a / b) (a.toInt.tdiv b.toInt)

/-- A computation as a step of a program. -/
def perform {σ : Type} : Except ε α → EStateM ε σ α
  | .ok a => pure a
  | .error e => throw e

theorem element_eq {array : List α} {index : Nat} (h : index < array.length) :
    (element array index : Except (Fault ε) α) = .ok array[index] := by
  rw [element, List.getElem?_eq_getElem h]

theorem newLength_ofNat {n : Nat} (h : n < 2 ^ 31) :
    (newLength (Int32.ofNat n) : Except (Fault ε) Nat) = .ok n := by
  rw [newLength, if_neg (ofNat_not_neg h), Int32.toNatClampNeg_ofNat_of_lt h]

theorem add_ofNat {m n : Nat} (h : m + n < 2 ^ 31) :
    (add (Int32.ofNat m) (Int32.ofNat n) : Except (Fault ε) Int32) = .ok (Int32.ofNat (m + n)) := by
  have hsum : Int32.ofNat m + Int32.ofNat n = Int32.ofNat (m + n) := (Int32.ofNat_add m n).symm
  rw [add, hsum, exactly, if_pos]
  rw [Int32.toInt_ofNat_of_lt h, Int32.toInt_ofNat_of_lt (by omega),
    Int32.toInt_ofNat_of_lt (by omega)]
  omega

end Operations

/-! ## 2. `OggReader` -/

namespace OggReader

open Media.Ogg

variable {σ : Type} [InputStream σ UInt8]

abbrev OggFault := Fault OggError

def readByte : EStateM OggFault σ UInt8 := readOne (.known .eof)

def readBytes (count : Int32) : EStateM OggFault σ (List UInt8) := do
  let length ← perform (newLength count)
  readFully (.known .eof) length

/-- So many elements of an array, one after the other. -/
def elements (b : List UInt8) (offset : Nat) : Nat → Except OggFault (List UInt8)
  | 0 => .ok []
  | n + 1 => do
    let x ← element b offset
    let xs ← elements b (offset + 1) n
    return x :: xs

/-- `b[offset] | b[offset + 1] << 8 | ...`. -/
def readLE (b : List UInt8) (offset count : Nat) : Except OggFault Int32 := do
  return Int32.ofNat (orBytes 0 0 (← elements b offset count))

def readU32 : EStateM OggFault σ Int32 := do
  let b ← readBytes 4
  perform (readLE b 0 4)

def readU64 : EStateM OggFault σ Int64 := do
  let b ← readBytes 8
  return Int64.ofNat (orBytes 0 0 (← perform (elements b 0 8)))

/-- Whether an array differs from a pattern: byte by byte from `i` on, up to the first
difference. -/
def differs (b : List UInt8) (i : Nat) : List UInt8 → Except OggFault Bool
  | [] => .ok false
  | x :: pattern => do
    let y ← element b i
    if y ≠ x then return true else differs b (i + 1) pattern

/-- The loop that reads the table and adds it up; `segments` turns are left. -/
def readSegmentSizes (numSegments : Nat) : Nat → List Int32 → Int32 → EStateM OggFault σ Int32
  | 0, _, totalPayloadSize => pure totalPayloadSize
  | segments + 1, segmentSizes, totalPayloadSize => do
    let i := numSegments - (segments + 1)
    let size ← readByte
    let segmentSizes ← perform (store segmentSizes i (Int32.ofNat size.toNat))
    let totalPayloadSize ← perform (do add totalPayloadSize (← element segmentSizes i))
    readSegmentSizes numSegments segments segmentSizes totalPayloadSize

/-- `readRawPage()`, and the rest of `nextPage()`. -/
def readRawPage : EStateM OggFault σ OggPage := do
  let capture ← readBytes 4
  if ← perform (differs capture 0 (ascii "OggS")) then
    throw (.known (.io "Invalid OGG capture pattern"))
  let version ← readByte
  if version ≠ 0 then throw (.known (.io ("Unsupported OGG version: " ++ toString version)))
  let _ ← readByte
  let granulePosition ← readU64
  let serial ← readU32
  let _ ← readU32
  let _ ← readU32
  let numSegments ← readByte
  let length ← perform (newLength (Int32.ofNat numSegments.toNat))
  let totalPayloadSize ←
    readSegmentSizes numSegments.toNat numSegments.toNat (List.replicate length 0) 0
  let payload ← readBytes totalPayloadSize
  return ⟨payload, granulePosition, serial⟩

/-- The constructor, that is `readOpusHeader()`. -/
def oggReader : EStateM OggFault σ Ogg.OggReader := do
  let firstPage ← readRawPage
  let data := firstPage.data
  if data.length < 19 then throw (.known (.io "OpusHead packet too short"))
  if ← perform (differs data 0 (ascii "OpusHead")) then
    throw (.known (.io "Invalid OpusHead magic"))
  let version ← perform (element data 8)
  if 1 < version then
    throw (.known (.io ("Unsupported OpusHead version: " ++ toString version)))
  let channels ← perform (element data 9)
  let preSkip ← perform (readLE data 10 2)
  let sampleRate ← perform (readLE data 12 4)
  return ⟨⟨Int32.ofNat channels.toNat, sampleRate, preSkip⟩, true⟩

def skipOpusTags : EStateM OggFault σ Unit := do
  let _ ← readRawPage

def nextPage (r : Ogg.OggReader) : EStateM OggFault σ OggPage := do
  if !r.headerParsed then skipOpusTags
  readRawPage

/-! ### No check fails -/

/-- The exception of the reader with the checks beside that of the reader without. -/
def Same (e : OggError) (e' : OggFault) : Prop := e' = .known e

theorem same_eof : Same .eof (.known .eof) := rfl

theorem elements_eq (b : List UInt8) (n offset : Nat) (h : offset + n ≤ b.length) :
    elements b offset n = .ok ((b.drop offset).take n) := by
  induction n generalizing offset with
  | zero => simp [elements]
  | succ n ih =>
    rw [elements, element_eq (by omega), ih (offset + 1) (by omega),
      List.drop_eq_getElem_cons (by omega : offset < b.length), List.take_succ_cons]
    rfl

theorem readLE_eq {b : List UInt8} {offset count : Nat} (h : offset + count ≤ b.length) :
    readLE b offset count = .ok (Ogg.readLE b offset count) := by
  rw [readLE, elements_eq b count offset h]
  rfl

/-- Byte by byte there is a difference if there is one. -/
theorem differs_eq (b pattern : List UInt8) (i : Nat) (h : i + pattern.length ≤ b.length) :
    differs b i pattern = .ok (decide ((b.drop i).take pattern.length ≠ pattern)) := by
  induction pattern generalizing i with
  | nil => simp [differs]
  | cons x pattern ih =>
    rw [List.length_cons] at h
    rw [differs, element_eq (by omega), List.length_cons,
      List.drop_eq_getElem_cons (by omega : i < b.length), List.take_succ_cons]
    change (if b[i] ≠ x then pure true else differs b (i + 1) pattern) = _
    by_cases hx : b[i] = x
    · rw [if_neg (not_not.mpr hx), ih (i + 1) (by omega)]
      simp [hx]
    · rw [if_pos hx]
      simp only [ne_eq, List.cons.injEq, hx, false_and, not_false_eq_true, decide_true]
      rfl

theorem tracks_readBytes {n : Nat} (h : n < 2 ^ 31) :
    Tracks Same (fun xs ys => ys = xs ∧ xs.length = n)
      (OggStream.readBytes n : EStateM OggError σ _) (readBytes (Int32.ofNat n)) := by
  refine Tracks.bind_pure (b := n) ?_ (tracks_readFully same_eof n)
  rw [newLength_ofNat h]
  rfl

theorem tracks_readByte :
    Tracks Same (fun b b' => b' = b) (OggStream.readByte : EStateM OggError σ _) readByte :=
  tracks_readOne rfl

theorem tracks_readU32 :
    Tracks Same (fun n n' => n' = n) (OggStream.readU32 : EStateM OggError σ _) readU32 := by
  refine (tracks_readBytes (by decide : 4 < 2 ^ 31)).bind ?_
  intro b b' hb
  obtain ⟨rfl, hlength⟩ := hb
  have hread : readLE b' 0 4 = .ok (Int32.ofNat (orBytes 0 0 b')) := by
    rw [readLE_eq (by omega), Ogg.readLE, List.drop_zero, List.take_of_length_le (by omega)]
  rw [hread]
  exact tracks_pure rfl

theorem tracks_readU64 :
    Tracks Same (fun n n' => n' = n) (OggStream.readU64 : EStateM OggError σ _) readU64 := by
  refine (tracks_readBytes (by decide : 8 < 2 ^ 31)).bind ?_
  intro b b' hb
  obtain ⟨rfl, hlength⟩ := hb
  have hread : elements b' 0 8 = .ok b' := by
    rw [elements_eq b' 8 0 (by omega), List.drop_zero, List.take_of_length_le (by omega)]
  rw [hread]
  exact tracks_pure rfl

/-- **The table adds up to at most 255 for each of its entries**, by induction on the turns left;
the array has an entry for each turn. -/
theorem tracks_readSegmentSizes {numSegments : Nat} (hnum : numSegments ≤ 255) (segments : Nat)
    (hsegments : segments ≤ numSegments) (segmentSizes : List Int32)
    (hsizes : segmentSizes.length = numSegments) (total : Nat)
    (htotal : total ≤ 255 * (numSegments - segments)) :
    Tracks Same (fun n n' => n' = Int32.ofNat n ∧ n ≤ 255 * numSegments)
      (OggStream.readSegmentSizes segments total : EStateM OggError σ _)
      (readSegmentSizes numSegments segments segmentSizes (Int32.ofNat total)) := by
  induction segments generalizing segmentSizes total with
  | zero => exact tracks_pure ⟨rfl, by omega⟩
  | succ segments ih =>
    refine tracks_readByte.bind ?_
    intro size size' hsize
    obtain rfl : size' = size := hsize
    have hbyte := size'.toNat_lt
    have hindex : numSegments - (segments + 1) < segmentSizes.length := by omega
    have hstore : (store segmentSizes (numSegments - (segments + 1)) (Int32.ofNat size'.toNat)
        : Except OggFault _)
        = .ok (segmentSizes.set (numSegments - (segments + 1)) (Int32.ofNat size'.toNat)) :=
      if_pos hindex
    have hadd : (do add (Int32.ofNat total) (← element (segmentSizes.set
          (numSegments - (segments + 1)) (Int32.ofNat size'.toNat))
          (numSegments - (segments + 1))) : Except OggFault Int32)
        = .ok (Int32.ofNat (total + size'.toNat)) := by
      rw [element_eq (by rw [List.length_set]; exact hindex), List.getElem_set_self]
      exact add_ofNat (by omega)
    refine Tracks.bind_pure (by rw [hstore]; rfl) (Tracks.bind_pure (by rw [hadd]; rfl) ?_)
    exact ih (by omega) _ (by rw [List.length_set]; exact hsizes) (total + size'.toNat) (by omega)

/-- What is known of a page. -/
def SamePage (p p' : OggPage) : Prop := p' = p ∧ p.data.length ≤ 65025

/-- **A page is read without a fault**, and it is not longer than its table can say. -/
theorem tracks_readRawPage :
    Tracks Same SamePage (OggStream.readRawPage : EStateM OggError σ _) readRawPage := by
  refine (tracks_readBytes (by decide : 4 < 2 ^ 31)).bind ?_
  intro capture capture' hcapture
  obtain ⟨rfl, hlength⟩ := hcapture
  have hfour : (ascii "OggS").length = 4 := rfl
  have hdiffers : differs capture' 0 (ascii "OggS") = .ok (decide (capture' ≠ ascii "OggS")) := by
    rw [differs_eq capture' (ascii "OggS") 0 (by omega), hfour, List.drop_zero,
      List.take_of_length_le (by omega)]
  refine Tracks.bind_pure (by rw [hdiffers]; rfl) ?_
  simp only [decide_eq_true_eq]
  refine Tracks.check _ rfl fun _ => tracks_readByte.bind ?_
  intro version version' hversion
  obtain rfl : version' = version := hversion
  refine Tracks.check _ rfl fun _ => tracks_readByte.bind fun _ _ _ => tracks_readU64.bind ?_
  intro granulePosition granulePosition' hgranule
  obtain rfl : granulePosition' = granulePosition := hgranule
  refine tracks_readU32.bind ?_
  intro serial serial' hserial
  obtain rfl : serial' = serial := hserial
  refine tracks_readU32.bind fun _ _ _ => tracks_readU32.bind fun _ _ _ => tracks_readByte.bind ?_
  intro numSegments numSegments' hnum
  obtain rfl : numSegments' = numSegments := hnum
  have hbyte := numSegments'.toNat_lt
  refine Tracks.bind_pure (b := numSegments'.toNat) ?_ ?_
  · rw [newLength_ofNat (by omega)]
    rfl
  refine (tracks_readSegmentSizes (by omega) numSegments'.toNat (Nat.le_refl _) _
    List.length_replicate 0 (Nat.zero_le _)).bind ?_
  intro total total' htotal
  obtain ⟨rfl, hle⟩ := htotal
  refine (tracks_readBytes (by omega)).bind ?_
  intro payload payload' hpayload
  obtain ⟨rfl, hlong⟩ := hpayload
  refine tracks_pure ⟨rfl, ?_⟩
  show payload'.length ≤ 65025
  omega

/-- **And so is the first page.** -/
theorem tracks_oggReader :
    Tracks Same (fun r r' => r' = r) (OggStream.oggReader : EStateM OggError σ _) oggReader := by
  refine tracks_readRawPage.bind ?_
  intro firstPage firstPage' hpage
  obtain ⟨rfl, -⟩ := hpage
  refine Tracks.check _ rfl ?_
  intro hlong
  have height : (ascii "OpusHead").length = 8 := rfl
  have hdiffers : differs firstPage'.data 0 (ascii "OpusHead")
      = .ok (decide (firstPage'.data.take 8 ≠ ascii "OpusHead")) := by
    rw [differs_eq _ (ascii "OpusHead") 0 (by omega), height, List.drop_zero]
  refine Tracks.bind_pure (by rw [hdiffers]; rfl) ?_
  simp only [decide_eq_true_eq]
  refine Tracks.check _ rfl ?_
  intro _
  have helement : ∀ i, i < 19 →
      (element firstPage'.data i : Except OggFault UInt8) = .ok (firstPage'.data.getD i 0) := by
    intro i hi
    have hlt : i < firstPage'.data.length := by omega
    rw [element_eq hlt, List.getD_eq_getElem?_getD, List.getElem?_eq_getElem hlt, Option.getD_some]
  refine Tracks.bind_pure (by rw [helement 8 (by decide)]; rfl) (Tracks.check _ rfl ?_)
  intro _
  refine Tracks.bind_pure (by rw [helement 9 (by decide)]; rfl) ?_
  refine Tracks.bind_pure (by rw [readLE_eq (by omega)]; rfl) ?_
  exact Tracks.bind_pure (by rw [readLE_eq (by omega)]; rfl) (tracks_pure rfl)

theorem tracks_nextPage (r : Ogg.OggReader) :
    Tracks Same SamePage (OggStream.nextPage r : EStateM OggError σ _) (nextPage r) := by
  refine Tracks.ite _ (fun _ => ?_) fun _ => tracks_readRawPage
  refine Tracks.bind (R := fun _ _ => True) ?_ fun _ _ _ => tracks_readRawPage
  exact tracks_readRawPage.bind fun _ _ _ => tracks_pure trivial

end OggReader

/-! ## 3. `Mp3Reader` -/

namespace Mp3Reader

open Media.Mp3

abbrev Mp3Fault := Fault Mp3Error

/-- `array[index]`, for an `int`. -/
def lookup {α : Type} (array : List α) (index : Int32) : Except Mp3Fault α :=
  if index < 0 then .error .indexOutOfBounds else element array index.toNatClampNeg

/-- What is computed from an accepted header. -/
structure FrameSizes where
  bitrate : Int32
  sampleRate : Int32
  frameSize : Int32
  deriving DecidableEq, Repr

def frameSizes (mpegVersion layer bitrateIndex padding : Int32) : Except Mp3Fault FrameSizes := do
  let layerCol ← sub 3 layer
  let row ← lookup bitrateTable bitrateIndex
  let bitrate ← mul (← lookup row (tableIndex (versionCol mpegVersion) layerCol)) 1000
  let sampleRate ← lookup sampleRateTable (versionCol mpegVersion)
  let frameSize ← add (← div (← mul 144 bitrate) sampleRate) padding
  return ⟨bitrate, sampleRate, frameSize⟩

/-- `(long) data.length * 1_000_000L * 8 / bitrate`. -/
def durationMicros (length : Nat) (bitrate : Int32) : Except Mp3Fault Int64 := do
  divLong (← mulLong (← mulLong (Int64.ofNat length) 1000000) 8) bitrate.toInt64

section Reader

variable {σ : Type} [InputStream σ UInt8]

/-- The frame itself, once its header has been accepted. -/
def readFrame (mpegVersion layer bitrateIndex padding channelMode : Int32) :
    EStateM Mp3Fault σ Mp3Frame := do
  let sizes ← perform (frameSizes mpegVersion layer bitrateIndex padding)
  let length ← perform (newLength sizes.frameSize)
  let data ← readFully (.known (.eof "End of stream while reading frame data")) length
  let channels := if channelMode = 3 then 1 else 2
  let durationMicros ← perform (durationMicros data.length sizes.bitrate)
  return ⟨data, sizes.sampleRate, channels, durationMicros⟩

/-- The rest of a turn, from the header on. -/
def headerTurn (header : Int32) : EStateM Mp3Fault σ (Unit ⊕ Mp3Frame) :=
  let mpegVersion := (header >>> 19) &&& 0x3
  let layer := (header >>> 17) &&& 0x3
  let bitrateIndex := (header >>> 12) &&& 0xF
  let sampleRateIndex := (header >>> 10) &&& 0x3
  let padding := (header >>> 9) &&& 0x1
  let channelMode := (header >>> 6) &&& 0x3
  if layer ≠ 1 then pure (.inl ())
  else if mpegVersion = 1 then pure (.inl ())
  else if bitrateIndex = 0 ∨ bitrateIndex = 15 then pure (.inl ())
  else if sampleRateIndex = 3 then pure (.inl ())
  else do
    let frame ← readFrame mpegVersion layer bitrateIndex padding channelMode
    return .inr frame

def readHeader (b0 b1 : UInt8) : EStateM Mp3Fault σ (Unit ⊕ Mp3Frame) := do
  let b2 ← readByte
  let b3 ← readByte
  match b2, b3 with
  | some b2, some b3 => headerTurn (header b0 b1 b2 b3)
  | _, _ => throw (.known (.eof "End of stream while reading frame header"))

/-- A turn of the loop in `nextFrame()`. -/
def frameTurn (_ : Unit) : EStateM Mp3Fault σ (Unit ⊕ Mp3Frame) :=
  readElse (throw (.known (.eof "End of stream while searching for sync word"))) fun b0 =>
    if b0 ≠ 0xFF then pure (.inl ())
    else
      readElse (throw (.known (.eof "End of stream after sync word"))) fun b1 =>
        if b1 &&& 0xE0 ≠ 0xE0 then pure (.inl ()) else readHeader b0 b1

/-! ### No check fails -/

/-- Both throw the same `EOFException`. -/
def SameEof (e : Mp3Error) (e' : Mp3Fault) : Prop := e' = .known e ∧ ∃ message, e = .eof message

theorem sameEof (message : String) : SameEof (.eof message) (.known (.eof message)) :=
  ⟨rfl, message, rfl⟩

/-- The sizes of a frame that can be read. -/
def FrameSizes.Fine (sizes : FrameSizes) : Prop :=
  0 ≤ sizes.frameSize ∧ sizes.frameSize ≤ 5761 ∧ 0 < sizes.bitrate

instance (sizes : FrameSizes) : Decidable sizes.Fine := inferInstanceAs (Decidable (_ ∧ _ ∧ _))

/-- The sizes are computed without a fault, and are fine. -/
def sizesFine (mpegVersion bitrateIndex padding : Int32) : Bool :=
  match frameSizes mpegVersion 1 bitrateIndex padding with
  | .ok sizes => decide sizes.Fine
  | .error _ => false

/-- **All headers**: three versions, fourteen bitrates, with padding and without.  The longest frame
is one of 320 kbit/s at 8000 Hz with padding. -/
theorem frameSizes_fine : ∀ v : Fin 4, ∀ b : Fin 16, ∀ p : Fin 2, v ≠ 1 → b ≠ 0 → b ≠ 15 →
    sizesFine (Int32.ofNat v.val) (Int32.ofNat b.val) (Int32.ofNat p.val) = true := by
  decide +kernel

/-- A mask of `w` ones leaves a number of `w` bits. -/
theorem and_mask (x : Int32) (w : Nat) (hw : w < 31) :
    ∃ k : Fin (2 ^ w), x &&& Int32.ofNat (2 ^ w - 1) = Int32.ofNat k.val := by
  have hpos : 0 < 2 ^ w := Nat.two_pow_pos w
  have hlt : 2 ^ w < 2 ^ 31 := Nat.pow_lt_pow_right (by decide) hw
  have hmask : (Int32.ofNat (2 ^ w - 1)).toBitVec.toNat = 2 ^ w - 1 := by
    rw [Int32.toBitVec_ofNat', BitVec.toNat_ofNat, Nat.mod_eq_of_lt (by omega)]
  have hrest : x.toBitVec.toNat % 2 ^ w < 2 ^ w := Nat.mod_lt _ hpos
  have hand : x &&& Int32.ofNat (2 ^ w - 1) = Int32.ofNat (x.toBitVec.toNat % 2 ^ w) := by
    rw [← Int32.toBitVec_inj, ← BitVec.toNat_inj, Int32.toBitVec_and, BitVec.toNat_and, hmask,
      Nat.and_two_pow_sub_one_eq_mod, Int32.toBitVec_ofNat', BitVec.toNat_ofNat]
    exact (Nat.mod_eq_of_lt (by omega)).symm
  exact ⟨⟨_, hrest⟩, hand⟩

/-- The sizes of every header that is accepted. -/
theorem frameSizes_of_header {header : Int32} (hlayer : (header >>> 17) &&& 0x3 = 1)
    (hversion : (header >>> 19) &&& 0x3 ≠ 1)
    (hbitrate : ¬ ((header >>> 12) &&& 0xF = 0 ∨ (header >>> 12) &&& 0xF = 15)) :
    ∃ sizes, frameSizes ((header >>> 19) &&& 0x3) ((header >>> 17) &&& 0x3)
      ((header >>> 12) &&& 0xF) ((header >>> 9) &&& 0x1) = .ok sizes ∧ sizes.Fine := by
  obtain ⟨v, hv⟩ := and_mask (header >>> 19) 2 (by decide)
  obtain ⟨b, hb⟩ := and_mask (header >>> 12) 4 (by decide)
  obtain ⟨p, hp⟩ := and_mask (header >>> 9) 1 (by decide)
  have hv' : (header >>> 19) &&& 0x3 = Int32.ofNat v.val := hv
  have hb' : (header >>> 12) &&& 0xF = Int32.ofNat b.val := hb
  have hp' : (header >>> 9) &&& 0x1 = Int32.ofNat p.val := hp
  rw [hlayer, hv', hb', hp']
  rw [hv'] at hversion
  rw [hb'] at hbitrate
  have hfine := frameSizes_fine v b p
    (by rintro rfl; exact hversion rfl) (by rintro rfl; exact hbitrate (.inl rfl))
    (by rintro rfl; exact hbitrate (.inr rfl))
  unfold sizesFine at hfine
  split at hfine
  · next sizes hsizes => exact ⟨sizes, hsizes, of_decide_eq_true hfine⟩
  · cases hfine

theorem computed_bind {ε α γ : Type} {x : Except ε α} {f : α → Except ε γ} {c : γ}
    (h : (x >>= f) = .ok c) : ∃ a, x = .ok a ∧ f a = .ok c := by
  cases x with
  | error e => cases h
  | ok a => exact ⟨a, rfl, h⟩

theorem exactly_ok {result x : Int32} {value : Int}
    (h : (exactly result value : Except Mp3Fault Int32) = .ok x) : x = result := by
  unfold exactly at h
  split at h
  · cases h
    rfl
  · cases h

theorem div_ok {a b x : Int32} (h : (div a b : Except Mp3Fault Int32) = .ok x) : x = a / b := by
  unfold div at h
  split at h
  · cases h
  · exact exactly_ok h

omit [InputStream σ UInt8] in
theorem lookup_pure {α : Type} {array : List α} {index : Int32} {a : α}
    (h : lookup array index = .ok a) :
    (Mp3.lookup array index : EStateM Mp3Error σ α) = pure a := by
  unfold lookup at h
  split at h
  · cases h
  · next hpos =>
    unfold element at h
    rw [Mp3.lookup, if_neg hpos]
    split at h
    · next b hb =>
      cases h
      rw [hb]
    · cases h

/-- **The reader without the checks**, when they do not fail: all that is left to do is to read. -/
theorem readFrame_eq {mpegVersion layer bitrateIndex padding : Int32} {sizes : FrameSizes}
    (h : frameSizes mpegVersion layer bitrateIndex padding = .ok sizes) (hfine : sizes.Fine)
    (channelMode : Int32) :
    (Mp3.readFrame mpegVersion layer bitrateIndex padding channelMode : EStateM Mp3Error σ _) = (do
      let data ← InputStream.readFully (.eof "End of stream while reading frame data")
        sizes.frameSize.toNatClampNeg
      return ⟨data, sizes.sampleRate, if channelMode = 3 then 1 else 2,
        Int64.ofNat data.length * 1000000 * 8 / sizes.bitrate.toInt64⟩) := by
  obtain ⟨layerCol, hlayer, h⟩ := computed_bind h
  obtain ⟨row, hrow, h⟩ := computed_bind h
  obtain ⟨entry, hentry, h⟩ := computed_bind h
  obtain ⟨bitrate, hbitrate, h⟩ := computed_bind h
  obtain ⟨sampleRate, hrate, h⟩ := computed_bind h
  obtain ⟨bits, hbits, h⟩ := computed_bind h
  obtain ⟨quotient, hquotient, h⟩ := computed_bind h
  obtain ⟨frameSize, hsize, h⟩ := computed_bind h
  cases h
  obtain rfl := exactly_ok hlayer
  obtain rfl := exactly_ok hbitrate
  obtain rfl := exactly_ok hbits
  obtain rfl := div_ok hquotient
  obtain rfl := exactly_ok hsize
  have hpos : ¬ (144 * (entry * 1000)) / sampleRate + padding < 0 := by
    rw [Int32.not_lt]
    exact hfine.1
  simp only [Mp3.readFrame, lookup_pure hrow, lookup_pure hentry, lookup_pure hrate, pure_bind,
    if_neg hpos]

theorem mulLong_eq {a b : Int64} (hlow : -2 ^ 63 ≤ a.toInt * b.toInt)
    (hhigh : a.toInt * b.toInt < 2 ^ 63) :
    (mulLong a b : Except Mp3Fault Int64) = .ok (a * b) ∧ (a * b).toInt = a.toInt * b.toInt := by
  have hproduct : (a * b).toInt = a.toInt * b.toInt := by
    rw [Int64.toInt_mul]
    exact Int.bmod_eq_of_le (by omega) (by omega)
  exact ⟨if_pos hproduct, hproduct⟩

theorem ok_bind {α β : Type} (a : α) (f : α → Except Mp3Fault β) : (Except.ok a >>= f) = f a := rfl

/-- The duration is computed without a fault. -/
theorem durationMicros_eq {length : Nat} (hlength : length ≤ 5761) {bitrate : Int32}
    (hbitrate : 0 < bitrate) :
    durationMicros length bitrate
      = .ok (Int64.ofNat length * 1000000 * 8 / bitrate.toInt64) := by
  have hpos : 0 < bitrate.toInt := Int32.lt_iff_toInt_lt.mp hbitrate
  have hbits : bitrate.toInt64.toInt = bitrate.toInt := Int32.toInt_toInt64 bitrate
  have hlen : (Int64.ofNat length).toInt = length := Int64.toInt_ofNat_of_lt (by omega)
  have hmillion : (1000000 : Int64).toInt = 1000000 := rfl
  have height : (8 : Int64).toInt = 8 := rfl
  obtain ⟨hmicros, hmicros'⟩ := mulLong_eq (a := Int64.ofNat length) (b := 1000000)
    (by rw [hlen, hmillion]; omega) (by rw [hlen, hmillion]; omega)
  rw [hlen, hmillion] at hmicros'
  obtain ⟨hscaled, hscaled'⟩ := mulLong_eq (a := Int64.ofNat length * 1000000) (b := 8)
    (by rw [hmicros', height]; omega) (by rw [hmicros', height]; omega)
  rw [hmicros', height] at hscaled'
  have hne : bitrate.toInt64 ≠ 0 := by
    intro hzero
    rw [hzero] at hbits
    rw [← hbits] at hpos
    exact absurd hpos (by decide)
  -- the quotient is not larger than what is divided
  have hquotient : (Int64.ofNat length * 1000000 * 8 / bitrate.toInt64).toInt
      = (Int64.ofNat length * 1000000 * 8).toInt.tdiv bitrate.toInt64.toInt := by
    have hnonneg : 0 ≤ ((length : Int) * 1000000 * 8).tdiv bitrate.toInt :=
      Int.tdiv_nonneg (by omega) (by omega)
    have hle : ((length : Int) * 1000000 * 8).tdiv bitrate.toInt ≤ (length : Int) * 1000000 * 8 :=
      Int.tdiv_le_self _ (by omega)
    rw [Int64.toInt_div, hscaled', hbits]
    exact Int.bmod_eq_of_le (by omega) (by omega)
  have hdiv : (divLong (Int64.ofNat length * 1000000 * 8) bitrate.toInt64 : Except Mp3Fault Int64)
      = .ok (Int64.ofNat length * 1000000 * 8 / bitrate.toInt64) := by
    rw [divLong, if_neg hne, exactlyLong, if_pos hquotient]
  rw [durationMicros, hmicros, ok_bind, hscaled, ok_bind, hdiv]

/-- What is known of a frame. -/
def SameFrame (f f' : Mp3Frame) : Prop := f' = f ∧ f.data.length ≤ 5761

/-- **A frame is read without a fault**, if its sizes are computed without one. -/
theorem tracks_readFrame {mpegVersion layer bitrateIndex padding : Int32} {sizes : FrameSizes}
    (h : frameSizes mpegVersion layer bitrateIndex padding = .ok sizes) (hfine : sizes.Fine)
    (channelMode : Int32) :
    Tracks SameEof SameFrame
      (Mp3.readFrame mpegVersion layer bitrateIndex padding channelMode : EStateM Mp3Error σ _)
      (readFrame mpegVersion layer bitrateIndex padding channelMode) := by
  obtain ⟨hpos, hle, hbitrate⟩ := id hfine
  have hlength : (newLength sizes.frameSize : Except Mp3Fault Nat)
      = .ok sizes.frameSize.toNatClampNeg := by
    rw [newLength, if_neg (Int32.not_lt.mpr hpos)]
  have hbound : sizes.frameSize.toNatClampNeg ≤ 5761 := by
    have hint : sizes.frameSize.toInt ≤ 5761 := Int32.le_iff_toInt_le.mp hle
    unfold Int32.toNatClampNeg
    omega
  rw [readFrame_eq h hfine channelMode]
  refine Tracks.bind_pure (by rw [h]; rfl) (Tracks.bind_pure (by rw [hlength]; rfl) ?_)
  refine (tracks_readFully (sameEof _) _).bind ?_
  intro data data' hdata
  obtain ⟨rfl, hlong⟩ := hdata
  refine Tracks.bind_pure (by rw [durationMicros_eq (by omega) hbitrate]; rfl) ?_
  exact tracks_pure ⟨rfl, by show data'.length ≤ 5761; omega⟩

theorem tracks_headerTurn (header : Int32) :
    Tracks SameEof (TurnsOr SameFrame) (Mp3.headerTurn header : EStateM Mp3Error σ _)
      (headerTurn header) := by
  refine Tracks.ite _ (fun _ => tracks_pure rfl) fun hlayer => ?_
  refine Tracks.ite _ (fun _ => tracks_pure rfl) fun hversion => ?_
  refine Tracks.ite _ (fun _ => tracks_pure rfl) fun hbitrate => ?_
  refine Tracks.ite _ (fun _ => tracks_pure rfl) fun _ => ?_
  obtain ⟨sizes, hsizes, hfine⟩ := frameSizes_of_header (not_not.mp hlayer) hversion hbitrate
  exact (tracks_readFrame hsizes hfine _).bind fun _ _ hframe => tracks_pure hframe

/-- **A turn of the search.** -/
theorem tracks_frameTurn (u : Unit) :
    Tracks SameEof (TurnsOr SameFrame) (Mp3.frameTurn u : EStateM Mp3Error σ _) (frameTurn u) := by
  refine Tracks.readElse (tracks_throw (sameEof _)) fun b0 => ?_
  refine Tracks.ite _ (fun _ => tracks_pure rfl) fun _ => ?_
  refine Tracks.readElse (tracks_throw (sameEof _)) fun b1 => ?_
  refine Tracks.ite _ (fun _ => tracks_pure rfl) fun _ => ?_
  refine tracks_readByte.bind ?_
  intro b2 b2' hb2
  obtain rfl : b2' = b2 := hb2
  refine tracks_readByte.bind ?_
  intro b3 b3' hb3
  obtain rfl : b3' = b3 := hb3
  cases b2' with
  | none => exact tracks_throw (sameEof _)
  | some b2 =>
    cases b3' with
    | none => exact tracks_throw (sameEof _)
    | some b3 => exact tracks_headerTurn _

theorem takes_frameTurn (u : Unit) :
    Takes (GoesOnOr fun _ => True) (frameTurn u : EStateM Mp3Fault σ _) := by
  refine (tracks_frameTurn u).takes ?_ (Mp3.takes_frameTurn u)
  intro a b _ _
  cases a with
  | inl c | inr frame => trivial

def nextFrame : EStateM Mp3Fault σ Mp3Frame := readingLoop frameTurn takes_frameTurn ()

theorem tracks_nextFrame :
    Tracks SameEof SameFrame (Mp3.nextFrame : EStateM Mp3Error σ _) nextFrame :=
  Tracks.loop tracks_frameTurn ()

end Reader

end Mp3Reader

/-! ## 4. Objects and their calls -/

section Sessions

variable {σ : Type} [InputStream σ UInt8]

/-- `new OggReader(input)`, then `nextPage()` for each call. -/
def oggSession (calls : List Unit) (input : σ) :
    Except (Fault Ogg.OggError) (Ogg.OggReader × List (Except (Fault Ogg.OggError) Ogg.OggPage)) :=
  session OggReader.oggReader (fun _ r => do return (← OggReader.nextPage r, r)) calls
    (OggStream.buffered input)

/-- `new Mp3Reader(input)`, then `nextFrame()` for each call. -/
def mp3Session (calls : List Unit) (input : σ) :
    Except (Fault Mp3.Mp3Error) (Unit × List (Except (Fault Mp3.Mp3Error) Mp3.Mp3Frame)) :=
  session (pure ()) (fun _ _ => do return (← Mp3Reader.nextFrame, ())) calls
    (.ofInput input : Buffered σ UInt8)

/-- An `IOException` of the source: all that an `OggReader` throws by itself are. -/
def OggReader.IsIoException (e : Fault Ogg.OggError) : Prop := ∃ thrown, e = .known thrown

/-- An `IOException` of the source: an `Mp3Reader` throws the one for the end of the stream. -/
def Mp3Reader.IsIoException (e : Fault Mp3.Mp3Error) : Prop := ∃ message, e = .known (.eof message)

/-- **`OggReader` and `Mp3Reader` withstand every stream**: construction and calls end, each with a
page or a frame of bounded length or with an `IOException`, and no check of the virtual machine ever
fails. -/
theorem ogg_mp3_robust (calls : List Unit) (input : σ) :
    Orderly OggReader.IsIoException (fun page => page.data.length ≤ 65025) calls.length
        (oggSession calls input)
      ∧ Orderly Mp3Reader.IsIoException (fun frame => frame.data.length ≤ 5761) calls.length
        (mp3Session calls input) := by
  constructor
  · refine session_orderly (fun _ => True) (fun _ => True) ?_ ?_ calls (fun _ _ => trivial) _
    · exact OggReader.tracks_oggReader.meets.mono (fun _ he => he) fun _ _ => trivial
    · intro _ r _ _
      refine (OggReader.tracks_nextPage r).meets.bind ?_
      intro page hpage
      obtain ⟨page', rfl, hlength⟩ := hpage
      exact meets_pure ⟨hlength, trivial⟩
  · have hframe : Meets Mp3Reader.IsIoException (fun frame => frame.data.length ≤ 5761)
        (Mp3Reader.nextFrame : EStateM _ (Buffered σ UInt8) _) := by
      refine Mp3Reader.tracks_nextFrame.meets.mono ?_ ?_
      · intro e he
        obtain ⟨thrown, rfl, message, rfl⟩ := he
        exact ⟨message, rfl⟩
      · intro frame hframe
        obtain ⟨frame', rfl, hlength⟩ := hframe
        exact hlength
    refine session_orderly (fun _ => True) (fun _ => True) (meets_pure trivial) ?_ calls
      (fun _ _ => trivial) _
    intro _ _ _ _
    refine hframe.bind ?_
    intro frame hlength
    exact meets_pure ⟨hlength, trivial⟩

end Sessions

end WebrtcBridge.Media.Checked
