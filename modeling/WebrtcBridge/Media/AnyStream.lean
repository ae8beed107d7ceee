/-
# `IvfReader`, `OggReader` and `H26xReader` on any stream

`Media.Ivf`, `Media.Ogg` and `Media.H26x` model the readers as far as their results need: a stream
is a list of pieces or a list of bytes, `skip` is not told from reading, and what is left after an
exception is forgotten.  Here are the same classes on ANY input stream, line by line: every call of
`read` and `skip` is one, and an exception leaves the stream where it is, so that the object can be
called again.

Two things are shown of each.  It acts on the bytes of its stream (`actsAs_*`), so how a stream
splits them does not matter; and on bytes it is the earlier model (`matches_*`, `nextSample_list`),
so what was shown there holds on every stream.
-/
import WebrtcBridge.Lib.InputStream
import WebrtcBridge.Media.H26x
import WebrtcBridge.Media.Ivf
import WebrtcBridge.Media.Ogg

namespace WebrtcBridge.Media

open Lib Lib.InputStream

/-! ## 1. `IvfReader` -/

namespace IvfStream

variable {σ : Type} [InputStream σ UInt8]

def readUnsignedByte : EStateM IvfError σ UInt8 := readOne (.eof "Unexpected end of stream")

/-- So many calls of `readUnsignedByte`. -/
def readUnsignedBytes : Nat → EStateM IvfError σ (List UInt8)
  | 0 => pure []
  | n + 1 => do
    let b ← readUnsignedByte
    let bs ← readUnsignedBytes n
    return b :: bs

def readU16Le : EStateM IvfError σ Int32 := do
  return Int32.ofNat (orBytes 0 0 (← readUnsignedBytes 2))

def readU32Le : EStateM IvfError σ Int64 := do
  return Int64.ofNat (orBytes 0 0 (← readUnsignedBytes 4))

def readU64Le : EStateM IvfError σ Int64 := do
  return Int64.ofNat (orBytes 0 0 (← readUnsignedBytes 8))

def readBytes (n : Int32) : EStateM IvfError σ (List UInt8) :=
  if n < 0 then throw .negativeArraySize
  else readFully (.eof "Unexpected end of stream") n.toNatClampNeg

/-- The constructor. -/
def ivfReader : EStateM IvfError σ IvfFileHeader := do
  let sig ← readBytes 4
  if sig ≠ ascii "DKIF" then throw (.io "IVF signature mismatch")
  let version ← readU16Le
  let headerSize ← readU16Le
  if version ≠ 0 then throw (.io ("Unknown IVF version: " ++ toString version))
  let _ ← readBytes 4
  let width ← readU16Le
  let height ← readU16Le
  let timebaseDenominator ← readU32Le
  let timebaseNumerator ← readU32Le
  let numFrames ← readU32Le
  let _ ← readU32Le
  if 32 < headerSize then
    skipFully (.eof "Unexpected end of IVF header") (headerSize - 32).toNatClampNeg
  return {
    width, height
    timebaseDenominator := timebaseDenominator.toInt32
    timebaseNumerator := timebaseNumerator.toInt32
    numFrames := numFrames.toInt32 }

def nextFrame : EStateM IvfError σ IvfFrame := do
  let frameSize ← readU32Le
  let timestamp ← readU64Le
  let data ← readBytes frameSize.toInt32
  if h : data.length ≤ 2 ^ 31 - 1 then return ⟨data, timestamp, h⟩ else throw .outOfMemory

/-- On the bytes. -/
theorem actsAs_readUnsignedBytes (n : Nat) :
    ActsAs (readUnsignedBytes n : EStateM IvfError σ _) (readUnsignedBytes n) := by
  induction n with
  | zero => exact actsAs_pure []
  | succ n ih =>
    refine (actsAs_readOne _).bind fun b => ?_
    exact ih.bind fun bs => actsAs_pure (b :: bs)

theorem actsAs_readU16Le : ActsAs (readU16Le : EStateM IvfError σ _) readU16Le :=
  (actsAs_readUnsignedBytes 2).bind fun _ => actsAs_pure _

theorem actsAs_readU32Le : ActsAs (readU32Le : EStateM IvfError σ _) readU32Le :=
  (actsAs_readUnsignedBytes 4).bind fun _ => actsAs_pure _

theorem actsAs_readU64Le : ActsAs (readU64Le : EStateM IvfError σ _) readU64Le :=
  (actsAs_readUnsignedBytes 8).bind fun _ => actsAs_pure _

theorem actsAs_readBytes (n : Int32) : ActsAs (readBytes n : EStateM IvfError σ _) (readBytes n) :=
  ActsAs.ite _ (actsAs_throw _) (actsAs_readFully _ _)

theorem actsAs_ivfReader : ActsAs (ivfReader : EStateM IvfError σ _) ivfReader := by
  refine (actsAs_readBytes 4).bind fun sig => ActsAs.check _ _ ?_
  refine actsAs_readU16Le.bind fun version => actsAs_readU16Le.bind fun headerSize => ?_
  refine ActsAs.check _ _ ((actsAs_readBytes 4).bind fun _ => ?_)
  refine actsAs_readU16Le.bind fun width => actsAs_readU16Le.bind fun height => ?_
  refine actsAs_readU32Le.bind fun den => actsAs_readU32Le.bind fun num => ?_
  refine actsAs_readU32Le.bind fun numFrames => actsAs_readU32Le.bind fun _ => ?_
  exact ActsAs.ite _ ((actsAs_skipFully _ _).bind fun _ => actsAs_pure _) (actsAs_pure _)

theorem actsAs_nextFrame : ActsAs (nextFrame : EStateM IvfError σ _) nextFrame := by
  refine actsAs_readU32Le.bind fun frameSize => actsAs_readU64Le.bind fun timestamp => ?_
  refine (actsAs_readBytes _).bind fun data => ?_
  split
  · exact actsAs_pure _
  · exact actsAs_throw _

/-- The earlier model. -/
theorem matches_readUnsignedBytes (n : Nat) :
    Matches (Media.readUnsignedBytes n) (readUnsignedBytes n) := by
  induction n with
  | zero => exact matches_pure []
  | succ n ih =>
    refine (matches_readOne _).bind fun b => ?_
    exact ih.bind fun bs => matches_pure (b :: bs)

theorem matches_readU16Le : Matches Media.readU16Le readU16Le :=
  (matches_readUnsignedBytes 2).bind fun _ => matches_pure _

theorem matches_readU32Le : Matches Media.readU32Le readU32Le :=
  (matches_readUnsignedBytes 4).bind fun _ => matches_pure _

theorem matches_readU64Le : Matches Media.readU64Le readU64Le :=
  (matches_readUnsignedBytes 8).bind fun _ => matches_pure _

theorem matches_readBytes (n : Int32) : Matches (Media.readBytes n) (readBytes n) :=
  Matches.ite _ (matches_throw _) (matches_readFully _ _)

/-- **The constructor is that of `Media.Ivf`.** -/
theorem matches_ivfReader : Matches Media.ivfReader ivfReader := by
  refine (matches_readBytes 4).bind fun sig => Matches.check _ _ ?_
  refine matches_readU16Le.bind fun version => matches_readU16Le.bind fun headerSize => ?_
  refine Matches.check _ _ ((matches_readBytes 4).bind fun _ => ?_)
  refine matches_readU16Le.bind fun width => matches_readU16Le.bind fun height => ?_
  refine matches_readU32Le.bind fun den => matches_readU32Le.bind fun num => ?_
  refine matches_readU32Le.bind fun numFrames => matches_readU32Le.bind fun _ => ?_
  exact Matches.ite _ (matches_skipFully _ _ fun _ => matches_pure _) (matches_pure _)

/-- **And so is `nextFrame`.** -/
theorem matches_nextFrame : Matches Media.nextFrame nextFrame := by
  refine matches_readU32Le.bind fun frameSize => matches_readU64Le.bind fun timestamp => ?_
  refine (matches_readBytes _).bind fun data => ?_
  split
  · exact matches_pure _
  · exact matches_throw _

end IvfStream

/-! ## 2. `OggReader` -/

namespace OggStream

open Media.Ogg

variable {σ : Type} [InputStream σ UInt8]

def readByte : EStateM OggError σ UInt8 := readOne .eof

def readBytes (count : Nat) : EStateM OggError σ (List UInt8) := readFully .eof count

def readU32 : EStateM OggError σ Int32 := do
  return Int32.ofNat (orBytes 0 0 (← readBytes 4))

def readU64 : EStateM OggError σ Int64 := do
  return Int64.ofNat (orBytes 0 0 (← readBytes 8))

/-- The loop that reads the table and adds it up. -/
def readSegmentSizes : Nat → Nat → EStateM OggError σ Nat
  | 0, totalPayloadSize => pure totalPayloadSize
  | n + 1, totalPayloadSize => do
    let size ← readByte
    readSegmentSizes n (totalPayloadSize + size.toNat)

/-- `readRawPage()`, and the rest of `nextPage()`. -/
def readRawPage : EStateM OggError σ OggPage := do
  let capture ← readBytes 4
  if capture ≠ ascii "OggS" then throw (.io "Invalid OGG capture pattern")
  let version ← readByte
  if version ≠ 0 then throw (.io ("Unsupported OGG version: " ++ toString version))
  let _ ← readByte
  let granulePosition ← readU64
  let serial ← readU32
  let _ ← readU32
  let _ ← readU32
  let numSegments ← readByte
  let totalPayloadSize ← readSegmentSizes numSegments.toNat 0
  let payload ← readBytes totalPayloadSize
  return ⟨payload, granulePosition, serial⟩

/-- The buffer that the constructor puts in front of its input. -/
def buffered (input : σ) : Buffered σ UInt8 := .new 65536 (by decide) input

@[simp] theorem elems_buffered (input : σ) : elems (buffered input) = elems input := rfl

/-- The constructor. -/
def oggReader : EStateM OggError σ OggReader := do
  let firstPage ← readRawPage
  let data := firstPage.data
  if data.length < 19 then throw (.io "OpusHead packet too short")
  if data.take 8 ≠ ascii "OpusHead" then throw (.io "Invalid OpusHead magic")
  let version := data.getD 8 0
  if 1 < version then throw (.io ("Unsupported OpusHead version: " ++ toString version))
  return ⟨opusHeader data, true⟩

def skipOpusTags : EStateM OggError σ Unit := do
  let _ ← readRawPage

def nextPage (r : OggReader) : EStateM OggError σ OggPage := do
  if !r.headerParsed then skipOpusTags
  readRawPage

theorem actsAs_readU32 : ActsAs (readU32 : EStateM OggError σ _) readU32 :=
  (actsAs_readFully _ 4).bind fun _ => actsAs_pure _

theorem actsAs_readU64 : ActsAs (readU64 : EStateM OggError σ _) readU64 :=
  (actsAs_readFully _ 8).bind fun _ => actsAs_pure _

theorem actsAs_readSegmentSizes (n total : Nat) :
    ActsAs (readSegmentSizes n total : EStateM OggError σ _) (readSegmentSizes n total) := by
  induction n generalizing total with
  | zero => exact actsAs_pure total
  | succ n ih => exact (actsAs_readOne _).bind fun size => ih (total + size.toNat)

theorem actsAs_readRawPage : ActsAs (readRawPage : EStateM OggError σ _) readRawPage := by
  refine (actsAs_readFully _ 4).bind fun capture => ActsAs.check _ _ ?_
  refine (actsAs_readOne _).bind fun version => ActsAs.check _ _ ?_
  refine (actsAs_readOne _).bind fun _ => actsAs_readU64.bind fun granulePosition => ?_
  refine actsAs_readU32.bind fun serial => ?_
  refine actsAs_readU32.bind fun _ => actsAs_readU32.bind fun _ => ?_
  refine (actsAs_readOne _).bind fun numSegments => ?_
  refine (actsAs_readSegmentSizes _ _).bind fun totalPayloadSize => ?_
  exact (actsAs_readFully _ _).bind fun payload => actsAs_pure _

theorem actsAs_oggReader : ActsAs (oggReader : EStateM OggError σ _) oggReader := by
  refine actsAs_readRawPage.bind fun firstPage => ActsAs.check _ _ ?_
  exact ActsAs.check _ _ (ActsAs.check _ _ (actsAs_pure _))

theorem actsAs_nextPage (r : OggReader) :
    ActsAs (nextPage r : EStateM OggError σ _) (nextPage r) :=
  ActsAs.ite _ ((actsAs_readRawPage.bind fun _ => actsAs_pure _).bind fun _ => actsAs_readRawPage)
    actsAs_readRawPage

theorem matches_readU32 : Matches Ogg.readU32 readU32 :=
  (matches_readFully _ 4).bind fun _ => matches_pure _

theorem matches_readU64 : Matches Ogg.readU64 readU64 :=
  (matches_readFully _ 8).bind fun _ => matches_pure _

theorem matches_readSegmentSizes (n total : Nat) :
    Matches (Ogg.readSegmentSizes n total) (readSegmentSizes n total) := by
  induction n generalizing total with
  | zero => exact matches_pure total
  | succ n ih => exact (matches_readOne _).bind fun size => ih (total + size.toNat)

/-- **A page is read as in `Media.Ogg`.** -/
theorem matches_readRawPage : Matches Ogg.readRawPage readRawPage := by
  refine (matches_readFully _ 4).bind fun capture => Matches.check _ _ ?_
  refine (matches_readOne _).bind fun version => Matches.check _ _ ?_
  refine (matches_readOne _).bind fun _ => matches_readU64.bind fun granulePosition => ?_
  refine matches_readU32.bind fun serial => ?_
  refine matches_readU32.bind fun _ => matches_readU32.bind fun _ => ?_
  refine (matches_readOne _).bind fun numSegments => ?_
  refine (matches_readSegmentSizes _ _).bind fun totalPayloadSize => ?_
  exact (matches_readFully _ _).bind fun payload => matches_pure _

/-- **And so is the first one.** -/
theorem matches_oggReader : Matches Ogg.oggReader oggReader := by
  refine matches_readRawPage.bind fun firstPage => Matches.check _ _ ?_
  exact Matches.check _ _ (Matches.check _ _ (matches_pure _))

theorem matches_nextPage (r : OggReader) : Matches r.nextPage (nextPage r) :=
  Matches.ite _
    ((matches_readRawPage.bind fun _ => matches_pure _).bind fun _ => matches_readRawPage)
    matches_readRawPage

end OggStream

/-! ## 3. `H26xReader` -/

namespace H26xStream

open Media.H26x

variable {σ : Type} [InputStream σ UInt8]

/-- The object, besides its input and the codec. -/
structure Fields where
  eos : Bool := false
  pendingNal : Option (List UInt8) := none
  deriving DecidableEq, Repr

/-- A turn of `skipToStartCode()`; it breaks with `false` at the end of the stream. -/
def startTurn (_ : Unit) : EStateM Empty σ (Unit ⊕ Bool) :=
  readElse (pure (.inr false)) fun b =>
    if b ≠ 0 then pure (.inl ())
    else readElse (pure (.inr false)) fun b1 =>
      if b1 ≠ 0 then pure (.inl ())
      else readElse (pure (.inr false)) fun b2 =>
        if b2 = 1 then pure (.inr true)
        else if b2 ≠ 0 then pure (.inl ())
        else readElse (pure (.inr false)) fun b3 =>
          if b3 = 1 then pure (.inr true) else pure (.inl ())

theorem takes_startTurn (u : Unit) :
    Takes (GoesOnOr (· = true)) (startTurn u : EStateM Empty σ _) := by
  refine Takes.readElse (fun s a s' h => by cases h; simp [GoesOnOr]) fun b => ?_
  refine Shrinks.ite _ (shrinks_pure _) (Shrinks.readElse (shrinks_pure _) fun b1 => ?_)
  refine Shrinks.ite _ (shrinks_pure _) (Shrinks.readElse (shrinks_pure _) fun b2 => ?_)
  refine Shrinks.ite _ (shrinks_pure _) (Shrinks.ite _ (shrinks_pure _) ?_)
  refine Shrinks.readElse (shrinks_pure _) fun b3 => ?_
  exact Shrinks.ite _ (shrinks_pure _) (shrinks_pure _)

/-- `skipToStartCode()`: `false` is what sets `eos`. -/
def skipToStartCode : EStateM Empty σ Bool := readingLoop startTurn takes_startTurn ()

/-- A turn of the loop of `readNextNal()`, with what it puts into the fields when it ends. -/
def nalTurn (nalBuf : List UInt8) : EStateM Empty σ (List UInt8 ⊕ (List UInt8 × Fields)) :=
  readElse (pure (.inr (nalBuf, ⟨true, none⟩))) fun b =>
    readElse (pure (.inr (nalBuf ++ [b], ⟨true, none⟩))) fun b1 =>
      readElse (pure (.inr (nalBuf ++ [b, b1], ⟨true, none⟩))) fun b2 =>
        if b = 0 ∧ b1 = 0 ∧ (b2 = 0 ∨ b2 = 1) then pure (.inr (nalBuf, ⟨false, some [0, 0, b2]⟩))
        else pure (.inl (nalBuf ++ [b, b1, b2]))

theorem takes_nalTurn (nalBuf : List UInt8) :
    Takes (GoesOnOr fun _ => False) (nalTurn nalBuf : EStateM Empty σ _) := by
  refine Takes.readElse (fun s a s' h => by cases h; exact id) fun b => ?_
  refine Shrinks.readElse (shrinks_pure _) fun b1 => Shrinks.readElse (shrinks_pure _) fun b2 => ?_
  exact Shrinks.ite _ (shrinks_pure _) (shrinks_pure _)

/-- The loop, from the start code on. -/
def readNal : EStateM Empty σ (List UInt8 × Fields) := readingLoop nalTurn takes_nalTurn [0, 0, 1]

/-- `readNextNal()`. -/
def readNextNal (r : Fields) : EStateM Empty σ (Option (List UInt8) × Fields) :=
  match r.pendingNal with
  | some nal => pure (some nal, { r with pendingNal := none })
  | none =>
    if r.eos then pure (none, r)
    else do
      let found ← skipToStartCode
      if found then
        let (nal, r') ← readNal
        return (some nal, r')
      else return (none, { r with eos := true })

/-- What is left to read: every unit that is returned takes from it. -/
def left (r : Fields) (s : σ) : Nat :=
  2 * (elems s).length + if r.pendingNal.isSome then 1 else 0

theorem shrinks_nalTurn (nalBuf : List UInt8) : Shrinks (nalTurn nalBuf : EStateM Empty σ _) := by
  refine Shrinks.readElse (shrinks_pure _) fun b => Shrinks.readElse (shrinks_pure _) fun b1 => ?_
  exact Shrinks.readElse (shrinks_pure _) fun b2 => Shrinks.ite _ (shrinks_pure _) (shrinks_pure _)

theorem readNextNal_left {r r' : Fields} {s s' : σ} {nal : List UInt8}
    (h : readNextNal r s = .ok (some nal, r') s') : left r' s' < left r s := by
  unfold readNextNal at h
  cases hp : r.pendingNal with
  | some p =>
    rw [hp] at h
    cases h
    simp [left, hp]
  | none =>
    rw [hp] at h
    simp only at h
    split at h
    · cases h
    · obtain ⟨found, t, hskip, hrest⟩ := bind_eq_ok h
      cases found with
      | false => cases hrest
      | true =>
        obtain ⟨⟨nal', r''⟩, t', hnal, hpure⟩ := bind_eq_ok hrest
        cases hpure
        have htaken := takes_readingLoop takes_startTurn () s true t hskip rfl
        have hshrunk := (Shrinks.loop shrinks_nalTurn [0, 0, 1] t _ s' hnal).length_le
        simp only [left, hp, Option.isSome_none, Bool.false_eq_true, if_false]
        split <;> omega

/-- A turn of `nextSample()`: what is collected, whether it has a VCL unit, and the fields. -/
def sampleTurn (isHevc : Bool) (c : List UInt8 × Bool × Fields) :
    EStateM Empty σ ((List UInt8 × Bool × Fields) ⊕ (List UInt8 × Bool × Fields)) := do
  let (acc, hasVcl, r) := c
  match ← readNextNal r with
  | (none, r') => return .inr (acc, hasVcl, { r' with eos := true })
  | (some nal, r') =>
    if isVclNal isHevc nal then return .inl (acc ++ nal, true, r')
    else if !hasVcl then return .inl (acc ++ nal, hasVcl, r')
    else return .inr (acc, hasVcl, { r' with pendingNal := some nal })

theorem sampleTurn_left (isHevc : Bool) (c : List UInt8 × Bool × Fields) (s : σ)
    (c' : List UInt8 × Bool × Fields) (s' : σ)
    (h : sampleTurn isHevc c s = .ok (.inl c') s') : left c'.2.2 s' < left c.2.2 s := by
  obtain ⟨acc, hasVcl, r⟩ := c
  obtain ⟨⟨nal, r'⟩, t, hnal, hrest⟩ := bind_eq_ok h
  cases nal with
  | none => cases hrest
  | some nal =>
    have hlt := readNextNal_left hnal
    simp only at hrest
    split at hrest
    · cases hrest
      exact hlt
    · split at hrest
      · cases hrest
        exact hlt
      · cases hrest

/-- `nextSample()`. -/
def nextSample (isHevc : Bool) (r : Fields) : EStateM Empty σ (Option H26xSample × Fields) :=
  if r.eos then pure (none, r)
  else do
    let (acc, hasVcl, r') ←
      loop (sampleTurn isHevc) (fun c s => left c.2.2 s) (sampleTurn_left isHevc) ([], false, r)
    return (if acc.length = 0 then none else some ⟨acc, hasVcl⟩, r')

theorem actsAs_skipToStartCode : ActsAs (skipToStartCode : EStateM Empty σ _) skipToStartCode := by
  refine ActsAs.loop (fun _ => ?_) ()
  refine ActsAs.readElse (actsAs_pure _) fun b => ActsAs.ite _ (actsAs_pure _) ?_
  refine ActsAs.readElse (actsAs_pure _) fun b1 => ActsAs.ite _ (actsAs_pure _) ?_
  refine ActsAs.readElse (actsAs_pure _) fun b2 => ActsAs.ite _ (actsAs_pure _) ?_
  refine ActsAs.ite _ (actsAs_pure _) (ActsAs.readElse (actsAs_pure _) fun b3 => ?_)
  exact ActsAs.ite _ (actsAs_pure _) (actsAs_pure _)

theorem actsAs_readNal : ActsAs (readNal : EStateM Empty σ _) readNal := by
  refine ActsAs.loop (fun nalBuf => ?_) [0, 0, 1]
  refine ActsAs.readElse (actsAs_pure _) fun b => ActsAs.readElse (actsAs_pure _) fun b1 => ?_
  exact ActsAs.readElse (actsAs_pure _) fun b2 => ActsAs.ite _ (actsAs_pure _) (actsAs_pure _)

theorem actsAs_readNextNal (r : Fields) :
    ActsAs (readNextNal r : EStateM Empty σ _) (readNextNal r) := by
  unfold readNextNal
  cases r.pendingNal with
  | some nal => exact actsAs_pure _
  | none =>
    refine ActsAs.ite _ (actsAs_pure _) (actsAs_skipToStartCode.bind fun found => ?_)
    exact ActsAs.ite _ (actsAs_readNal.bind fun _ => actsAs_pure _) (actsAs_pure _)

theorem actsAs_nextSample (isHevc : Bool) (r : Fields) :
    ActsAs (nextSample isHevc r : EStateM Empty σ _) (nextSample isHevc r) := by
  refine ActsAs.ite _ (actsAs_pure _) (ActsAs.bind (ActsAs.loop (fun c => ?_) _) fun _ => ?_)
  · refine (actsAs_readNextNal _).bind fun v => ?_
    obtain ⟨nal, r'⟩ := v
    cases nal with
    | none => exact actsAs_pure _
    | some nal =>
      exact ActsAs.ite _ (actsAs_pure _) (ActsAs.ite _ (actsAs_pure _) (actsAs_pure _))
  · exact actsAs_pure _

/-- What a turn of `skipToStartCode()` does to bytes, beside what `Media.H26x` makes of them. -/
theorem startTurn_list (xs : List UInt8) :
    (startTurn () xs = .ok (.inr false) [] ∧ H26x.skipToStartCode xs = none)
      ∨ (∃ rest, startTurn () xs = .ok (.inr true) rest ∧ H26x.skipToStartCode xs = some rest)
      ∨ ∃ rest, startTurn () xs = .ok (.inl ()) rest ∧ rest.length < xs.length
          ∧ H26x.skipToStartCode xs = H26x.skipToStartCode rest := by
  rw [H26x.skipToStartCode.eq_def xs]
  rcases xs with - | ⟨b, rest⟩
  · exact .inl ⟨rfl, rfl⟩
  by_cases hb : b = 0
  · rcases rest with - | ⟨b1, rest⟩
    · exact .inl ⟨by simp [startTurn, hb, pure, EStateM.pure], by simp [hb]⟩
    by_cases hb1 : b1 = 0
    · rcases rest with - | ⟨b2, rest⟩
      · exact .inl ⟨by simp [startTurn, hb, hb1, pure, EStateM.pure], by simp [hb, hb1]⟩
      by_cases hone : b2 = 1
      · exact .inr (.inl ⟨rest, by simp [startTurn, hb, hb1, hone, pure, EStateM.pure],
          by simp [hb, hb1, hone]⟩)
      by_cases hb2 : b2 = 0
      · rcases rest with - | ⟨b3, rest⟩
        · exact .inl ⟨by simp [startTurn, hb, hb1, hb2, pure, EStateM.pure], by simp [hb, hb1, hb2]⟩
        by_cases hb3 : b3 = 1
        · exact .inr (.inl ⟨rest, by simp [startTurn, hb, hb1, hb2, hb3, pure, EStateM.pure],
            by simp [hb, hb1, hb2, hb3]⟩)
        · exact .inr (.inr ⟨rest, by simp [startTurn, hb, hb1, hb2, hb3, pure, EStateM.pure],
            by simp only [List.length_cons]; omega, by simp [hb, hb1, hb2, hb3]⟩)
      · exact .inr (.inr ⟨rest, by simp [startTurn, hb, hb1, hone, hb2, pure, EStateM.pure],
          by simp only [List.length_cons]; omega, by simp [hb, hb1, hone, hb2]⟩)
    · exact .inr (.inr ⟨rest, by simp [startTurn, hb, hb1, pure, EStateM.pure],
        by simp only [List.length_cons]; omega, by simp [hb, hb1]⟩)
  · exact .inr (.inr ⟨rest, by simp [startTurn, hb, pure, EStateM.pure], by simp, by simp [hb]⟩)

theorem skipToStartCode_list (xs : List UInt8) :
    skipToStartCode xs = match H26x.skipToStartCode xs with
      | none => .ok false []
      | some rest => .ok true rest := by
  unfold skipToStartCode readingLoop
  induction hn : xs.length using Nat.strongRecOn generalizing xs with
  | ind n ih =>
    rcases startTurn_list xs with ⟨hturn, hold⟩ | ⟨rest, hturn, hold⟩ | ⟨rest, hturn, hlt, hold⟩
    · rw [loop_break hturn, hold]
    · rw [loop_break hturn, hold]
    · rw [loop_next hturn, hold]
      exact ih rest.length (hn ▸ hlt) rest rfl

theorem readNal_list (nalBuf xs : List UInt8) :
    readingLoop nalTurn takes_nalTurn nalBuf xs
      = .ok ((H26x.readNal nalBuf xs).nal,
          ⟨(H26x.readNal nalBuf xs).eos, (H26x.readNal nalBuf xs).pendingNal⟩)
          (H26x.readNal nalBuf xs).input := by
  unfold readingLoop
  -- three bytes at a time
  induction hn : xs.length using Nat.strongRecOn generalizing nalBuf xs with
  | ind n ih =>
    rcases xs with - | ⟨b, - | ⟨b1, - | ⟨b2, rest⟩⟩⟩
    · have hturn : nalTurn nalBuf ([] : List UInt8) = .ok (.inr (nalBuf, ⟨true, none⟩)) [] := rfl
      rw [loop_break hturn]
      simp [H26x.readNal]
    · have hturn : nalTurn nalBuf [b] = .ok (.inr (nalBuf ++ [b], ⟨true, none⟩)) [] := rfl
      rw [loop_break hturn]
      simp [H26x.readNal]
    · have hturn : nalTurn nalBuf [b, b1] = .ok (.inr (nalBuf ++ [b, b1], ⟨true, none⟩)) [] := rfl
      rw [loop_break hturn]
      simp [H26x.readNal]
    by_cases h : b = 0 ∧ b1 = 0 ∧ (b2 = 0 ∨ b2 = 1)
    · have hturn : nalTurn nalBuf (b :: b1 :: b2 :: rest)
          = .ok (.inr (nalBuf, ⟨false, some [0, 0, b2]⟩)) rest := by
        simp [nalTurn, h, pure, EStateM.pure]
      rw [loop_break hturn, H26x.readNal, if_pos h]
    · have hturn : nalTurn nalBuf (b :: b1 :: b2 :: rest)
          = .ok (.inl (nalBuf ++ [b, b1, b2])) rest := by
        simp [nalTurn, h, pure, EStateM.pure]
      have hlt : rest.length < n := by
        simp only [List.length_cons] at hn
        omega
      rw [loop_next hturn, ih rest.length hlt _ rest rfl, H26x.readNal, if_neg h]

/-- The fields and the bytes as the object of `Media.H26x`. -/
def Fields.toReader (r : Fields) (isHevc : Bool) (xs : List UInt8) : H26x.H26xReader :=
  ⟨xs, isHevc, r.eos, r.pendingNal⟩

theorem readNextNal_list (isHevc : Bool) (r : Fields) (xs : List UInt8) :
    ∃ nal r' xs', readNextNal r xs = .ok (nal, r') xs'
      ∧ H26x.readNextNal (r.toReader isHevc xs) = (nal, r'.toReader isHevc xs') := by
  unfold readNextNal H26x.readNextNal
  obtain ⟨eos, pendingNal⟩ := r
  cases pendingNal with
  | some nal => exact ⟨_, _, _, rfl, rfl⟩
  | none =>
    cases eos with
    | true => exact ⟨_, _, _, rfl, rfl⟩
    | false =>
      have hskip := skipToStartCode_list xs
      simp only [Fields.toReader, Bool.false_eq_true, if_false]
      cases hold : H26x.skipToStartCode xs with
      | none =>
        rw [hold] at hskip
        exact ⟨none, ⟨true, none⟩, [], by simp [bind, EStateM.bind, hskip, pure, EStateM.pure], rfl⟩
      | some rest =>
        rw [hold] at hskip
        have hnal : readNal rest = _ := readNal_list [0, 0, 1] rest
        exact ⟨some (H26x.readNal [0, 0, 1] rest).nal, ⟨_, _⟩, _,
          by simp only [bind, EStateM.bind, hskip, hnal, pure, EStateM.pure, if_true], rfl⟩

theorem sampleLoop_list (isHevc : Bool) (acc : List UInt8) (hasVcl : Bool) (r : Fields)
    (xs : List UInt8) : ∃ acc' hasVcl' r' xs',
      loop (sampleTurn isHevc) (fun c s => left c.2.2 s) (sampleTurn_left isHevc)
        (acc, hasVcl, r) xs
        = .ok (acc', hasVcl', r') xs'
      ∧ H26x.sampleLoop acc hasVcl (r.toReader isHevc xs)
        = (acc', hasVcl', r'.toReader isHevc xs') := by
  -- on what is left: every turn that goes on takes a unit
  induction hn : left r xs using Nat.strongRecOn generalizing acc hasVcl r xs with
  | ind n ih =>
    obtain ⟨nal, r', xs', hread, hold⟩ := readNextNal_list isHevc r xs
    cases nal with
    | none =>
      have hturn : sampleTurn isHevc (acc, hasVcl, r) xs
          = .ok (.inr (acc, hasVcl, { r' with eos := true })) xs' := by
        simp [sampleTurn, bind, EStateM.bind, hread, pure, EStateM.pure]
      exact ⟨_, _, _, _, loop_break hturn, H26x.sampleLoop_none acc hasVcl hold⟩
    | some nal =>
      have hlt : left r' xs' < n := hn ▸ readNextNal_left hread
      cases hasVcl with
      | false =>
        have hturn : sampleTurn isHevc (acc, false, r) xs
            = .ok (.inl (acc ++ nal, isVclNal isHevc nal, r')) xs' := by
          cases hv : isVclNal isHevc nal <;>
            simp [sampleTurn, bind, EStateM.bind, hread, hv, pure, EStateM.pure]
        rw [loop_next hturn, H26x.sampleLoop_first acc hold]
        exact ih _ hlt _ _ r' xs' rfl
      | true =>
        cases hv : isVclNal isHevc nal with
        | false =>
          have hturn : sampleTurn isHevc (acc, true, r) xs
              = .ok (.inr (acc, true, { r' with pendingNal := some nal })) xs' := by
            simp [sampleTurn, bind, EStateM.bind, hread, hv, pure, EStateM.pure]
          exact ⟨_, _, _, _, loop_break hturn, H26x.sampleLoop_break acc hold hv⟩
        | true =>
          have hturn : sampleTurn isHevc (acc, true, r) xs
              = .ok (.inl (acc ++ nal, true, r')) xs' := by
            simp [sampleTurn, bind, EStateM.bind, hread, hv, pure, EStateM.pure]
          rw [loop_next hturn, H26x.sampleLoop_vcl acc true hold hv]
          exact ih _ hlt _ _ r' xs' rfl

/-- **On bytes the program is the one of `Media.H26x`.** -/
theorem nextSample_list (isHevc : Bool) (r : Fields) (xs : List UInt8) :
    ∃ sample r' xs', nextSample isHevc r xs = .ok (sample, r') xs'
      ∧ H26x.nextSample (r.toReader isHevc xs) = (sample, r'.toReader isHevc xs') := by
  unfold nextSample H26x.nextSample
  cases heos : r.eos with
  | true => exact ⟨none, r, xs, rfl, by simp [Fields.toReader, heos]⟩
  | false =>
    obtain ⟨acc, hasVcl, r', xs', hloop, hold⟩ := sampleLoop_list isHevc [] false r xs
    refine ⟨if acc.length = 0 then none else some ⟨acc, hasVcl⟩, r', xs', ?_, ?_⟩
    · simp [bind, EStateM.bind, hloop, pure, EStateM.pure]
    · rw [hold]
      simp only [Fields.toReader, heos, Bool.false_eq_true, if_false]
      split <;> rfl

end H26xStream

end WebrtcBridge.Media
