/-
# `Mp3Reader`: frames of MPEG-2 Layer III

`nextFrame` looks for a sync word, takes the header apart, computes the length of the frame from its
tables and reads so many bytes.  The class says that it supports MPEG-2 Layer III.  Three things are
wrong for that format:

* the sample rate is looked up by the VERSION of the header and not by its sample-rate index, in the
  table of MPEG-2.5: a frame of MPEG-2 is always said to have 12000 Hz;
* the column of the bitrate table and the factor 144 are those of MPEG-1;
* the four bytes of the header are counted in the length, but have been read already, and they are
  not part of `data()`.

The first alone decides the matter: 22050, 24000 and 16000 Hz are not in the table
(`nextFrame_sampleRate`), so no frame is ever delivered as it is (`mp3_frames_iff`).
-/
import WebrtcBridge.Lib.InputStream

namespace WebrtcBridge.Media.Mp3

open Lib Lib.InputStream

/-! ## 1. The reader -/

/-- What a reader throws. -/
inductive Mp3Error
  | eof (message : String)
  | negativeArraySize
  | indexOutOfBounds
  deriving DecidableEq, Repr

structure Mp3Frame where
  data : List UInt8
  sampleRate : Int32
  channels : Int32
  durationMicros : Int64
  deriving DecidableEq, Repr

/-- `BITRATE_TABLE`. -/
def bitrateTable : List (List Int32) := [
  [0, 0, 0, 0, 0, 0],
  [32, 32, 40, 48, 56, 80],
  [40, 48, 56, 64, 80, 96],
  [48, 56, 64, 80, 96, 112],
  [56, 64, 80, 96, 112, 128],
  [64, 80, 96, 112, 128, 160],
  [80, 96, 112, 128, 160, 192],
  [96, 112, 128, 160, 192, 224],
  [112, 128, 160, 192, 224, 256],
  [128, 160, 192, 224, 256, 320],
  [160, 192, 224, 256, 320, 384],
  [192, 224, 256, 320, 384, 448],
  [224, 256, 320, 384, 448, 512],
  [256, 320, 384, 448, 512, 576],
  [320, 384, 448, 512, 576, 640]]

/-- `SAMPLE_RATE_TABLE`. -/
def sampleRateTable : List Int32 := [11025, 12000, 8000]

section Reader

variable {σ : Type} [InputStream σ UInt8]

/-- `array[index]`. -/
def lookup {α : Type} (array : List α) (index : Int32) : EStateM Mp3Error σ α :=
  if index < 0 then throw .indexOutOfBounds
  else
    match array[index.toNatClampNeg]? with
    | none => throw .indexOutOfBounds
    | some a => pure a

/-- The four bytes as an `int`. -/
def header (b0 b1 b2 b3 : UInt8) : Int32 :=
  let int (b : UInt8) : Int32 := Int32.ofNat b.toNat
  (int b0 <<< 24) ||| (int b1 <<< 16) ||| (int b2 <<< 8) ||| int b3

/-- `tableIndex`. -/
def tableIndex (versionCol layerCol : Int32) : Int32 :=
  if versionCol = 0 ∧ layerCol = 0 then 5
  else if layerCol = 0 then 4
  else if versionCol = 0 ∧ layerCol = 1 then 3
  else if layerCol = 1 then 2
  else if versionCol = 0 ∧ layerCol = 2 then 1
  else 0

/-- `versionCol` and `srIndex`, which are computed alike. -/
def versionCol (mpegVersion : Int32) : Int32 :=
  if mpegVersion = 3 then 0 else if mpegVersion = 2 then 1 else 2

/-- The frame itself, once its header has been accepted. -/
def readFrame (mpegVersion layer bitrateIndex padding channelMode : Int32) :
    EStateM Mp3Error σ Mp3Frame := do
  let layerCol := 3 - layer
  let row ← lookup bitrateTable bitrateIndex
  let bitrate := (← lookup row (tableIndex (versionCol mpegVersion) layerCol)) * 1000
  -- the index in the header has no part in it
  let srIndex := versionCol mpegVersion
  let sampleRate ← lookup sampleRateTable srIndex
  let frameSize := (144 * bitrate) / sampleRate + padding
  if frameSize < 0 then throw .negativeArraySize
  let data ← readFully (.eof "End of stream while reading frame data") frameSize.toNatClampNeg
  let channels := if channelMode = 3 then 1 else 2
  let durationMicros := Int64.ofNat data.length * 1000000 * 8 / bitrate.toInt64
  return ⟨data, sampleRate, channels, durationMicros⟩

/-- The rest of a turn, from the header on. -/
def headerTurn (header : Int32) : EStateM Mp3Error σ (Unit ⊕ Mp3Frame) :=
  let mpegVersion := (header >>> 19) &&& 0x3
  let layer := (header >>> 17) &&& 0x3
  let bitrateIndex := (header >>> 12) &&& 0xF
  let sampleRateIndex := (header >>> 10) &&& 0x3
  let padding := (header >>> 9) &&& 0x1
  let channelMode := (header >>> 6) &&& 0x3
  if layer ≠ 1 then pure (.inl ())
  else if mpegVersion = 1 then pure (.inl ())
  else if bitrateIndex = 0 ∨ bitrateIndex = 15 then pure (.inl ())
  else if sampleRateIndex = 3 then pure (.inl ())
  else do
    let frame ← readFrame mpegVersion layer bitrateIndex padding channelMode
    return .inr frame

/-- `b2` and `b3` are read before either is looked at. -/
def readHeader (b0 b1 : UInt8) : EStateM Mp3Error σ (Unit ⊕ Mp3Frame) := do
  let b2 ← readByte
  let b3 ← readByte
  match b2, b3 with
  | some b2, some b3 => headerTurn (header b0 b1 b2 b3)
  | _, _ => throw (.eof "End of stream while reading frame header")

/-- A turn of the loop in `nextFrame()`. -/
def frameTurn (_ : Unit) : EStateM Mp3Error σ (Unit ⊕ Mp3Frame) :=
  readElse (throw (.eof "End of stream while searching for sync word")) fun b0 =>
    if b0 ≠ 0xFF then pure (.inl ())
    else
      readElse (throw (.eof "End of stream after sync word")) fun b1 =>
        if b1 &&& 0xE0 ≠ 0xE0 then pure (.inl ()) else readHeader b0 b1

theorem shrinks_lookup {α : Type} (array : List α) (index : Int32) :
    Shrinks (lookup array index : EStateM Mp3Error σ α) := by
  refine Shrinks.ite _ (shrinks_throw _) ?_
  cases array[index.toNatClampNeg]? with
  | none => exact shrinks_throw _
  | some a => exact shrinks_pure a

theorem shrinks_readFrame (mpegVersion layer bitrateIndex padding channelMode : Int32) :
    Shrinks (readFrame mpegVersion layer bitrateIndex padding channelMode
      : EStateM Mp3Error σ _) := by
  refine (shrinks_lookup _ _).bind fun row => (shrinks_lookup _ _).bind fun bitrate => ?_
  refine (shrinks_lookup _ _).bind fun sampleRate => Shrinks.check _ _ ?_
  exact (shrinks_readFully _ _).bind fun data => shrinks_pure _

theorem shrinks_headerTurn (header : Int32) :
    Shrinks (headerTurn header : EStateM Mp3Error σ _) := by
  refine Shrinks.ite _ (shrinks_pure _) (Shrinks.ite _ (shrinks_pure _) ?_)
  refine Shrinks.ite _ (shrinks_pure _) (Shrinks.ite _ (shrinks_pure _) ?_)
  exact (shrinks_readFrame _ _ _ _ _).bind fun frame => shrinks_pure _

theorem shrinks_readHeader (b0 b1 : UInt8) : Shrinks (readHeader b0 b1 : EStateM Mp3Error σ _) := by
  refine shrinks_readByte.bind fun b2 => shrinks_readByte.bind fun b3 => ?_
  cases b2 with
  | none => exact shrinks_throw _
  | some b2 =>
    cases b3 with
    | none => exact shrinks_throw _
    | some b3 => exact shrinks_headerTurn _

theorem takes_frameTurn (u : Unit) :
    Takes (GoesOnOr fun _ => True) (frameTurn u : EStateM Mp3Error σ _) := by
  refine Takes.readElse (fun s a s' h => by cases h) fun b0 => ?_
  refine Shrinks.ite _ (shrinks_pure _) (Shrinks.readElse (shrinks_throw _) fun b1 => ?_)
  exact Shrinks.ite _ (shrinks_pure _) (shrinks_readHeader b0 b1)

def nextFrame : EStateM Mp3Error σ Mp3Frame := readingLoop frameTurn takes_frameTurn ()

theorem actsAs_lookup {α : Type} (array : List α) (index : Int32) :
    ActsAs (lookup array index : EStateM Mp3Error σ α) (lookup array index) := by
  refine ActsAs.ite _ (actsAs_throw _) ?_
  cases array[index.toNatClampNeg]? with
  | none => exact actsAs_throw _
  | some a => exact actsAs_pure a

theorem actsAs_headerTurn (header : Int32) :
    ActsAs (headerTurn header : EStateM Mp3Error σ _) (headerTurn header) := by
  refine ActsAs.ite _ (actsAs_pure _) (ActsAs.ite _ (actsAs_pure _) ?_)
  refine ActsAs.ite _ (actsAs_pure _) (ActsAs.ite _ (actsAs_pure _) ?_)
  refine ActsAs.bind ?_ fun frame => actsAs_pure _
  refine (actsAs_lookup _ _).bind fun row => (actsAs_lookup _ _).bind fun bitrate => ?_
  refine (actsAs_lookup _ _).bind fun sampleRate => ActsAs.check _ _ ?_
  exact (actsAs_readFully _ _).bind fun data => actsAs_pure _

theorem actsAs_nextFrame : ActsAs (nextFrame : EStateM Mp3Error σ _) nextFrame := by
  refine ActsAs.loop (fun _ => ActsAs.readElse (actsAs_throw _) fun b0 => ?_) ()
  refine ActsAs.ite _ (actsAs_pure _) (ActsAs.readElse (actsAs_throw _) fun b1 => ?_)
  refine ActsAs.ite _ (actsAs_pure _) ?_
  refine actsAs_readByte.bind fun b2 => actsAs_readByte.bind fun b3 => ?_
  cases b2 with
  | none => exact actsAs_throw _
  | some b2 =>
    cases b3 with
    | none => exact actsAs_throw _
    | some b3 => exact actsAs_headerTurn _

/-- So many calls; they end at the first exception. -/
def nextFrames : Nat → EStateM Mp3Error σ (List Mp3Frame)
  | 0 => pure []
  | n + 1 => do
    let frame ← nextFrame
    let frames ← nextFrames n
    return frame :: frames

end Reader

/-! ## 2. Frames of MPEG-2 Layer III -/

/-- Bitrates in bit/s, by the index in the header. -/
def mpeg2Bitrate : List Nat :=
  [0, 8000, 16000, 24000, 32000, 40000, 48000, 56000, 64000, 80000, 96000, 112000, 128000, 144000,
    160000]

/-- Sample rates, by the index in the header. -/
def mpeg2SampleRate : List Nat := [22050, 24000, 16000]

/-- A valid frame. -/
structure Frame where
  /-- Whether a checksum follows the header; it is part of the body then. -/
  hasChecksum : Bool
  bitrateIndex : Nat
  sampleRateIndex : Nat
  padding : Bool
  privateBit : Bool
  channelMode : Fin 4
  /-- Mode extension, copyright, original and emphasis. -/
  rest : Fin 64
  body : List UInt8
  bitrateIndex_mem : 1 ≤ bitrateIndex ∧ bitrateIndex ≤ 14
  sampleRateIndex_le : sampleRateIndex ≤ 2
  /-- A frame holds 576 samples. -/
  length_body : 4 + body.length
    = 72 * mpeg2Bitrate.getD bitrateIndex 0 / mpeg2SampleRate.getD sampleRateIndex 0 + padding.toNat

namespace Frame

variable (f : Frame)

/-- Eleven bits of sync, `10` for MPEG-2, `01` for Layer III. -/
def bytes : List UInt8 :=
  [0xFF, UInt8.ofNat (0xF2 + (!f.hasChecksum).toNat),
    UInt8.ofNat (f.bitrateIndex * 16 + f.sampleRateIndex * 4 + f.padding.toNat * 2
      + f.privateBit.toNat),
    UInt8.ofNat (f.channelMode.val * 64 + f.rest.val)] ++ f.body

def sampleRate : Nat := mpeg2SampleRate.getD f.sampleRateIndex 0

def channels : Nat := if f.channelMode.val = 3 then 1 else 2

/-- `nextFrame()` has returned the frame. -/
def Is (out : Mp3Frame) : Prop :=
  out.data = f.bytes ∧ out.sampleRate.toInt = f.sampleRate ∧ out.channels.toInt = f.channels

end Frame

/-- **What a reader is for.** -/
def Delivers {σ : Type} [InputStream σ UInt8] (frames : List Frame) (input : σ) : Prop :=
  ∃ outs s, nextFrames frames.length (.ofInput input : Buffered σ UInt8) = .ok outs s
    ∧ List.Forall₂ Frame.Is frames outs

/-! ## 3. No frame is delivered -/

theorem lookup_ok {σ α : Type} {array : List α} {index : Int32} {a : α} {s s' : σ}
    (h : lookup array index s = .ok a s') : a ∈ array := by
  unfold lookup at h
  split at h
  · cases h
  · cases ha : array[index.toNatClampNeg]? with
    | none =>
      rw [ha] at h
      cases h
    | some b =>
      rw [ha] at h
      cases h
      exact List.mem_of_getElem? ha

section SampleRate

variable {σ : Type} [InputStream σ UInt8]

/-- A frame that is read has a rate of the table. -/
theorem readFrame_sampleRate {mpegVersion layer bitrateIndex padding channelMode : Int32}
    {frame : Mp3Frame} {s s' : σ}
    (h : readFrame mpegVersion layer bitrateIndex padding channelMode s = .ok frame s') :
    frame.sampleRate ∈ sampleRateTable := by
  obtain ⟨row, t, -, h⟩ := bind_eq_ok h
  obtain ⟨bitrate, t, -, h⟩ := bind_eq_ok h
  obtain ⟨sampleRate, t, hrate, h⟩ := bind_eq_ok h
  obtain ⟨-, h⟩ := check_eq_ok h
  obtain ⟨data, t, -, h⟩ := bind_eq_ok h
  cases h
  exact lookup_ok hrate

/-- And so has one that a turn ends with. -/
theorem frameTurn_sampleRate {frame : Mp3Frame} {s s' : σ}
    (h : frameTurn () s = .ok (.inr frame) s') : frame.sampleRate ∈ sampleRateTable := by
  obtain ⟨b0, t, -, h⟩ := bind_eq_ok h
  cases b0 with
  | none => cases h
  | some b0 =>
    simp only at h
    split at h
    · cases h
    obtain ⟨b1, t, -, h⟩ := bind_eq_ok h
    cases b1 with
    | none => cases h
    | some b1 =>
      simp only at h
      split at h
      · cases h
      obtain ⟨b2, t, -, h⟩ := bind_eq_ok h
      obtain ⟨b3, t, -, h⟩ := bind_eq_ok h
      cases b2 with
      | none => cases h
      | some b2 =>
        cases b3 with
        | none => cases h
        | some b3 =>
          simp only [headerTurn] at h
          split at h
          · cases h
          split at h
          · cases h
          split at h
          · cases h
          split at h
          · cases h
          obtain ⟨frame', t, hframe, hpure⟩ := bind_eq_ok h
          cases hpure
          exact readFrame_sampleRate hframe

/-- **Every sample rate that is reported is one of MPEG-2.5.** -/
theorem nextFrame_sampleRate {frame : Mp3Frame} {s s' : σ} (h : nextFrame s = .ok frame s') :
    frame.sampleRate ∈ sampleRateTable := by
  unfold nextFrame readingLoop at h
  induction hn : (elems s).length using Nat.strongRecOn generalizing s with
  | ind n ih =>
    cases hturn : frameTurn () s with
    | error e t =>
      rw [loop_error hturn] at h
      cases h
    | ok v t =>
      cases v with
      | inl u =>
        have hlt := takes_frameTurn () s _ t hturn trivial
        rw [loop_next hturn] at h
        exact ih (elems t).length (hn ▸ hlt) h rfl
      | inr out =>
        rw [loop_break hturn] at h
        cases h
        exact frameTurn_sampleRate hturn

end SampleRate

/-- None of these is one of MPEG-2. -/
theorem Frame.not_is {f : Frame} {out : Mp3Frame} (h : out.sampleRate ∈ sampleRateTable) :
    ¬ f.Is out := by
  rintro ⟨-, hrate, -⟩
  have hle := f.sampleRateIndex_le
  unfold Frame.sampleRate at hrate
  have hmem : f.sampleRateIndex = 0 ∨ f.sampleRateIndex = 1 ∨ f.sampleRateIndex = 2 := by omega
  simp only [sampleRateTable, List.mem_cons, List.not_mem_nil, or_false] at h
  rcases hmem with hi | hi | hi <;> rcases h with h | h | h <;> rw [hi, h] at hrate <;>
    exact absurd hrate (by decide)

/-- **The reader delivers the frames of a stream only if there are none.** -/
theorem mp3_frames_iff {σ : Type} [InputStream σ UInt8] (frames : List Frame) (input : σ)
    (hinput : elems input = frames.flatMap Frame.bytes) : Delivers frames input ↔ frames = [] := by
  constructor
  · rintro ⟨outs, s, hcalls, hframes⟩
    cases hframes with
    | nil => rfl
    | cons his _ =>
      obtain ⟨frame, t, hframe, hcalls⟩ := bind_eq_ok hcalls
      obtain ⟨more, t', -, hpure⟩ := bind_eq_ok hcalls
      cases hpure
      exact absurd his (Frame.not_is (nextFrame_sampleRate hframe))
  · rintro rfl
    exact ⟨[], _, rfl, .nil⟩

/-- The shortest one: 8 kbit/s at 22050 Hz. -/
def sampleFrame : Frame where
  hasChecksum := false
  bitrateIndex := 1
  sampleRateIndex := 0
  padding := false
  privateBit := false
  channelMode := Fin.last 3
  rest := 0
  body := List.replicate 22 0
  bitrateIndex_mem := by decide
  sampleRateIndex_le := by decide
  length_body := by decide

theorem mp3_frames_iff_sample :
    Delivers [sampleFrame] sampleFrame.bytes ↔ [sampleFrame] = ([] : List Frame) :=
  mp3_frames_iff [sampleFrame] sampleFrame.bytes rfl

/-- How a call ends, and how many bytes it leaves. -/
def outcome {σ : Type} [InputStream σ UInt8] (input : σ) : Option Mp3Frame × Nat :=
  match nextFrame (.ofInput input : Buffered σ UInt8) with
  | .ok frame s => (some frame, (elems s).length)
  | .error _ s => (none, (elems s).length)

/-- Here the call asks for 384 bytes behind the header, where there are 22. -/
theorem mp3_frame_lost : ¬ Delivers [sampleFrame] sampleFrame.bytes := by
  rintro ⟨outs, s, hcalls, -⟩
  have houtcome : outcome sampleFrame.bytes = (none, 0) := by decide +kernel
  obtain ⟨frame, t, hframe, -⟩ := bind_eq_ok hcalls
  rw [outcome, hframe] at houtcome
  cases houtcome

end WebrtcBridge.Media.Mp3
