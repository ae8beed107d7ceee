/-
# The media readers do not see how a stream is split

An `InputStream` may hand over fewer bytes than it is asked for, and skip fewer.  Files rarely do,
sockets always do.  What an object of one of the five reader classes returns and throws, from its
construction on and over any calls, depends on the bytes alone (`split_independent`).

Everything has been said before: the programs act on the bytes of their stream, the buffer that each
class puts in front of it is a stream again, and `session_eq` goes from the calls to the object.
-/
import WebrtcBridge.Media.AnyStream
import WebrtcBridge.Media.Mp3
import WebrtcBridge.Media.Wav

namespace WebrtcBridge.Media

open Lib Lib.InputStream

/-! ## 1. Objects and their calls -/

section Sessions

variable {σ : Type} [InputStream σ UInt8]

/-- `new IvfReader(input)`, then `nextFrame()` for each call. -/
def ivfSession (calls : List Unit) (input : σ) :
    Except IvfError (IvfFileHeader × List (Except IvfError IvfFrame)) :=
  session IvfStream.ivfReader (fun _ fileHeader => do return (← IvfStream.nextFrame, fileHeader))
    calls (.ofInput input : Buffered σ UInt8)

/-- `new WavReader(input)`, then `nextSamples(numBytes)` for each call. -/
def wavSession (calls : List Int32) (input : σ) :
    Except Wav.WavError (Wav.WavReader × List (Except Wav.WavError (List UInt8))) :=
  session Wav.parseHeader Wav.nextSamples calls (.ofInput input : Buffered σ UInt8)

/-- `new OggReader(input)`, then `nextPage()` for each call. -/
def oggSession (calls : List Unit) (input : σ) :
    Except Ogg.OggError (Ogg.OggReader × List (Except Ogg.OggError Ogg.OggPage)) :=
  session OggStream.oggReader (fun _ r => do return (← OggStream.nextPage r, r)) calls
    (OggStream.buffered input)

/-- `new Mp3Reader(input)`, then `nextFrame()` for each call. -/
def mp3Session (calls : List Unit) (input : σ) :
    Except Mp3.Mp3Error (Unit × List (Except Mp3.Mp3Error Mp3.Mp3Frame)) :=
  session (pure ()) (fun _ _ => do return (← Mp3.nextFrame, ())) calls
    (.ofInput input : Buffered σ UInt8)

/-- `new H26xReader(input, capacity, isHevc)`, then `nextSample()` for each call. -/
def h26xSession (isHevc : Bool) (capacity : Nat) (hcapacity : 0 < capacity) (calls : List Unit)
    (input : σ) :
    Except Empty (H26xStream.Fields × List (Except Empty (Option H26x.H26xSample))) :=
  session (pure ⟨false, none⟩) (fun _ r => H26xStream.nextSample isHevc r) calls
    (.new capacity hcapacity input : Buffered σ UInt8)

/-! ## 2. They are those of the bytes -/

theorem ivfSession_eq (calls : List Unit) (input : σ) :
    ivfSession calls input = session IvfStream.ivfReader
      (fun _ fileHeader => do return (← IvfStream.nextFrame, fileHeader)) calls (elems input) := by
  refine session_eq IvfStream.actsAs_ivfReader (fun _ fileHeader => ?_) calls _
  exact IvfStream.actsAs_nextFrame.bind fun frame => actsAs_pure (frame, fileHeader)

theorem wavSession_eq (calls : List Int32) (input : σ) :
    wavSession calls input = session Wav.parseHeader Wav.nextSamples calls (elems input) :=
  session_eq Wav.actsAs_parseHeader Wav.actsAs_nextSamples calls _

theorem oggSession_eq (calls : List Unit) (input : σ) :
    oggSession calls input = session OggStream.oggReader
      (fun _ r => do return (← OggStream.nextPage r, r)) calls (elems input) := by
  refine session_eq OggStream.actsAs_oggReader (fun _ r => ?_) calls _
  exact (OggStream.actsAs_nextPage r).bind fun page => actsAs_pure (page, r)

theorem mp3Session_eq (calls : List Unit) (input : σ) :
    mp3Session calls input
      = session (pure ()) (fun _ _ => do return (← Mp3.nextFrame, ())) calls (elems input) := by
  refine session_eq (actsAs_pure ()) (fun _ _ => ?_) calls _
  exact Mp3.actsAs_nextFrame.bind fun frame => actsAs_pure (frame, ())

theorem h26xSession_eq (isHevc : Bool) (capacity : Nat) (hcapacity : 0 < capacity)
    (calls : List Unit) (input : σ) :
    h26xSession isHevc capacity hcapacity calls input
      = session (pure ⟨false, none⟩) (fun _ r => H26xStream.nextSample isHevc r) calls
          (elems input) :=
  session_eq (actsAs_pure _) (fun _ r => H26xStream.actsAs_nextSample isHevc r) calls _

end Sessions

/-! ## 3. Two streams -/

section TwoStreams

variable {σ τ : Type} [InputStream σ UInt8] [InputStream τ UInt8]

/-- No object of the five classes tells the streams apart. -/
structure ReadAlike (s : σ) (t : τ) : Prop where
  ivf : ∀ calls, ivfSession calls s = ivfSession calls t
  wav : ∀ calls, wavSession calls s = wavSession calls t
  ogg : ∀ calls, oggSession calls s = oggSession calls t
  mp3 : ∀ calls, mp3Session calls s = mp3Session calls t
  /-- The capacity need not be the same either. -/
  h26x : ∀ isHevc capacity capacity' hcapacity hcapacity' calls,
    h26xSession isHevc capacity hcapacity calls s = h26xSession isHevc capacity' hcapacity' calls t

/-- **What the readers return and throw depends on the bytes of the stream only.** -/
theorem split_independent (s : σ) (t : τ) (h : elems s = elems t) : ReadAlike s t := by
  constructor
  · intro calls
    rw [ivfSession_eq, ivfSession_eq, h]
  · intro calls
    rw [wavSession_eq, wavSession_eq, h]
  · intro calls
    rw [oggSession_eq, oggSession_eq, h]
  · intro calls
    rw [mp3Session_eq, mp3Session_eq, h]
  · intro isHevc capacity capacity' hcapacity hcapacity' calls
    rw [h26xSession_eq, h26xSession_eq, h]

end TwoStreams

/-- A file with two samples, byte by byte. -/
def sampleInput : Input UInt8 := ⟨Wav.sampleFile.bytes.map ([·]), by simp⟩

/-- The same bytes in one piece and byte by byte; two requests get the samples. -/
theorem split_independent_sample :
    ReadAlike Wav.sampleFile.bytes sampleInput
      ∧ (wavSession [3, 5] sampleInput).toOption.map (·.2.filterMap Except.toOption)
        = some [[1, 0, 2], [0]] :=
  ⟨split_independent _ _ (by decide +kernel), by decide +kernel⟩

end WebrtcBridge.Media
