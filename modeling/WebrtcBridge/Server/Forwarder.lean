/-
# The forwarder of an echo session

The callback that receives an RTP packet may not write it back itself, so it builds the packet for
the echo track and puts it into a queue; a thread of the forwarder, the CONSUMER, takes the jobs out
and writes them.

The consumer is modelled turn by turn, since `stop` can come at any point of its loop: it clears
`running` and interrupts the thread.  An interrupted `take` ends the thread, a job in hand is still
written, and there is nothing that would start the thread again.

Once it is stopped and has no job in hand the consumer never writes anything again, whatever is in
the queue (`turn_stopped`).
-/
import Mathlib.Data.List.Basic

namespace WebrtcBridge.Server

/-! ## 1. Packets -/

inductive MediaKind where
  | audio
  | video
  deriving DecidableEq, Repr

def shortBytes (n : UInt16) : List UInt8 := [(n >>> 8).toUInt8, n.toUInt8]

def intBytes (n : UInt32) : List UInt8 :=
  [(n >>> 24).toUInt8, (n >>> 16).toUInt8, (n >>> 8).toUInt8, n.toUInt8]

/-- `RtpPacket.build`: twelve bytes of header and the payload. -/
def buildPacket (ssrc : UInt32) (payloadType : Nat) (sequenceNumber : UInt16) (timestamp : UInt32)
    (payload : List UInt8) : List UInt8 :=
  [0x80, UInt8.ofNat (payloadType % 128)] ++ shortBytes sequenceNumber ++ intBytes timestamp
    ++ intBytes ssrc ++ payload

/-- A local track: the handle of the native side and the SSRC it was created with. -/
structure TrackLocal where
  nativeTrackId : Nat
  ssrc : UInt32
  deriving DecidableEq, Repr

structure RtpJob where
  kind : MediaKind
  packet : List UInt8
  deriving DecidableEq, Repr

/-- `track.writeRtp(packet)`. -/
structure Write where
  track : TrackLocal
  packet : List UInt8
  deriving DecidableEq, Repr

/-! ## 2. The forwarder -/

/-- Where the consumer is: before the test of `running`, before or in `queue.take`, with a job, or
out of the loop. -/
inductive Consumer where
  | check
  | take
  | write (job : RtpJob)
  | ended
  deriving DecidableEq, Repr

/-- The setters, which `handleOffer` calls one after the other. -/
inductive Setter where
  | audioTrack (track : TrackLocal)
  | videoTrack (track : TrackLocal)
  | audioPayloadType (pt : Nat)
  | videoPayloadType (pt : Nat)
  deriving DecidableEq, Repr

/-- It gives the forwarder its track of this kind. -/
def Setter.gives (kind : MediaKind) : Setter → Bool
  | .audioTrack _ => kind = .audio
  | .videoTrack _ => kind = .video
  | .audioPayloadType _ | .videoPayloadType _ => false

structure Forwarder where
  audioTrack : Option TrackLocal := none
  videoTrack : Option TrackLocal := none
  audioPayloadType : Nat := 96
  videoPayloadType : Nat := 96
  audioSsrc : UInt32 := 0
  videoSsrc : UInt32 := 0
  queue : List RtpJob := []
  running : Bool := true
  interrupted : Bool := false
  consumer : Consumer := .check
  deriving DecidableEq, Repr

namespace Forwarder

def track (f : Forwarder) : MediaKind → Option TrackLocal
  | .audio => f.audioTrack
  | .video => f.videoTrack

def ssrc (f : Forwarder) : MediaKind → UInt32
  | .audio => f.audioSsrc
  | .video => f.videoSsrc

def payloadType (f : Forwarder) : MediaKind → Nat
  | .audio => f.audioPayloadType
  | .video => f.videoPayloadType

def setAudioTrack (f : Forwarder) (track : TrackLocal) : Forwarder :=
  { f with audioTrack := some track, audioSsrc := track.ssrc }

def setVideoTrack (f : Forwarder) (track : TrackLocal) : Forwarder :=
  { f with videoTrack := some track, videoSsrc := track.ssrc }

def setAudioPayloadType (f : Forwarder) (pt : Nat) : Forwarder := { f with audioPayloadType := pt }

def setVideoPayloadType (f : Forwarder) (pt : Nat) : Forwarder := { f with videoPayloadType := pt }

/-- A call of one of the setters. -/
def set (f : Forwarder) : Setter → Forwarder
  | .audioTrack track => f.setAudioTrack track
  | .videoTrack track => f.setVideoTrack track
  | .audioPayloadType pt => f.setAudioPayloadType pt
  | .videoPayloadType pt => f.setVideoPayloadType pt

/-- `stop`. -/
def stop (f : Forwarder) : Forwarder := { f with running := false, interrupted := true }

/-- `onRtp`. -/
def onRtp (f : Forwarder) (kind : MediaKind) (payload : List UInt8) (sequenceNumber : UInt16)
    (timestamp : UInt32) : Forwarder :=
  if f.track kind = none ∨ payload = [] then f
  else
    { f with queue := f.queue ++ [⟨kind, buildPacket (f.ssrc kind) (f.payloadType kind)
      sequenceNumber timestamp payload⟩] }

/-- The callback of a remote track: the payload type says which of the two it is. -/
def rtpCallback (f : Forwarder) (payload : List UInt8) (pt : Nat) (sequenceNumber : UInt16)
    (timestamp : UInt32) : Forwarder :=
  if pt = f.audioPayloadType then f.onRtp .audio payload sequenceNumber timestamp
  else if pt = f.videoPayloadType then f.onRtp .video payload sequenceNumber timestamp
  else f

/-- A turn of the consumer, and the packet it writes in it.  A `take` from an empty queue waits. -/
def turn (f : Forwarder) : Forwarder × Option Write :=
  match f.consumer with
  | .check => ({ f with consumer := if f.running then .take else .ended }, none)
  | .take =>
    if f.interrupted then ({ f with consumer := .ended }, none)
    else
      match f.queue with
      | [] => (f, none)
      | job :: queue => ({ f with queue := queue, consumer := .write job }, none)
  | .write job => ({ f with consumer := .check }, (f.track job.kind).map (⟨·, job.packet⟩))
  | .ended => (f, none)

/-- What a job is written as, if its track is there. -/
def echo (f : Forwarder) (job : RtpJob) : Option Write := (f.track job.kind).map (⟨·, job.packet⟩)

/-! ## 3. A stopped consumer writes nothing -/

/-- `stop` has been called. -/
def Halted (f : Forwarder) : Prop := f.running = false ∧ f.interrupted = true

/-- Halted, and with no job in hand. -/
def Stopped (f : Forwarder) : Prop := f.Halted ∧ ∀ job, f.consumer ≠ .write job

theorem halted_stop (f : Forwarder) : f.stop.Halted := ⟨rfl, rfl⟩

theorem halted_set {f : Forwarder} (m : Setter) (h : f.Halted) : (f.set m).Halted := by
  cases m <;> exact h

theorem stopped_set {f : Forwarder} (m : Setter) (h : f.Stopped) : (f.set m).Stopped := by
  cases m <;> exact h

/-- A packet that arrives can only go into the queue. -/
theorem rtpCallback_queue (f : Forwarder) (payload : List UInt8) (pt : Nat)
    (sequenceNumber : UInt16) (timestamp : UInt32) :
    ∃ jobs, f.rtpCallback payload pt sequenceNumber timestamp
      = { f with queue := f.queue ++ jobs } := by
  have honRtp : ∀ kind, ∃ jobs,
      f.onRtp kind payload sequenceNumber timestamp = { f with queue := f.queue ++ jobs } := by
    intro kind
    unfold onRtp
    split
    · exact ⟨[], by rw [List.append_nil]⟩
    · exact ⟨_, rfl⟩
  unfold rtpCallback
  split
  · exact honRtp .audio
  · split
    · exact honRtp .video
    · exact ⟨[], by rw [List.append_nil]⟩

/-- Nothing the consumer does undoes a `stop`. -/
theorem halted_turn {f : Forwarder} (h : f.Halted) : f.turn.1.Halted := by
  unfold turn
  cases f.consumer with
  | check => exact h
  | take =>
    simp only [if_pos h.2]
    exact h
  | write job | ended => exact h

/-- **A stopped consumer writes nothing**: all it can do is to end. -/
theorem turn_stopped {f : Forwarder} (h : f.Stopped) :
    f.turn = ({ f with consumer := .ended }, none) := by
  obtain ⟨at', vt, ap, vp, as, vs, q, running, interrupted, consumer⟩ := f
  obtain ⟨⟨rfl, rfl⟩, hjob⟩ := h
  cases consumer with
  | check | take | ended => rfl
  | write job => exact absurd rfl (hjob job)

/-- A consumer that runs and has nothing to do waits for a job. -/
theorem turn_waiting {f : Forwarder} (hrunning : f.running = true) (hfree : f.interrupted = false)
    (hqueue : f.queue = []) (hwaiting : f.consumer = .check ∨ f.consumer = .take) :
    f.turn = ({ f with consumer := .take }, none) := by
  obtain ⟨at', vt, ap, vp, as, vs, q, running, interrupted, consumer⟩ := f
  simp only at hrunning hfree hqueue
  subst hrunning hfree hqueue
  rcases hwaiting with rfl | rfl
  · rfl
  · rfl

end Forwarder

end WebrtcBridge.Server
