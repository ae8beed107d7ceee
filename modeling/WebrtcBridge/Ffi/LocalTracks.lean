/-
# Handles of local tracks

`lib.rs` keeps local tracks in two registries: `LOCAL_TRACKS` for tracks that take samples, whose
handles count from 1, and `LOCAL_RTP_TRACKS` for tracks that take RTP packets, whose handles count
from 10000.  `webrtc_ffi_add_track` gets a handle without being told which of the two it is from.
It looks in the first registry and only then in the second.

The counters are `u32` and neither knows of the other, so the handles are one after another in each
registry and meet where the first counter reaches 10000, or where the second one has gone once
around.  `local_tracks_iff` says exactly how many tracks of the two kinds can be created before a
handle comes twice; as long as none does, every handle is resolved to its own track.  With the
ten-thousandth sample track an RTP track is hidden (`rtp_track_hidden`).

Each creation holds the lock of its counter to the end, so creations are steps of one run whatever
threads they come from.
-/
import Mathlib.Algebra.Group.Nat.Defs
import Mathlib.Data.List.Nodup
import Mathlib.Data.List.Range
import WebrtcBridge.Lib.Runs
import WebrtcBridge.Ffi.Boundary

namespace WebrtcBridge.Ffi.LocalTracks

open Lib

/-! ## 1. Tracks -/

inductive RtpCodecKind where
  | audio
  | video
  deriving DecidableEq, Repr

/-- `RTCRtpCodec`; `rtcp_feedback` is always empty here. -/
structure RtpCodec where
  mimeType : Text
  clockRate : UInt32
  channels : UInt16
  sdpFmtpLine : Text
  deriving DecidableEq, Repr

/-- `MediaStreamTrack` with its one encoding, as far as the two calls fill it in. -/
structure MediaStreamTrack where
  streamId : Text
  trackId : Text
  label : Text
  kind : RtpCodecKind
  ssrc : UInt32
  codec : RtpCodec
  deriving DecidableEq, Repr

/-- The media types `RTCRtpCodec::payloader` has a payloader for. -/
def payloaderMimeTypes : List Text :=
  ["video/H264", "video/H265", "video/VP8", "video/VP9", "audio/opus", "audio/G722", "audio/PCMU",
    "audio/PCMA", "audio/telephone-event", "video/AV1"].map String.toList

/-- `to_lowercase`.  No letter outside ASCII becomes one of the letters of the names above. -/
def toLowercase (s : Text) : Text := s.map Char.toLower

/-- `TrackLocalStaticSample::new` succeeds: `track.codec(ssrc)` passes over an encoding without
media type, and any other needs a payloader. -/
def hasPayloader (codec : RtpCodec) : Bool :=
  codec.mimeType.isEmpty
    || payloaderMimeTypes.any fun m => toLowercase codec.mimeType == toLowercase m

/-- A track behind an `Arc`: which object it is and what is in it. -/
structure LocalTrack where
  obj : Nat
  track : MediaStreamTrack
  deriving DecidableEq, Repr

/-- `Arc<dyn TrackLocal>`. -/
inductive TrackLocal where
  | sample (t : LocalTrack)
  | rtp (t : LocalTrack)
  deriving DecidableEq, Repr

/-! ## 2. The calls -/

/-- The static registries.  `objects` numbers the objects as they are created. -/
structure TrackRegs where
  objects : Nat
  localTrackIdCounter : UInt32
  localTracks : UInt32 → Option LocalTrack
  localRtpTrackIdCounter : UInt32
  localRtpTracks : UInt32 → Option (UInt32 × LocalTrack)
  senderIdCounter : UInt32
  senders : UInt32 → Option Nat

def TrackRegs.init : TrackRegs := ⟨0, 1, fun _ => none, 10000, fun _ => none, 1, fun _ => none⟩

/-- What both calls are given. -/
structure RtpTrackArgs where
  streamId : CStr
  trackId : CStr
  label : CStr
  kind : Int32
  ssrc : UInt32
  mimeType : CStr
  clockRate : UInt32
  deriving DecidableEq, Repr

structure SampleTrackArgs extends RtpTrackArgs where
  channels : Int32
  sdpFmtpLine : CStr
  deriving DecidableEq, Repr

def codecKind (kind : Int32) : Option RtpCodecKind :=
  if kind = 1 then some .audio else if kind = 2 then some .video else none

def RtpTrackArgs.mediaStreamTrack (a : RtpTrackArgs) (kind : RtpCodecKind) (codec : RtpCodec) :
    MediaStreamTrack :=
  ⟨readStr a.streamId, readStr a.trackId, readStr a.label, kind, a.ssrc, codec⟩

/-- The track of `webrtc_ffi_create_track_local_rtp`. -/
def RtpTrackArgs.track (a : RtpTrackArgs) : Option MediaStreamTrack := do
  let kind ← codecKind a.kind
  return a.mediaStreamTrack kind ⟨readStr a.mimeType, a.clockRate, 0, []⟩

/-- The track of `webrtc_ffi_create_track_local`. -/
def SampleTrackArgs.track (a : SampleTrackArgs) : Option MediaStreamTrack := do
  let kind ← codecKind a.kind
  let codec : RtpCodec :=
    ⟨readStr a.mimeType, a.clockRate, a.channels.toInt16.toUInt16, readStr a.sdpFmtpLine⟩
  if hasPayloader codec then some (a.mediaStreamTrack kind codec) else none

/-- `register_local_track`; the addition wraps in the build that is shipped. -/
def registerLocalTrack (s : TrackRegs) (track : MediaStreamTrack) : TrackRegs × UInt32 :=
  let id := s.localTrackIdCounter
  ({ s with
      objects := s.objects + 1
      localTrackIdCounter := s.localTrackIdCounter + 1
      localTracks := Function.update s.localTracks id (some ⟨s.objects, track⟩) }, id)

/-- `webrtc_ffi_create_track_local`. -/
def createTrackLocal (s : TrackRegs) (a : SampleTrackArgs) : TrackRegs × UInt32 :=
  match a.track with
  | none => (s, 0)
  | some track => registerLocalTrack s track

/-- `webrtc_ffi_create_track_local_rtp`. -/
def createTrackLocalRtp (s : TrackRegs) (a : RtpTrackArgs) : TrackRegs × UInt32 :=
  match a.track with
  | none => (s, 0)
  | some track =>
    let id := s.localRtpTrackIdCounter
    ({ s with
        objects := s.objects + 1
        localRtpTrackIdCounter := s.localRtpTrackIdCounter + 1
        localRtpTracks :=
          Function.update s.localRtpTracks id (some (a.ssrc, ⟨s.objects, track⟩)) }, id)

/-- The lookup of `webrtc_ffi_add_track`: sample tracks first, then RTP tracks. -/
def resolveTrack (s : TrackRegs) (trackId : UInt32) : Option TrackLocal :=
  ((s.localTracks trackId).map .sample).or ((s.localRtpTracks trackId).map fun e => .rtp e.2)

def registerSender (s : TrackRegs) (sender : Nat) : TrackRegs × UInt32 :=
  let id := s.senderIdCounter
  ({ s with
      senderIdCounter := s.senderIdCounter + 1
      senders := Function.update s.senders id (some sender) }, id)

/-- `webrtc_ffi_add_track`.  The peer is null or what its `pc.add_track` answers: a sender, or an
error. -/
def addTrack (peer : Option (TrackLocal → Option Nat)) (s : TrackRegs) (trackId : UInt32) :
    TrackRegs × Int32 :=
  match peer with
  | none => (s, -1)
  | some pcAddTrack =>
    match resolveTrack s trackId with
    | none => (s, -2)
    | some track =>
      match pcAddTrack track with
      | none => (s, -3)
      | some sender =>
        let (s', id) := registerSender s sender
        (s', id.toInt32)

/-! ## 3. Runs of creations -/

inductive CreateCall where
  | sample (a : SampleTrackArgs)
  | rtp (a : RtpTrackArgs)
  deriving DecidableEq, Repr

/-- The call itself. -/
def CreateCall.ffi (s : TrackRegs) : CreateCall → TrackRegs × UInt32
  | .sample a => createTrackLocal s a
  | .rtp a => createTrackLocalRtp s a

/-- The track that a call creates as object `obj`, if it succeeds. -/
def CreateCall.creates (obj : Nat) : CreateCall → Option TrackLocal
  | .sample a => a.track.map fun t => .sample ⟨obj, t⟩
  | .rtp a => a.track.map fun t => .rtp ⟨obj, t⟩

/-- A run of calls: the registries, and the handle and the track of every call that succeeded. -/
structure Creations where
  regs : TrackRegs
  made : List (UInt32 × TrackLocal)

def Creations.init : Creations := ⟨.init, []⟩

def create (c : Creations) (call : CreateCall) : Creations where
  regs := (call.ffi c.regs).1
  made := c.made ++ ((call.creates c.regs.objects).map ((call.ffi c.regs).2, ·)).toList

/-- Handles are pairwise distinct, and each is resolved to the track of the call that returned it:
that is what `webrtc_ffi_add_track` hands to the peer, whatever the peer makes of other tracks. -/
structure HandlesResolve (c : Creations) : Prop where
  distinct : (c.made.map (·.1)).Nodup
  resolved : ∀ e ∈ c.made, resolveTrack c.regs e.1 = some e.2
  added : ∀ e ∈ c.made, ∀ pcAddTrack : TrackLocal → Option Nat, ∀ sender ∈ pcAddTrack e.2,
    addTrack (some pcAddTrack) c.regs e.1
      = ((registerSender c.regs sender).1, (registerSender c.regs sender).2.toInt32)

/-- How many calls create a sample track. -/
def sampleTracks (calls : List CreateCall) : Nat :=
  calls.countP fun
    | .sample a => a.track.isSome
    | .rtp _ => false

/-- How many calls create an RTP track. -/
def rtpTracks (calls : List CreateCall) : Nat :=
  calls.countP fun
    | .sample _ => false
    | .rtp a => a.track.isSome

/-- **What a call can do**: nothing, or create a track of one of the two kinds. -/
theorem create_cases (c : Creations) (call : CreateCall) :
    (create c call = c ∧ sampleTracks [call] = 0 ∧ rtpTracks [call] = 0)
      ∨ (∃ t, sampleTracks [call] = 1 ∧ rtpTracks [call] = 0
          ∧ create c call
            = ⟨(registerLocalTrack c.regs t).1,
                c.made ++ [(c.regs.localTrackIdCounter, .sample ⟨c.regs.objects, t⟩)]⟩)
      ∨ ∃ ssrc t, sampleTracks [call] = 0 ∧ rtpTracks [call] = 1
          ∧ create c call
            = ⟨{ c.regs with
                  objects := c.regs.objects + 1
                  localRtpTrackIdCounter := c.regs.localRtpTrackIdCounter + 1
                  localRtpTracks := Function.update c.regs.localRtpTracks
                    c.regs.localRtpTrackIdCounter (some (ssrc, ⟨c.regs.objects, t⟩)) },
                c.made ++ [(c.regs.localRtpTrackIdCounter, .rtp ⟨c.regs.objects, t⟩)]⟩ := by
  cases call with
  | sample a =>
    rcases ht : a.track with - | t
    · exact .inl ⟨by simp [create, CreateCall.ffi, CreateCall.creates, createTrackLocal, ht],
        by simp [sampleTracks, ht], rfl⟩
    · exact .inr (.inl ⟨t, by simp [sampleTracks, ht], rfl, by
        simp [create, CreateCall.ffi, CreateCall.creates, createTrackLocal,
          registerLocalTrack, ht]⟩)
  | rtp a =>
    rcases ht : a.track with - | t
    · exact .inl
        ⟨by simp [create, CreateCall.ffi, CreateCall.creates, createTrackLocalRtp, ht], rfl,
        by simp [rtpTracks, ht]⟩
    · exact .inr (.inr ⟨a.ssrc, t, rfl, by simp [rtpTracks, ht], by
        simp [create, CreateCall.ffi, CreateCall.creates, createTrackLocalRtp, ht]⟩)

/-! ## 4. Which handles there are -/

/-- The handles of a counter that starts at `base`. -/
def handlesFrom (base n : Nat) : List UInt32 := (List.range n).map fun i => UInt32.ofNat (base + i)

theorem handlesFrom_succ (base n : Nat) :
    handlesFrom base (n + 1) = handlesFrom base n ++ [UInt32.ofNat (base + n)] := by
  simp [handlesFrom, List.range_succ]

theorem ofNat_eq_iff (m n : Nat) : UInt32.ofNat m = UInt32.ofNat n ↔ m % 2 ^ 32 = n % 2 ^ 32 := by
  rw [← UInt32.toNat_inj, UInt32.toNat_ofNat', UInt32.toNat_ofNat']

/-- The counters, and the handles so far up to their order. -/
structure Counted (c : Creations) (samples rtps : Nat) : Prop where
  sampleCounter : c.regs.localTrackIdCounter = UInt32.ofNat (1 + samples)
  rtpCounter : c.regs.localRtpTrackIdCounter = UInt32.ofNat (10000 + rtps)
  handles : (c.made.map (·.1)).Perm (handlesFrom 1 samples ++ handlesFrom 10000 rtps)

theorem Counted.create {c : Creations} {samples rtps : Nat} (h : Counted c samples rtps)
    (call : CreateCall) :
    Counted (create c call) (samples + sampleTracks [call]) (rtps + rtpTracks [call]) := by
  rcases create_cases c call with ⟨heq, hs, hr⟩ | ⟨t, hs, hr, heq⟩ | ⟨ssrc, t, hs, hr, heq⟩
  · rwa [heq, hs, hr]
  · rw [heq, hs, hr]
    refine ⟨?_, h.rtpCounter, ?_⟩
    · show c.regs.localTrackIdCounter + 1 = _
      rw [h.sampleCounter]
      exact (UInt32.ofNat_add _ _).symm
    · -- the new handle stands before those of the RTP tracks
      have hmove : (handlesFrom 10000 rtps ++ [UInt32.ofNat (1 + samples)]).Perm
          ([UInt32.ofNat (1 + samples)] ++ handlesFrom 10000 rtps) := List.perm_append_comm
      have hnew := h.handles.append_right [UInt32.ofNat (1 + samples)]
      rw [List.append_assoc] at hnew
      rw [List.map_append, handlesFrom_succ, List.append_assoc, List.map_singleton,
        h.sampleCounter]
      exact hnew.trans (hmove.append_left _)
  · rw [heq, hs, hr]
    refine ⟨h.sampleCounter, ?_, ?_⟩
    · show c.regs.localRtpTrackIdCounter + 1 = _
      rw [h.rtpCounter]
      exact (UInt32.ofNat_add _ _).symm
    · rw [List.map_append, handlesFrom_succ, ← List.append_assoc, ← h.rtpCounter]
      exact h.handles.append_right _

/-- **Along a run the counters count the calls that succeed.** -/
theorem Counted.run : ∀ (calls : List CreateCall) {c : Creations} {samples rtps : Nat},
    Counted c samples rtps →
      Counted (Lib.run LocalTracks.create c calls) (samples + sampleTracks calls)
        (rtps + rtpTracks calls)
  | [], _, _, _, h => h
  | call :: calls, c, samples, rtps, h => by
    have hrun := Counted.run calls (h.create call)
    have hs : sampleTracks (call :: calls) = sampleTracks [call] + sampleTracks calls := by
      simp [sampleTracks, List.countP_cons, Nat.add_comm]
    have hr : rtpTracks (call :: calls) = rtpTracks [call] + rtpTracks calls := by
      simp [rtpTracks, List.countP_cons, Nat.add_comm]
    rwa [Nat.add_assoc, Nat.add_assoc, ← hs, ← hr] at hrun

theorem counted_init : Counted .init 0 0 := ⟨rfl, rfl, .nil⟩

/-- A counter repeats itself once it has gone around. -/
theorem nodup_handlesFrom (base n : Nat) : (handlesFrom base n).Nodup ↔ n ≤ 2 ^ 32 := by
  rw [handlesFrom, List.nodup_map_iff_inj_on List.nodup_range]
  simp only [List.mem_range, ofNat_eq_iff]
  constructor
  · intro h
    by_contra hn
    have := h 0 (by omega) (2 ^ 32) (by omega) (by omega)
    omega
  · intro hn i hi j hj h
    omega

theorem mem_handlesFrom (base n : Nat) (x : UInt32) :
    x ∈ handlesFrom base n ↔ ∃ i < n, UInt32.ofNat (base + i) = x := by
  simp [handlesFrom]

/-- Where the two counters meet. -/
theorem disjoint_handlesFrom {samples rtps : Nat} (hs : samples ≤ 2 ^ 32) (hr : rtps ≤ 2 ^ 32) :
    (handlesFrom 1 samples).Disjoint (handlesFrom 10000 rtps)
      ↔ rtps = 0 ∨ samples = 0 ∨ (samples ≤ 9999 ∧ rtps ≤ 2 ^ 32 - 9999) := by
  constructor
  · intro h
    by_contra hn
    by_cases hmany : 10000 ≤ samples
    · -- the ten-thousandth sample track and the first RTP track
      exact h ((mem_handlesFrom _ _ (UInt32.ofNat 10000)).mpr ⟨9999, by omega, rfl⟩)
        ((mem_handlesFrom _ _ _).mpr ⟨0, by omega, rfl⟩)
    · -- the RTP counter is at 1 again
      refine h ((mem_handlesFrom _ _ (UInt32.ofNat 1)).mpr ⟨0, by omega, rfl⟩)
        ((mem_handlesFrom _ _ _).mpr ⟨2 ^ 32 - 9999, by omega, ?_⟩)
      exact (ofNat_eq_iff _ _).mpr (by omega)
  · intro h x hx hx'
    obtain ⟨i, hi, rfl⟩ := (mem_handlesFrom _ _ _).mp hx
    obtain ⟨j, hj, heq⟩ := (mem_handlesFrom _ _ _).mp hx'
    rw [ofNat_eq_iff] at heq
    omega

/-- **When no handle comes twice.** -/
theorem nodup_made_iff (calls : List CreateCall) :
    ((Lib.run create .init calls).made.map (·.1)).Nodup
      ↔ (rtpTracks calls = 0 ∧ sampleTracks calls ≤ 2 ^ 32)
        ∨ (sampleTracks calls = 0 ∧ rtpTracks calls ≤ 2 ^ 32)
        ∨ (sampleTracks calls ≤ 9999 ∧ rtpTracks calls ≤ 2 ^ 32 - 9999) := by
  have hcount := Counted.run calls counted_init
  rw [Nat.zero_add, Nat.zero_add] at hcount
  rw [hcount.handles.nodup_iff, List.nodup_append', nodup_handlesFrom, nodup_handlesFrom]
  constructor
  · rintro ⟨hs, hr, hdisj⟩
    have := (disjoint_handlesFrom hs hr).mp hdisj
    omega
  · intro h
    have hs : sampleTracks calls ≤ 2 ^ 32 := by omega
    have hr : rtpTracks calls ≤ 2 ^ 32 := by omega
    exact ⟨hs, hr, (disjoint_handlesFrom hs hr).mpr (by omega)⟩

/-! ## 5. What a handle is resolved to -/

/-- The track is in the registry of its kind. -/
def TrackRegs.Has (s : TrackRegs) (id : UInt32) : TrackLocal → Prop
  | .sample t => s.localTracks id = some t
  | .rtp t => ∃ ssrc, s.localRtpTracks id = some (ssrc, t)

/-- Every track that was made is in its registry, and `LOCAL_TRACKS` has no others. -/
structure Registered (c : Creations) : Prop where
  has : ∀ e ∈ c.made, c.regs.Has e.1 e.2
  samples : ∀ id t, c.regs.localTracks id = some t → (id, TrackLocal.sample t) ∈ c.made

theorem registered_init : Registered .init :=
  ⟨by simp [Creations.init], by simp [Creations.init, TrackRegs.init]⟩

theorem fresh_of_nodup {made : List (UInt32 × TrackLocal)} {e : UInt32 × TrackLocal}
    (h : ((made ++ [e]).map (·.1)).Nodup) : ∀ x ∈ made, x.1 ≠ e.1 := by
  intro x hx heq
  rw [List.map_append, List.nodup_append'] at h
  exact h.2.2 (List.mem_map_of_mem hx) (by simp [heq])

/-- One call keeps that, unless it returns a handle again. -/
theorem Registered.create {c : Creations} (call : CreateCall) (h : Registered c)
    (hnodup : ((create c call).made.map (·.1)).Nodup) : Registered (create c call) := by
  rcases create_cases c call with ⟨heq, -, -⟩ | ⟨t, -, -, heq⟩ | ⟨ssrc, t, -, -, heq⟩
  · rwa [heq]
  · rw [heq] at hnodup ⊢
    have hnew := fresh_of_nodup hnodup
    constructor
    · intro e he
      rcases List.mem_append.mp he with he | he
      · -- an older track, in either registry
        have hold := h.has e he
        obtain ⟨id, t' | t'⟩ := e
        · exact (Function.update_of_ne (hnew _ he) _ _).trans hold
        · exact hold
      · obtain rfl := List.mem_singleton.mp he
        exact Function.update_self ..
    · intro id t' ht'
      by_cases hid : id = c.regs.localTrackIdCounter
      · subst hid
        simp only [registerLocalTrack, Function.update_self] at ht'
        cases ht'
        simp
      · exact List.mem_append_left _
          (h.samples id t' ((Function.update_of_ne hid _ _).symm.trans ht'))
  · rw [heq] at hnodup ⊢
    have hnew := fresh_of_nodup hnodup
    constructor
    · intro e he
      rcases List.mem_append.mp he with he | he
      · have hold := h.has e he
        obtain ⟨id, t' | t'⟩ := e
        · exact hold
        · obtain ⟨ssrc', hold⟩ := hold
          exact ⟨ssrc', (Function.update_of_ne (hnew _ he) _ _).trans hold⟩
      · obtain rfl := List.mem_singleton.mp he
        exact ⟨ssrc, Function.update_self ..⟩
    · exact fun id t' ht' => List.mem_append_left _ (h.samples id t' ht')

/-- Making more calls takes no handle back. -/
theorem made_sublist (c : Creations) (calls : List CreateCall) :
    c.made.Sublist (Lib.run create c calls).made :=
  run_inv (I := fun d => c.made.Sublist d.made)
    (fun _ _ h => h.trans (List.sublist_append_left _ _)) calls c (.refl _)

theorem registered_run : ∀ (calls : List CreateCall) {c : Creations}, Registered c →
    ((Lib.run create c calls).made.map (·.1)).Nodup → Registered (Lib.run create c calls)
  | [], _, h, _ => h
  | call :: calls, c, h, hnodup =>
    registered_run calls (h.create call
      (hnodup.sublist ((made_sublist (create c call) calls).map _))) hnodup

/-- Distinct handles are resolved to their own tracks: what hides an RTP track is a sample track
with its handle. -/
theorem Registered.resolved {c : Creations} (h : Registered c) (hnodup : (c.made.map (·.1)).Nodup)
    {e : UInt32 × TrackLocal} (he : e ∈ c.made) : resolveTrack c.regs e.1 = some e.2 := by
  obtain ⟨id, t | t⟩ := e
  · have ht : c.regs.localTracks id = some t := h.has _ he
    simp [resolveTrack, ht]
  · obtain ⟨ssrc, ht⟩ := h.has _ he
    rcases hs : c.regs.localTracks id with - | t'
    · simp [resolveTrack, hs, ht]
    · have heq := List.inj_on_of_nodup_map hnodup he (h.samples id t' hs) rfl
      exact nomatch heq

/-- **When every handle names its own track.** -/
theorem local_tracks_iff (calls : List CreateCall) :
    HandlesResolve (Lib.run create .init calls)
      ↔ (rtpTracks calls = 0 ∧ sampleTracks calls ≤ 2 ^ 32)
        ∨ (sampleTracks calls = 0 ∧ rtpTracks calls ≤ 2 ^ 32)
        ∨ (sampleTracks calls ≤ 9999 ∧ rtpTracks calls ≤ 2 ^ 32 - 9999) := by
  rw [← nodup_made_iff]
  refine ⟨fun h => h.distinct, fun hnodup => ?_⟩
  have hresolved :=
    fun e he => (registered_run calls registered_init hnodup).resolved hnodup (e := e) he
  refine ⟨hnodup, hresolved, fun e he pcAddTrack sender hsender => ?_⟩
  simp only [addTrack, hresolved e he, Option.mem_def.mp hsender]

/-- A call for a VP8 track, the same for both kinds. -/
def vp8Args : SampleTrackArgs :=
  { streamId := some "stream".toList
    trackId := some "video".toList
    label := some "camera".toList
    kind := 2
    ssrc := 7
    mimeType := some "video/VP8".toList
    clockRate := 90000
    channels := 0
    sdpFmtpLine := none }

def vp8Track : MediaStreamTrack :=
  ⟨"stream".toList, "video".toList, "camera".toList, .video, 7, ⟨"video/VP8".toList, 90000, 0, []⟩⟩

theorem vp8Args_track : vp8Args.track = some vp8Track := by decide

/-- After `n` sample tracks. -/
theorem run_sample_tracks (n : Nat) :
    let regs := (Lib.run create .init (List.replicate n (.sample vp8Args))).regs
    regs.objects = n ∧ regs.localTrackIdCounter = UInt32.ofNat (1 + n)
      ∧ regs.localRtpTrackIdCounter = 10000
      ∧ ∀ m, n = m + 1 → regs.localTracks (UInt32.ofNat n) = some ⟨m, vp8Track⟩ := by
  induction n with
  | zero => exact ⟨rfl, rfl, rfl, fun m hm => by omega⟩
  | succ n ih =>
    intro regs
    obtain ⟨hobj, hcounter, hrtp, -⟩ := ih
    have hregs : regs = (registerLocalTrack
        (Lib.run create .init (List.replicate n (.sample vp8Args))).regs vp8Track).1 := by
      simp only [regs, List.replicate_succ', run_append, run_cons, run_nil, create, CreateCall.ffi,
        createTrackLocal, vp8Args_track]
    rw [hregs]
    refine ⟨?_, ?_, hrtp, ?_⟩
    · simp [registerLocalTrack, hobj]
    · simp only [registerLocalTrack, hcounter]
      exact (UInt32.ofNat_add _ _).symm
    · intro m hm
      obtain rfl : m = n := by omega
      simp only [registerLocalTrack, hcounter, hobj, Nat.add_comm 1, Function.update_self]

/-- The first RTP track after so many sample tracks that the next handle would be 10001. -/
theorem rtp_after_samples {n m : Nat} (hn : n = m + 1) (hid : UInt32.ofNat n = 10000) :
    let c := Lib.run create .init
      (List.replicate n (.sample vp8Args) ++ [.rtp vp8Args.toRtpTrackArgs])
    c.made.getLast? = some (10000, .rtp ⟨n, vp8Track⟩)
      ∧ resolveTrack c.regs 10000 = some (.sample ⟨m, vp8Track⟩) ∧ ¬ HandlesResolve c := by
  intro c
  have hc : c = create (Lib.run create .init (List.replicate n (.sample vp8Args)))
      (.rtp vp8Args.toRtpTrackArgs) := by
    simp only [c, run_append, run_cons, run_nil]
  obtain ⟨hobj, -, hrtp, hlast⟩ := run_sample_tracks n
  have hkept := hlast m hn
  have htrack : vp8Args.toRtpTrackArgs.track = some vp8Track := by decide
  have hmade : c.made.getLast? = some (10000, .rtp ⟨n, vp8Track⟩) := by
    simp [hc, create, CreateCall.ffi, createTrackLocalRtp, CreateCall.creates, htrack, hobj, hrtp]
  have hresolve : resolveTrack c.regs 10000 = some (.sample ⟨m, vp8Track⟩) := by
    have hregs : c.regs.localTracks
        = (Lib.run create .init (List.replicate n (.sample vp8Args))).regs.localTracks := by
      simp [hc, create, CreateCall.ffi, createTrackLocalRtp, htrack]
    rw [hid] at hkept
    simp [resolveTrack, hregs, hkept]
  refine ⟨hmade, hresolve, fun h => ?_⟩
  have := (h.resolved _ (List.mem_of_getLast? hmade)).symm.trans hresolve
  exact nomatch this

/-- **The ten-thousandth sample track hides the first RTP track**: both have the handle 10000, and
`add_track` sends the sample track. -/
theorem rtp_track_hidden :
    let calls := List.replicate 10000 (.sample vp8Args) ++ [.rtp vp8Args.toRtpTrackArgs]
    let c := Lib.run create .init calls
    c.made.getLast? = some (10000, .rtp ⟨10000, vp8Track⟩)
      ∧ resolveTrack c.regs 10000 = some (.sample ⟨9999, vp8Track⟩)
      ∧ ¬ HandlesResolve c :=
  rtp_after_samples rfl (by decide)

end WebrtcBridge.Ffi.LocalTracks
