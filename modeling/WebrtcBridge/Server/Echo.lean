/-
# A packet and its echo

An RTP packet that a session receives has FOUR FORMS before it is sent back:

    RtpPacket            the packet of the engine, with its header
    CallbackArgs         the arguments of the C callback, which Java sees as signed numbers
    RtpCallbackArgs      what `ON_RTP_FUNC` makes of them, all `int`s
    RtpJob               the bytes that `RtpPacket.build` writes, in the queue of the forwarder

The sequence number, the timestamp, the payload type and the payload survive all of it
(`onRtpPacket_open`, `build_eq`), and what the forwarder builds can be parsed again
(`parse_buildPacket`).  The MARKER is not among the arguments of the callback, and `build` clears
it.

On its way the packet has to find the callback in the native table, the `TrackRemote` in `TRACKS`
and the field that `onTrack` sets (`RemoteTrack`).  The poller runs before the last two are there.

Between the ANSWER of an OFFER and the LEAVE the forwarder has its tracks and the consumer runs
(`run_ready`).  What is written and what is still to be written are together what was received, step
by step (`step_settled`), and a consumer that has its turns gets to the end of it (`run_drained`).
-/
import WebrtcBridge.Server.Candidates
import WebrtcBridge.Server.Invariants

namespace WebrtcBridge.Server

open Lib

/-! ## 1. Four forms of a packet -/

/-- A packet that the engine hands out: `pkt.header` and `pkt.payload`.  In the header seven bits
are for the payload type. -/
structure RtpPacket where
  marker : Bool
  payloadType : UInt8
  sequenceNumber : UInt16
  timestamp : UInt32
  ssrc : UInt32
  payload : List UInt8
  payloadType_lt : payloadType < 128
  deriving DecidableEq, Repr

/-- The arguments of the C callback, the track apart, with the types that Java has for them. -/
structure CallbackArgs where
  payload : List UInt8
  payloadType : Int8
  seq : Int16
  ts : Int32
  ssrc : Int32
  deriving DecidableEq, Repr

/-- The call of `spawn_track_poller`. -/
def RtpPacket.cb (p : RtpPacket) : CallbackArgs where
  payload := p.payload
  payloadType := p.payloadType.toInt8
  seq := p.sequenceNumber.toInt16
  ts := p.timestamp.toInt32
  ssrc := p.ssrc.toInt32

/-- The arguments of `onRtpPacket`. -/
structure RtpCallbackArgs where
  payload : List UInt8
  payloadType : Int32
  seq : Int32
  ts : Int32
  ssrc : Int32
  deriving DecidableEq, Repr

/-- What stands between the poller of a remote track and the session, as the poller's thread sees
it: the entry of `TRACK_EVENT_CALLBACKS` with `ON_RTP` as its `on_rtp`, the `TrackRemote` in
`TRACKS`, and its field `rtpCallback`, which `onTrack` sets. -/
structure RemoteTrack where
  onRtp : Bool := false
  published : Bool := false
  rtpCallback : Bool := false
  deriving DecidableEq, Repr

namespace RemoteTrack

/-- `ON_RTP_FUNC`, up to its call of `rtpCallback.onRtpPacket`. -/
def onRtpFunc (r : RemoteTrack) (a : CallbackArgs) : Option RtpCallbackArgs :=
  if r.published ∧ r.rtpCallback then
    some
      { payload := a.payload
        payloadType := a.payloadType.toInt32 &&& 0xFF
        seq := a.seq.toInt32 &&& 0xFFFF
        ts := a.ts
        ssrc := a.ssrc }
  else none

/-- The `OnRtpPacket` arm of `spawn_track_poller`. -/
def onRtpPacket (r : RemoteTrack) (p : RtpPacket) : Option RtpCallbackArgs :=
  if r.onRtp then r.onRtpFunc p.cb else none

/-- A packet gets through. -/
def isOpen (r : RemoteTrack) : Bool := r.onRtp && r.published && r.rtpCallback

end RemoteTrack

/-- `RtpPacket.build`, over `int`s as the code has it. -/
def build (ssrc payloadType sequenceNumber timestamp : Int32) (payload : List UInt8) : List UInt8 :=
  [0x80, (payloadType &&& 0x7F).toInt8.toUInt8]
    ++ shortBytes (sequenceNumber &&& 0xFFFF).toInt16.toUInt16
    ++ intBytes timestamp.toUInt32 ++ intBytes ssrc.toUInt32 ++ payload

theorem toUInt8_toNat (n : Int32) : n.toInt8.toUInt8.toNat = n.toBitVec.toNat % 256 := by
  change n.toInt8.toBitVec.toNat = _
  rw [Int32.toBitVec_toInt8, BitVec.signExtend_eq_setWidth_of_le _ (by decide),
    BitVec.toNat_setWidth]

theorem and_toInt16 (n : Int32) : (n &&& 0xFFFF).toInt16 = n.toInt16 := by
  have hones : (0xFFFF : Int32).toInt16 = -1 := by decide
  rw [Int32.toInt16_and, hones, Int16.and_neg_one]

theorem and_toUInt8 (n : Nat) :
    (Int32.ofNat n &&& 0x7F).toInt8.toUInt8 = UInt8.ofNat (n % 128) := by
  have hmask : (0x7F : Int32).toBitVec.toNat = 2 ^ 7 - 1 := rfl
  rw [← UInt8.toNat_inj, toUInt8_toNat, Int32.toBitVec_and, BitVec.toNat_and, hmask,
    Nat.and_two_pow_sub_one_eq_mod]
  simp

/-- **The forwarder's packet is the one that `build` makes.** -/
theorem build_eq (ssrc : UInt32) (payloadType : Nat) (sequenceNumber timestamp : Int32)
    (payload : List UInt8) :
    build ssrc.toInt32 (Int32.ofNat payloadType) sequenceNumber timestamp payload
      = buildPacket ssrc payloadType sequenceNumber.toInt16.toUInt16
        timestamp.toUInt32 payload := by
  rw [build, buildPacket, and_toUInt8, and_toInt16]
  rfl

/-! ## 2. Parsing -/

def ofShortBytes (b1 b0 : UInt8) : UInt16 := UInt16.ofNat (b1.toNat * 256 + b0.toNat)

def ofIntBytes (b3 b2 b1 b0 : UInt8) : UInt32 :=
  UInt32.ofNat (((b3.toNat * 256 + b2.toNat) * 256 + b1.toNat) * 256 + b0.toNat)

theorem ofShortBytes_bytes (n : UInt16) : ofShortBytes (n >>> 8).toUInt8 n.toUInt8 = n := by
  have hlt := n.toNat_lt
  rw [← UInt16.toNat_inj, ofShortBytes]
  simp only [UInt16.toNat_ofNat', UInt16.toNat_toUInt8, UInt16.toNat_shiftRight,
    Nat.shiftRight_eq_div_pow, UInt16.reduceToNat, Nat.reduceMod, Nat.reducePow]
  omega

theorem ofIntBytes_bytes (n : UInt32) :
    ofIntBytes (n >>> 24).toUInt8 (n >>> 16).toUInt8 (n >>> 8).toUInt8 n.toUInt8 = n := by
  have hlt := n.toNat_lt
  rw [← UInt32.toNat_inj, ofIntBytes]
  simp only [UInt32.toNat_ofNat', UInt32.toNat_toUInt8, UInt32.toNat_shiftRight,
    Nat.shiftRight_eq_div_pow, UInt32.reduceToNat, Nat.reduceMod, Nat.reducePow]
  omega

/-- What follows the header extension, if there is one: two bytes, its length in words, the
words. -/
def skipExtension (extension : Bool) (bs : List UInt8) : Option (List UInt8) :=
  if extension then
    match bs with
    | _ :: _ :: l1 :: l0 :: rest =>
      let length := 4 * (ofShortBytes l1 l0).toNat
      if length ≤ rest.length then some (rest.drop length) else none
    | _ => none
  else some bs

/-- What precedes the padding, if there is any: the last byte says how much. -/
def dropPadding (padding : Bool) (bs : List UInt8) : Option (List UInt8) :=
  if padding then
    match bs.getLast? with
    | some n =>
      if 0 < n.toNat ∧ n.toNat ≤ bs.length then some (bs.take (bs.length - n.toNat)) else none
    | none => none
  else some bs

theorem and_lt (b : UInt8) : b &&& 0x7F < 128 := by
  obtain ⟨b⟩ := b
  revert b
  decide +kernel

/-- **What the bytes of an RTP packet mean.**  The sources and the extension are passed over. -/
def parseRtp : List UInt8 → Option RtpPacket
  | b0 :: b1 :: s1 :: s0 :: t3 :: t2 :: t1 :: t0 :: i3 :: i2 :: i1 :: i0 :: rest =>
    let sources := 4 * (b0 &&& 0x0F).toNat
    if b0 >>> 6 = 2 ∧ sources ≤ rest.length then do
      let rest ← skipExtension (b0 &&& 0x10 ≠ 0) (rest.drop sources)
      let payload ← dropPadding (b0 &&& 0x20 ≠ 0) rest
      return ⟨b1 &&& 0x80 ≠ 0, b1 &&& 0x7F, ofShortBytes s1 s0, ofIntBytes t3 t2 t1 t0,
        ofIntBytes i3 i2 i1 i0, payload, and_lt b1⟩
    else none
  | _ => none

theorem payloadType_byte {n : UInt8} (h : n < 128) :
    UInt8.ofNat (n.toNat % 128) = n ∧ n &&& 0x80 = 0 ∧ n &&& 0x7F = n := by
  obtain ⟨b⟩ := n
  revert b
  decide +kernel

/-- **What is built can be parsed**, and the marker is clear. -/
theorem parse_buildPacket (p : RtpPacket) (ssrc : UInt32) :
    parseRtp (buildPacket ssrc p.payloadType.toNat p.sequenceNumber p.timestamp p.payload)
      = some { p with marker := false, ssrc := ssrc } := by
  obtain ⟨hbyte, hmarker, htype⟩ := payloadType_byte p.payloadType_lt
  -- the first byte: version 2, no padding, no extension, no sources
  have hversion : (0x80 : UInt8) >>> 6 = 2 := rfl
  have hextension : (0x80 : UInt8) &&& 0x10 = 0 := rfl
  have hpadding : (0x80 : UInt8) &&& 0x20 = 0 := rfl
  simp [buildPacket, shortBytes, intBytes, parseRtp, skipExtension, dropPadding,
    hversion, hextension, hpadding, hbyte, hmarker, htype, ofShortBytes_bytes, ofIntBytes_bytes]

/-! ## 3. What reaches a session -/

/-- What happens to a remote track: `register` stores `ON_RTP` and then publishes the `TrackRemote`,
the field that `onTrack` sets becomes visible, and a poller that ends removes the entry. -/
inductive RemoteChange where
  | callbacksStored
  | trackPublished
  | rtpCallbackSeen
  | callbacksRemoved
  deriving DecidableEq, Repr

def RemoteTrack.change (r : RemoteTrack) : RemoteChange → RemoteTrack
  | .callbacksStored => { r with onRtp := true }
  | .trackPublished => { r with published := true }
  | .rtpCallbackSeen => { r with rtpCallback := true }
  | .callbacksRemoved => { r with onRtp := false }

/-- What can happen to a session and its remote tracks, with the packets as the engine has them. -/
inductive Input where
  /-- The poller of a remote track has taken a packet. -/
  | packet (id : Nat) (p : RtpPacket)
  | remote (id : Nat) (change : RemoteChange)
  | message (req : Signal)
  | socketClosed
  | step (i : Nat) (o : Outcome)
  | consumer
  deriving DecidableEq, Repr

/-- A session with its remote tracks. -/
structure Reception extends Session where
  remote : Nat → RemoteTrack := fun _ => {}

def Reception.fresh (first : PcId) : Reception where
  toSession := .fresh first

/-- The callback is called with the `int`s of `ON_RTP_FUNC`; `build_eq` says what becomes of
those. -/
def RtpCallbackArgs.act (a : RtpCallbackArgs) : Act :=
  .rtp a.payload a.payloadType.toNatClampNeg a.seq.toInt16.toUInt16 a.ts.toUInt32

/-- A step of the session, with the remote tracks as they are. -/
def Reception.act (firstMediaCodec : Text → MediaKind → Option Codec) (s : Reception) (a : Act) :
    Reception :=
  { s with toSession := s.toSession.step firstMediaCodec a }

def Reception.input (firstMediaCodec : Text → MediaKind → Option Codec) (s : Reception) :
    Input → Reception
  | .packet id p =>
    match (s.remote id).onRtpPacket p with
    | some a => s.act firstMediaCodec a.act
    | none => s
  | .remote id change =>
    { s with remote := Function.update s.remote id ((s.remote id).change change) }
  | .message req => s.act firstMediaCodec (.message req)
  | .socketClosed => s.act firstMediaCodec .socketClosed
  | .step i o => s.act firstMediaCodec (.step i o)
  | .consumer => s.act firstMediaCodec .consumer

theorem payloadType_callback (n : UInt8) : (n.toInt8.toInt32 &&& 0xFF).toNatClampNeg = n.toNat := by
  obtain ⟨b⟩ := n
  revert b
  decide +kernel

/-- **All the callback is told of a packet arrives**, if it gets through. -/
theorem onRtpPacket_open {r : RemoteTrack} (h : r.isOpen = true) (p : RtpPacket) :
    (r.onRtpPacket p).map RtpCallbackArgs.act
      = some (.rtp p.payload p.payloadType.toNat p.sequenceNumber p.timestamp) := by
  have hseq : (p.sequenceNumber.toInt16.toInt32 &&& 0xFFFF).toInt16.toUInt16
      = p.sequenceNumber := by
    rw [and_toInt16, Int16.toInt16_toInt32]
    rfl
  simp only [RemoteTrack.isOpen, Bool.and_eq_true] at h
  simp only [RemoteTrack.onRtpPacket, RemoteTrack.onRtpFunc, h, and_self, if_true, Option.map_some,
    RtpPacket.cb, RtpCallbackArgs.act, payloadType_callback, hseq]
  rfl

theorem onRtpPacket_shut {r : RemoteTrack} (h : r.isOpen = false) (p : RtpPacket) :
    r.onRtpPacket p = none := by
  obtain ⟨onRtp, published, rtpCallback⟩ := r
  cases onRtp <;> cases published <;> cases rtpCallback <;> first | rfl | cases h

theorem input_packet (firstMediaCodec : Text → MediaKind → Option Codec) (s : Reception) (id : Nat)
    (p : RtpPacket) :
    s.input firstMediaCodec (.packet id p)
      = if (s.remote id).isOpen then
          s.act firstMediaCodec (.rtp p.payload p.payloadType.toNat p.sequenceNumber p.timestamp)
        else s := by
  cases h : (s.remote id).isOpen with
  | true =>
    obtain ⟨a, ha, hact⟩ := Option.map_eq_some_iff.mp (onRtpPacket_open h p)
    simp only [Reception.input, ha, hact, if_true]
  | false => simp [Reception.input, onRtpPacket_shut h p]

/-! ## 4. The forwarder -/

namespace Forwarder

variable {f : Forwarder}

/-- The consumer runs, and nobody has stopped it. -/
structure Runs (f : Forwarder) : Prop where
  running : f.running = true
  free : f.interrupted = false
  not_ended : f.consumer ≠ .ended

/-- The track of this kind is there. -/
def HasTrack (f : Forwarder) (kind : MediaKind) : Prop :=
  ∃ track, f.track kind = some track ∧ f.ssrc kind = track.ssrc

/-- The tracks are there. -/
def Prepared (f : Forwarder) : Prop := ∀ kind, f.HasTrack kind

/-- The same tracks and payload types. -/
structure SameTracks (f f' : Forwarder) : Prop where
  track : f'.track = f.track
  ssrc : f'.ssrc = f.ssrc
  payloadType : f'.payloadType = f.payloadType

theorem SameTracks.refl (f : Forwarder) : f.SameTracks f := ⟨rfl, rfl, rfl⟩

theorem SameTracks.trans {f' f'' : Forwarder} (h : f.SameTracks f') (h' : f'.SameTracks f'') :
    f.SameTracks f'' :=
  ⟨h'.track.trans h.track, h'.ssrc.trans h.ssrc, h'.payloadType.trans h.payloadType⟩

theorem SameTracks.hasTrack {f' : Forwarder} (h : f.SameTracks f') {kind : MediaKind}
    (hf : f.HasTrack kind) : f'.HasTrack kind := by
  rw [HasTrack, h.track, h.ssrc]
  exact hf

theorem SameTracks.prepared {f' : Forwarder} (h : f.SameTracks f') (hf : f.Prepared) :
    f'.Prepared :=
  fun kind => h.hasTrack (hf kind)

theorem SameTracks.different {f' : Forwarder} (h : f.SameTracks f')
    (hf : f.audioPayloadType ≠ f.videoPayloadType) : f'.audioPayloadType ≠ f'.videoPayloadType := by
  have haudio : f'.audioPayloadType = f.audioPayloadType := congrFun h.payloadType .audio
  have hvideo : f'.videoPayloadType = f.videoPayloadType := congrFun h.payloadType .video
  rw [haudio, hvideo]
  exact hf

/-- A setter gives a track or leaves it alone. -/
theorem hasTrack_set {kind : MediaKind} {m : Setter} (h : m.gives kind = true ∨ f.HasTrack kind) :
    (f.set m).HasTrack kind := by
  rcases h with hgives | ⟨track, htrack, hssrc⟩
  · cases m with
    | audioTrack track =>
      obtain rfl : kind = .audio := by simpa [Setter.gives] using hgives
      exact ⟨track, rfl, rfl⟩
    | videoTrack track =>
      obtain rfl : kind = .video := by simpa [Setter.gives] using hgives
      exact ⟨track, rfl, rfl⟩
    | audioPayloadType | videoPayloadType => cases hgives
  · cases m with
    | audioTrack track' =>
      cases kind with
      | audio => exact ⟨track', rfl, rfl⟩
      | video => exact ⟨track, htrack, hssrc⟩
    | videoTrack track' =>
      cases kind with
      | audio => exact ⟨track, htrack, hssrc⟩
      | video => exact ⟨track', rfl, rfl⟩
    | audioPayloadType | videoPayloadType => cases kind <;> exact ⟨track, htrack, hssrc⟩

/-- The job that the consumer has in hand. -/
def inHand (f : Forwarder) : List RtpJob :=
  match f.consumer with
  | .write job => [job]
  | _ => []

/-- **What is still to be written.** -/
def unwritten (f : Forwarder) : List Write := (f.inHand ++ f.queue).filterMap f.echo

/-- **A turn writes the first of what is to be written, or nothing.** -/
theorem turn_echo (hruns : f.Runs) :
    f.turn.1.Runs ∧ f.SameTracks f.turn.1
      ∧ f.turn.2.toList ++ f.turn.1.unwritten = f.unwritten := by
  obtain ⟨at', vt, ap, vp, as, vs, queue, running, interrupted, consumer⟩ := f
  obtain ⟨hrunning, hfree, hended⟩ := hruns
  simp only at hrunning hfree hended
  subst hrunning hfree
  cases consumer with
  | check =>
    refine ⟨⟨rfl, rfl, ?_⟩, ⟨rfl, rfl, rfl⟩, rfl⟩
    intro h
    cases h
  | take =>
    cases queue with
    | nil => exact ⟨⟨rfl, rfl, hended⟩, ⟨rfl, rfl, rfl⟩, rfl⟩
    | cons job queue =>
      refine ⟨⟨rfl, rfl, ?_⟩, ⟨rfl, rfl, rfl⟩, rfl⟩
      intro h
      cases h
  | write job =>
    refine ⟨⟨rfl, rfl, ?_⟩, ⟨rfl, rfl, rfl⟩, ?_⟩
    · intro h
      cases h
    · change (echo _ job).toList ++ queue.filterMap (echo _) = (job :: queue).filterMap (echo _)
      rw [List.filterMap_cons]
      split
      · next hnone => rw [hnone]; rfl
      · next w hsome => rw [hsome]; rfl
  | ended => exact absurd rfl hended

/-- **The echo of a packet** in the mind of the forwarder `f`: it goes to the track of the packet's
kind and can be parsed as the packet, with the SSRC of the track. -/
def EchoOf (f : Forwarder) (p : RtpPacket) (w : Write) : Prop :=
  ∀ kind, p.payloadType.toNat = f.payloadType kind →
    f.track kind = some w.track ∧ parseRtp w.packet = some { p with ssrc := w.track.ssrc }

theorem EchoOf.congr {f' : Forwarder} (h : f.SameTracks f') {p : RtpPacket} {w : Write}
    (hw : f'.EchoOf p w) : f.EchoOf p w := by
  intro kind hkind
  rw [← h.payloadType] at hkind
  rw [← h.track]
  exact hw kind hkind

/-- A packet may go into the queue, and that is all. -/
theorem rtpCallback_keeps (payload : List UInt8) (pt : Nat) (sequenceNumber : UInt16)
    (timestamp : UInt32) :
    (f.Runs → (f.rtpCallback payload pt sequenceNumber timestamp).Runs)
      ∧ f.SameTracks (f.rtpCallback payload pt sequenceNumber timestamp) := by
  obtain ⟨jobs, hjobs⟩ := f.rtpCallback_queue payload pt sequenceNumber timestamp
  rw [hjobs]
  constructor
  · intro hruns
    exact ⟨hruns.running, hruns.free, hruns.not_ended⟩
  · exact ⟨rfl, rfl, rfl⟩

/-- The payload type says which kind it is. -/
theorem rtpCallback_kind (hdifferent : f.audioPayloadType ≠ f.videoPayloadType) (kind : MediaKind)
    (payload : List UInt8) (sequenceNumber : UInt16) (timestamp : UInt32) :
    f.rtpCallback payload (f.payloadType kind) sequenceNumber timestamp
      = f.onRtp kind payload sequenceNumber timestamp := by
  cases kind with
  | audio => rw [rtpCallback, payloadType, if_pos rfl]
  | video => rw [rtpCallback, payloadType, if_neg hdifferent.symm, if_pos rfl]

theorem payloadType_inj (hdifferent : f.audioPayloadType ≠ f.videoPayloadType)
    {kind kind' : MediaKind} (h : f.payloadType kind = f.payloadType kind') : kind = kind' := by
  cases kind with
  | audio =>
    cases kind' with
    | audio => rfl
    | video => exact absurd h hdifferent
  | video =>
    cases kind' with
    | audio => exact absurd h.symm hdifferent
    | video => rfl

/-- **A packet that is received is to be written once more**, after all that is to be written. -/
theorem receive_echo (hprepared : f.Prepared) (hdifferent : f.audioPayloadType ≠ f.videoPayloadType)
    {p : RtpPacket} (hpayload : p.payload ≠ []) {kind : MediaKind}
    (hkind : p.payloadType.toNat = f.payloadType kind) (hmarker : p.marker = false) :
    ∃ w, f.EchoOf p w
      ∧ (f.rtpCallback p.payload p.payloadType.toNat p.sequenceNumber p.timestamp).unwritten
        = f.unwritten ++ [w] := by
  obtain ⟨track, htrack, hssrc⟩ := hprepared kind
  refine ⟨⟨track, buildPacket (f.ssrc kind) (f.payloadType kind) p.sequenceNumber p.timestamp
    p.payload⟩, ?_, ?_⟩
  · intro kind' hkind'
    obtain rfl := payloadType_inj hdifferent (hkind.symm.trans hkind')
    refine ⟨htrack, ?_⟩
    have hparse := parse_buildPacket p (f.ssrc kind)
    rw [hkind, hssrc, ← hmarker] at hparse
    rw [hssrc]
    exact hparse
  · have hnot : ¬ (f.track kind = none ∨ p.payload = []) := by
      rintro (hnone | hnil)
      · rw [htrack] at hnone
        cases hnone
      · exact hpayload hnil
    rw [hkind, rtpCallback_kind hdifferent, onRtp, if_neg hnot]
    have hecho : f.echo ⟨kind, buildPacket (f.ssrc kind) (f.payloadType kind) p.sequenceNumber
        p.timestamp p.payload⟩ = some ⟨track, buildPacket (f.ssrc kind) (f.payloadType kind)
        p.sequenceNumber p.timestamp p.payload⟩ := by
      rw [echo, htrack]
      rfl
    change (f.inHand ++ (f.queue ++ [_])).filterMap f.echo = _
    rw [← List.append_assoc, List.filterMap_append, unwritten, List.filterMap_cons, hecho]
    rfl

end Forwarder

/-! ## 5. The handlers -/

def Event.written : Event → Option Write
  | .wrote w => some w
  | _ => none

/-- The packets that have been written, in their order. -/
def writes (log : List Event) : List Write := log.filterMap Event.written

/-- The points whose step touches the forwarder. -/
def Point.isForwarding : Point → Bool
  | .setters todo => !todo.isEmpty
  | .stop => true
  | _ => false

/-- **What a handler does with the echo otherwise**: nothing.  It neither writes a packet nor
touches the forwarder, and it answers an OFFER only after the setters. -/
structure Aside (s : Shared) (h : Handler) (r : Shared × Option Handler) : Prop where
  forwarder : r.1.forwarder = s.forwarder
  writes : writes r.1.log = writes s.log
  answered : answered r.1.log = true → answered s.log = true ∨ ∀ kind, h.point.hasTrack kind = true
  hasTrack : ∀ h' ∈ r.2, ∀ kind, h'.point.hasTrack kind = true → h.point.hasTrack kind = true

section Aside

variable {s t : Shared} {h : Handler}

theorem Notes.writes (hnotes : Notes s t) : writes t.log = writes s.log := by
  obtain ⟨es, hlog, hes⟩ := hnotes.log
  have hnone : es.filterMap Event.written = [] := by
    refine List.filterMap_eq_nil_iff.mpr ?_
    intro e he
    have hnote := List.all_eq_true.mp hes e he
    cases e with
    | wrote => cases hnote
    | response | errorEvent | created | called | flagged | closed => rfl
  rw [hlog, Server.writes, List.filterMap_append, hnone, List.append_nil]
  rfl

theorem Notes.answered (hnotes : Notes s t) : answered t.log = answered s.log := by
  obtain ⟨es, hlog, hes⟩ := hnotes.log
  have hnone : es.any Event.isAnswer = false := by
    refine List.any_eq_false.mpr ?_
    intro e he
    have hnote := List.all_eq_true.mp hes e he
    cases e with
    | response => cases hnote
    | errorEvent | created | called | flagged | closed | wrote => simp [Event.isAnswer]
  rw [hlog, Server.answered, List.any_append, hnone, Bool.or_false]
  rfl

theorem writes_emit {e : Event} (he : e.written = none) : writes (t.emit e).log = writes t.log := by
  rw [Shared.emit, writes, List.filterMap_append, List.filterMap_cons_none he, List.filterMap_nil,
    List.append_nil]
  rfl

theorem answered_emit {e : Event} (he : e.isAnswer = false) :
    answered (t.emit e).log = answered t.log := by
  rw [Shared.emit, answered, List.any_append, List.any_cons, he, List.any_nil, Bool.or_false,
    Bool.or_false]
  rfl

theorem Ends.writes {threw : Bool} {r : Shared × Option Handler} (hends : Ends s h threw r) :
    writes r.1.log = writes s.log := by
  cases hends with
  | goes hnotes | closes _ hnotes => exact hnotes.writes
  | sets | stops => rfl
  | fails hnotes | replies hnotes => exact (writes_emit rfl).trans hnotes.writes

theorem Ends.aside {threw : Bool} {r : Shared × Option Handler} (hends : Ends s h threw r)
    (hpoint : h.point.isForwarding = false) : Aside s h r := by
  have hwrites := hends.writes
  cases hends with
  | goes hnotes hnext =>
    refine ⟨hnotes.forwarder, hwrites, fun ha => .inl (hnotes.answered ▸ ha), ?_⟩
    rintro h' ⟨⟩
    exact hnext
  | sets hsets =>
    rw [hsets] at hpoint
    cases hpoint
  | stops hstops =>
    rw [hstops] at hpoint
    cases hpoint
  | fails hnotes =>
    refine ⟨hnotes.forwarder, hwrites, ?_, by simp [Handler.fail]⟩
    intro ha
    rw [Handler.fail, answered_emit rfl, hnotes.answered] at ha
    exact .inl ha
  | @replies t r hnotes hr =>
    refine ⟨hnotes.forwarder, hwrites, ?_, by simp⟩
    intro ha
    cases r with
    | answer sdp => exact .inr (hr sdp rfl)
    | ack | bye | error =>
      rw [Handler.reply, answered_emit rfl, hnotes.answered] at ha
      exact .inl ha
  | closes _ hnotes =>
    exact ⟨hnotes.forwarder, hwrites, fun ha => .inl (hnotes.answered ▸ ha), by simp⟩

/-- **A step of a handler and the echo.** -/
theorem step_aside (firstMediaCodec : Text → MediaKind → Option Codec) (s : Shared) (h : Handler)
    (o : Outcome) (hpoint : h.point.isForwarding = false) :
    Aside s h (h.step firstMediaCodec s o) :=
  (step_ends firstMediaCodec s h o).aside hpoint

end Aside

/-! ## 6. Up to the ANSWER -/

section Runs

variable (firstMediaCodec : Text → MediaKind → Option Codec)

/-- Nobody stops the forwarder: no LEAVE gets so far, and no socket that is closed. -/
def BeforeLeave (s : Reception) : Input → Prop
  | .step i _ => ∀ h ∈ s.handlers[i]?, h.point ≠ .stop
  | _ => True

instance (s : Reception) : ∀ i, Decidable (BeforeLeave s i)
  | .step i _ => inferInstanceAs (Decidable (∀ h ∈ s.handlers[i]?, h.point ≠ .stop))
  | .packet .. | .remote .. | .message _ | .socketClosed | .consumer => .isTrue trivial

/-- The forwarder runs, and it has its tracks if an OFFER has set them or has been answered. -/
structure Ready (s : Shared) (hs : List Handler) : Prop where
  runs : s.forwarder.Runs
  prepared : ∀ kind, (answered s.log = true ∨ ∃ h ∈ hs, h.point.hasTrack kind = true) →
    s.forwarder.HasTrack kind

theorem Ready.perm {s : Shared} {hs hs' : List Handler} (hp : hs.Perm hs') (h : Ready s hs) :
    Ready s hs' := by
  refine ⟨h.runs, ?_⟩
  simp only [← hp.mem_iff]
  exact h.prepared

/-- A handler that has no tracks yet. -/
theorem Ready.join {s : Shared} {hs : List Handler} (h : Ready s hs) {t : Handler}
    (ht : ∀ kind, t.point.hasTrack kind = false) : Ready s (hs ++ [t]) := by
  refine ⟨h.runs, ?_⟩
  rintro kind (hanswered | ⟨h', hmem, htracks⟩)
  · exact h.prepared kind (.inl hanswered)
  · rcases List.mem_append.mp hmem with hmem | hmem
    · exact h.prepared kind (.inr ⟨h', hmem, htracks⟩)
    · obtain rfl := List.mem_singleton.mp hmem
      rw [ht kind] at htracks
      cases htracks

/-- **A setter**: the handler has what it gives, and keeps what it has. -/
theorem ready_set {s : Shared} {req : Option Signal} {m : Setter} {todo : List Setter}
    {rest : List Handler} (h : Ready s (⟨req, .setters (m :: todo)⟩ :: rest)) :
    Ready { s with forwarder := s.forwarder.set m } (⟨req, .setters todo⟩ :: rest) := by
  constructor
  · have hruns := h.runs
    cases m <;> exact ⟨hruns.running, hruns.free, hruns.not_ended⟩
  · intro kind hor
    refine Forwarder.hasTrack_set ?_
    rcases hor with hanswered | ⟨h', hmem, htrack⟩
    · exact .inr (h.prepared kind (.inl hanswered))
    · rcases List.mem_cons.mp hmem with rfl | hmem
      · cases hgives : m.gives kind with
        | true => exact .inl rfl
        | false =>
          refine .inr (h.prepared kind (.inr ⟨_, List.mem_cons_self, ?_⟩))
          simpa [Point.hasTrack, hgives] using htrack
      · exact .inr (h.prepared kind (.inr ⟨h', List.mem_cons_of_mem _ hmem, htrack⟩))

theorem ready_handler {s : Shared} {t : Handler} {rest : List Handler} (o : Outcome)
    (hstop : t.point ≠ .stop) (h : Ready s (t :: rest)) :
    Ready (t.step firstMediaCodec s o).1 ((t.step firstMediaCodec s o).2.toList ++ rest) := by
  cases hforwarding : t.point.isForwarding with
  | true =>
    obtain ⟨req, point⟩ := t
    cases point with
    | setters todo =>
      cases todo with
      | nil => cases hforwarding
      | cons m todo => exact ready_set h
    | stop => exact absurd rfl hstop
    | _ => cases hforwarding
  | false =>
    have haside := step_aside firstMediaCodec s t o hforwarding
    constructor
    · rw [haside.forwarder]
      exact h.runs
    · intro kind hor
      rw [haside.forwarder]
      refine h.prepared kind ?_
      rcases hor with hanswered | ⟨h', hmem, htracks⟩
      · rcases haside.answered hanswered with hbefore | hself
        · exact .inl hbefore
        · exact .inr ⟨t, List.mem_cons_self, hself kind⟩
      · rcases List.mem_append.mp hmem with hmem | hmem
        · exact .inr ⟨t, List.mem_cons_self, haside.hasTrack h' (by simpa using hmem) kind htracks⟩
        · exact .inr ⟨h', List.mem_cons_of_mem t hmem, htracks⟩

theorem answered_consume (s : Shared) : answered s.consume.log = answered s.log := by
  change answered (s.log ++ (s.forwarder.turn.2.map Event.wrote).toList) = _
  cases s.forwarder.turn.2 with
  | none => simp
  | some w => simp [answered, Event.isAnswer]

theorem writes_consume (s : Shared) :
    writes s.consume.log = writes s.log ++ s.forwarder.turn.2.toList := by
  change writes (s.log ++ (s.forwarder.turn.2.map Event.wrote).toList) = _
  cases s.forwarder.turn.2 with
  | none => simp
  | some w => simp [writes, Event.written]

theorem step_ready (s : Reception) (i : Input) (hi : BeforeLeave s i)
    (h : Ready s.shared s.handlers) :
    Ready (s.input firstMediaCodec i).shared (s.input firstMediaCodec i).handlers := by
  cases i with
  | packet id p =>
    rw [input_packet]
    split
    · obtain ⟨hruns, hsame⟩ := s.shared.forwarder.rtpCallback_keeps p.payload p.payloadType.toNat
        p.sequenceNumber p.timestamp
      exact ⟨hruns h.runs, fun kind hor => hsame.hasTrack (h.prepared kind hor)⟩
    · exact h
  | remote id change => exact h
  | message req | socketClosed =>
    simp only [Reception.input, Reception.act, Session.step]
    split
    · exact h.join fun _ => rfl
    · exact h
  | step i o =>
    refine turn_inv (I := Ready) Ready.perm ?_ h
    intro t rest hget _ hready
    exact ready_handler firstMediaCodec o (hi t hget) hready
  | consumer =>
    obtain ⟨hruns, hsame, -⟩ := s.shared.forwarder.turn_echo h.runs
    refine ⟨hruns, ?_⟩
    intro kind hor
    change answered s.shared.consume.log = true ∨ _ at hor
    rw [answered_consume] at hor
    exact hsame.hasTrack (h.prepared kind hor)

/-- **Between the ANSWER and the LEAVE** the forwarder runs and has its tracks. -/
theorem run_ready (first : PcId) (before : List Input)
    (hbefore : Heeds BeforeLeave (Reception.input firstMediaCodec) (.fresh first) before) :
    Ready (run (Reception.input firstMediaCodec) (.fresh first) before).shared
      (run (Reception.input firstMediaCodec) (.fresh first) before).handlers := by
  refine (always_of_heeds (I := fun s : Reception => Ready s.shared s.handlers)
    (step_ready firstMediaCodec) before (.fresh first) ⟨⟨rfl, rfl, ?_⟩, ?_⟩ hbefore).last
  · intro h
    cases h
  · rintro kind (hanswered | ⟨h, hmem, -⟩)
    · cases hanswered
    · cases hmem

/-! ## 7. From the ANSWER to the LEAVE -/

def Input.rtpPacket : Input → Option RtpPacket
  | .packet _ p => some p
  | _ => none

/-- The packets, in the order of their reception. -/
def receivedPackets (inputs : List Input) : List RtpPacket := inputs.filterMap Input.rtpPacket

/-- **What may happen while packets are echoed**: nobody stops the forwarder or gives it other
tracks, and a packet comes over a track that is registered, has a payload, one of the two payload
types and no marker. -/
def Echoing (s : Reception) : Input → Prop
  | .packet id p =>
    (s.remote id).isOpen = true ∧ p.payload ≠ [] ∧ p.marker = false
      ∧ (p.payloadType.toNat = s.shared.forwarder.audioPayloadType
        ∨ p.payloadType.toNat = s.shared.forwarder.videoPayloadType)
  | .step i _ => ∀ h ∈ s.handlers[i]?, h.point.isForwarding = false
  | _ => True

instance (s : Reception) : ∀ i, Decidable (Echoing s i)
  | .packet .. => inferInstanceAs (Decidable (_ ∧ _ ∧ _ ∧ _))
  | .step i _ => inferInstanceAs (Decidable (∀ h ∈ s.handlers[i]?, h.point.isForwarding = false))
  | .remote .. | .message _ | .socketClosed | .consumer => .isTrue trivial

/-- **The books**: what has been written and what is still to be written are what was, and the
echoes of the packets. -/
structure Settled (s s' : Reception) (packets : List RtpPacket) : Prop where
  runs : s'.shared.forwarder.Runs
  same : s.shared.forwarder.SameTracks s'.shared.forwarder
  balance : ∃ echoes, List.Forall₂ s.shared.forwarder.EchoOf packets echoes
    ∧ writes s'.shared.log ++ s'.shared.forwarder.unwritten
      = writes s.shared.log ++ s.shared.forwarder.unwritten ++ echoes

theorem Settled.trans {s s' s'' : Reception} {ps qs : List RtpPacket} (h : Settled s s' ps)
    (h' : Settled s' s'' qs) : Settled s s'' (ps ++ qs) := by
  obtain ⟨echoes, hechoes, hbalance⟩ := h.balance
  obtain ⟨echoes', hechoes', hbalance'⟩ := h'.balance
  refine ⟨h'.runs, h.same.trans h'.same, echoes ++ echoes', ?_, ?_⟩
  · exact List.rel_append hechoes (hechoes'.imp fun _ _ hw => hw.congr h.same)
  · rw [hbalance', hbalance, List.append_assoc]

/-- Nothing happened that concerns the echo. -/
theorem settled_of_aside {s s' : Reception} (hruns : s.shared.forwarder.Runs)
    (hforwarder : s'.shared.forwarder = s.shared.forwarder)
    (hwrites : writes s'.shared.log = writes s.shared.log) : Settled s s' [] := by
  refine ⟨hforwarder ▸ hruns, hforwarder ▸ Forwarder.SameTracks.refl _, [], .nil, ?_⟩
  rw [hforwarder, hwrites, List.append_nil]

/-- **One step.** -/
theorem step_settled {s : Reception} {i : Input} (hi : Echoing s i)
    (hruns : s.shared.forwarder.Runs) (hprepared : s.shared.forwarder.Prepared)
    (hdifferent : s.shared.forwarder.audioPayloadType ≠ s.shared.forwarder.videoPayloadType) :
    Settled s (s.input firstMediaCodec i) (receivedPackets [i]) := by
  cases i with
  | packet id p =>
    obtain ⟨hopen, hpayload, hmarker, htype⟩ := hi
    have hkind : ∃ kind, p.payloadType.toNat = s.shared.forwarder.payloadType kind := by
      rcases htype with haudio | hvideo
      · exact ⟨.audio, haudio⟩
      · exact ⟨.video, hvideo⟩
    obtain ⟨kind, hkind⟩ := hkind
    obtain ⟨hkeeps, hsame⟩ := s.shared.forwarder.rtpCallback_keeps p.payload p.payloadType.toNat
      p.sequenceNumber p.timestamp
    obtain ⟨w, hw, hunwritten⟩ :=
      Forwarder.receive_echo hprepared hdifferent hpayload hkind hmarker
    rw [input_packet, if_pos hopen]
    refine ⟨hkeeps hruns, hsame, [w], .cons hw .nil, ?_⟩
    rw [List.append_assoc, ← hunwritten]
    rfl
  | remote id change => exact settled_of_aside hruns rfl rfl
  | message req | socketClosed =>
    refine settled_of_aside hruns ?_ ?_
    · simp only [Reception.input, Reception.act, Session.step]
      split <;> rfl
    · simp only [Reception.input, Reception.act, Session.step]
      split <;> rfl
  | step i o =>
    cases ht : s.handlers[i]? with
    | none =>
      have hturn : (s.input firstMediaCodec (.step i o)).shared = s.shared := by
        simp only [Reception.input, Reception.act, Session.step, turn_none ht]
      exact settled_of_aside hruns (by rw [hturn]) (by rw [hturn])
    | some t =>
      have haside := step_aside firstMediaCodec s.shared t o (hi t ht)
      have hturn : (s.input firstMediaCodec (.step i o)).shared
          = (t.step firstMediaCodec s.shared o).1 := by
        simp only [Reception.input, Reception.act, Session.step, turn_some ht]
      refine settled_of_aside hruns ?_ ?_
      · rw [hturn, haside.forwarder]
      · rw [hturn, haside.writes]
  | consumer =>
    obtain ⟨hruns', hsame, hturn⟩ := s.shared.forwarder.turn_echo hruns
    refine ⟨hruns', hsame, [], .nil, ?_⟩
    change writes s.shared.consume.log ++ s.shared.forwarder.turn.1.unwritten = _
    rw [writes_consume, List.append_assoc, hturn, List.append_nil]

/-- **A whole period**, by induction on what happens in it. -/
theorem run_settled {period : List Input} {s : Reception}
    (hperiod : Heeds Echoing (Reception.input firstMediaCodec) s period)
    (hruns : s.shared.forwarder.Runs) (hprepared : s.shared.forwarder.Prepared)
    (hdifferent : s.shared.forwarder.audioPayloadType ≠ s.shared.forwarder.videoPayloadType) :
    Settled s (run (Reception.input firstMediaCodec) s period) (receivedPackets period) := by
  induction period generalizing s with
  | nil => exact settled_of_aside hruns rfl rfl
  | cons i period ih =>
    have hstep := step_settled firstMediaCodec hperiod.1 hruns hprepared hdifferent
    have hrest := ih hperiod.2 hstep.runs (hstep.same.prepared hprepared)
      (hstep.same.different hdifferent)
    have hreceived : receivedPackets (i :: period)
        = receivedPackets [i] ++ receivedPackets period := by
      simp only [receivedPackets, ← List.filterMap_append, List.singleton_append]
    rw [run_cons, hreceived]
    exact hstep.trans hrest

/-- Nothing is left to be written. -/
def Forwarder.Drained (f : Forwarder) : Prop := f.inHand = [] ∧ f.queue = []

/-- How many turns of the consumer are enough for that. -/
def Forwarder.work (f : Forwarder) : Nat :=
  match f.consumer with
  | .check => 3 * f.queue.length
  | .take => 3 * f.queue.length - 1
  | .write _ => 3 * f.queue.length + 1
  | .ended => 0

/-- A consumer with nothing to do. -/
theorem Forwarder.turn_drained {f : Forwarder} (h : f.Drained) :
    f.turn.1.Drained ∧ f.turn.2 = none := by
  obtain ⟨at', vt, ap, vp, as, vs, queue, running, interrupted, consumer⟩ := f
  obtain ⟨hhand, hqueue⟩ := h
  simp only at hqueue
  subst hqueue
  cases consumer with
  | check => cases running <;> exact ⟨⟨rfl, rfl⟩, rfl⟩
  | take => cases interrupted <;> exact ⟨⟨rfl, rfl⟩, rfl⟩
  | write job => cases hhand
  | ended => exact ⟨⟨rfl, rfl⟩, rfl⟩

/-- A consumer with something to do. -/
theorem Forwarder.turn_work {f : Forwarder} (hruns : f.Runs) (h : ¬ f.Drained) :
    f.turn.1.work < f.work := by
  obtain ⟨at', vt, ap, vp, as, vs, queue, running, interrupted, consumer⟩ := f
  obtain ⟨hrunning, hfree, hended⟩ := hruns
  simp only at hrunning hfree hended
  subst hrunning hfree
  cases consumer with
  | check =>
    cases queue with
    | nil => exact absurd ⟨rfl, rfl⟩ h
    | cons job queue =>
      change 3 * (queue.length + 1) - 1 < 3 * (queue.length + 1)
      omega
  | take =>
    cases queue with
    | nil => exact absurd ⟨rfl, rfl⟩ h
    | cons job queue =>
      change 3 * queue.length + 1 < 3 * (queue.length + 1) - 1
      omega
  | write job => exact Nat.lt_succ_self _
  | ended => exact absurd rfl hended

theorem Forwarder.drained_of_work {f : Forwarder} (hruns : f.Runs) (h : f.work = 0) :
    f.Drained := by
  by_contra hnot
  have hlt := Forwarder.turn_work hruns hnot
  omega

theorem Forwarder.Drained.unwritten {f : Forwarder} (h : f.Drained) : f.unwritten = [] := by
  rw [Forwarder.unwritten, h.1, h.2]
  rfl

/-- **A consumer that has its turns writes everything.** -/
theorem run_drained {s : Reception} (hruns : s.shared.forwarder.Runs) {m : Nat}
    (hm : s.shared.forwarder.work ≤ m) :
    (run (Reception.input firstMediaCodec) s
      (List.replicate m .consumer)).shared.forwarder.Drained := by
  refine fin_of_turns (fun s : Reception => s.shared.forwarder.Runs)
    (fun s => s.shared.forwarder.Drained) (fun s => s.shared.forwarder.work) (· = .consumer)
    (· = .consumer) ?_ ?_ ?_ ?_ ?_ _ s ?_ hruns ?_
  · rintro s i rfl h
    exact (s.shared.forwarder.turn_echo h).1
  · rintro s i rfl - h hnot
    exact Forwarder.turn_work h hnot
  · rintro s i rfl hturn
    cases hturn
  · rintro s i rfl h hfin
    exact (Forwarder.turn_drained hfin).1
  · intro s h hzero
    exact Forwarder.drained_of_work h hzero
  · intro i hi
    exact List.eq_of_mem_replicate hi
  · left
    rw [turns_replicate (by simp)]
    exact hm

theorem heeds_consumer (m : Nat) (s : Reception) :
    Heeds Echoing (Reception.input firstMediaCodec) s (List.replicate m .consumer) := by
  induction m generalizing s with
  | zero => trivial
  | succ m ih => exact ⟨trivial, ih _⟩

/-- All that is written in the end. -/
theorem writes_drained {s : Reception} (hruns : s.shared.forwarder.Runs)
    (hprepared : s.shared.forwarder.Prepared)
    (hdifferent : s.shared.forwarder.audioPayloadType ≠ s.shared.forwarder.videoPayloadType)
    {m : Nat} (hm : s.shared.forwarder.work ≤ m) :
    writes (run (Reception.input firstMediaCodec) s (List.replicate m .consumer)).shared.log
      = writes s.shared.log ++ s.shared.forwarder.unwritten := by
  have hnone : receivedPackets (List.replicate m .consumer) = [] := by
    refine List.filterMap_eq_nil_iff.mpr ?_
    intro i hi
    rw [List.eq_of_mem_replicate hi]
    rfl
  have hsettled := run_settled firstMediaCodec (heeds_consumer firstMediaCodec m s) hruns hprepared
    hdifferent
  obtain ⟨echoes, hechoes, hbalance⟩ := hsettled.balance
  rw [hnone] at hechoes
  cases hechoes
  rwa [(run_drained firstMediaCodec hruns hm).unwritten, List.append_nil,
    List.append_nil] at hbalance

/-- Without packets there is nothing to write. -/
def Silent (s : Shared) : Prop := writes s.log = [] ∧ s.forwarder.Drained

theorem silent_handler {s : Shared} (t : Handler) (o : Outcome) (h : Silent s) :
    Silent (t.step firstMediaCodec s o).1 := by
  constructor
  · exact (step_ends firstMediaCodec s t o).writes.trans h.1
  · refine step_forwarder firstMediaCodec o (P := Forwarder.Drained) ?_ (fun h => h) t h.2
    intro f m hf
    cases m <;> exact hf

theorem step_silent (s : Reception) (i : Input) (hi : i.rtpPacket = none) (h : Silent s.shared) :
    Silent (s.input firstMediaCodec i).shared := by
  cases i with
  | packet id p => cases hi
  | remote id change => exact h
  | message req | socketClosed =>
    simp only [Reception.input, Reception.act, Session.step]
    split <;> exact h
  | step i o =>
    refine turn_inv (I := fun (s : Shared) _ => Silent s) (fun _ h => h) ?_ h
    intro t rest _ _ h
    exact silent_handler firstMediaCodec t o h
  | consumer =>
    obtain ⟨hdrained, hnone⟩ := Forwarder.turn_drained h.2
    refine ⟨?_, hdrained⟩
    change writes s.shared.consume.log = []
    rw [writes_consume, hnone, h.1]
    rfl

theorem run_silent (first : PcId) {before : List Input} (hbefore : receivedPackets before = []) :
    Silent (run (Reception.input firstMediaCodec) (.fresh first) before).shared := by
  refine run_inv_on (fun s : Reception => Silent s.shared) (·.rtpPacket = none)
    (step_silent firstMediaCodec) before (.fresh first) ?_ ⟨rfl, rfl, rfl⟩
  exact List.filterMap_eq_nil_iff.mp hbefore

/-- A session and what has happened to it so far. -/
def sessionAfter (first : PcId) (inputs : List Input) : Reception :=
  run (Reception.input firstMediaCodec) (.fresh first) inputs

/-- What has been written, and what is still to be written of the packets received so far. -/
def Reception.dueWrites (s : Reception) : List Write :=
  writes s.shared.log ++ s.shared.forwarder.unwritten

/-- **The echo.**  From the ANSWER to the LEAVE, and unless another OFFER sets other tracks, every
packet without a marker is written once: to the track of its kind, as the same packet with the SSRC
of the track, and in the order of reception, even across the kinds.  What is written is always a
beginning of that, and with enough turns of the consumer it is all of it.  Packets that arrived
before the ANSWER, if there are any, come first. -/
theorem verbatim_echo (first : PcId) (before period : List Input)
    (hbefore : Heeds BeforeLeave (Reception.input firstMediaCodec) (.fresh first) before)
    (hanswered : answered (sessionAfter firstMediaCodec first before).shared.log = true)
    (hdifferent : (sessionAfter firstMediaCodec first before).shared.forwarder.audioPayloadType
      ≠ (sessionAfter firstMediaCodec first before).shared.forwarder.videoPayloadType)
    (hperiod : Heeds Echoing (Reception.input firstMediaCodec)
      (sessionAfter firstMediaCodec first before) period) :
    (receivedPackets before = [] → (sessionAfter firstMediaCodec first before).dueWrites = [])
      ∧ ∃ echoes,
        List.Forall₂ (sessionAfter firstMediaCodec first before).shared.forwarder.EchoOf
          (receivedPackets period) echoes
        ∧ writes (sessionAfter firstMediaCodec first (before ++ period)).shared.log
          <+: (sessionAfter firstMediaCodec first before).dueWrites ++ echoes
        ∧ ∃ n, ∀ m, n ≤ m →
          writes (sessionAfter firstMediaCodec first
              (before ++ period ++ List.replicate m .consumer)).shared.log
            = (sessionAfter firstMediaCodec first before).dueWrites ++ echoes := by
  have hsilent : receivedPackets before = [] → _ := run_silent firstMediaCodec first
  have hready := run_ready firstMediaCodec first before hbefore
  simp only [sessionAfter, run_append] at *
  generalize run (Reception.input firstMediaCodec) (.fresh first) before = s at *
  have hprepared : s.shared.forwarder.Prepared :=
    fun kind => hready.prepared kind (.inl hanswered)
  have hsettled := run_settled firstMediaCodec hperiod hready.runs hprepared hdifferent
  generalize run (Reception.input firstMediaCodec) s period = s' at *
  obtain ⟨echoes, hechoes, hbalance⟩ := hsettled.balance
  constructor
  · intro hnone
    obtain ⟨hwrites, hdrained⟩ := hsilent hnone
    rw [Reception.dueWrites, hwrites, hdrained.unwritten]
    rfl
  · refine ⟨echoes, hechoes, ?_, s'.shared.forwarder.work, ?_⟩
    · rw [Reception.dueWrites, ← hbalance]
      exact List.prefix_append _ _
    · intro m hm
      rw [writes_drained firstMediaCodec hsettled.runs (hsettled.same.prepared hprepared)
        (hsettled.same.different hdifferent) hm, hbalance]
      rfl

end Runs

/-! ## 8. Examples -/

/-- An OFFER up to its ANSWER, with such tracks. -/
def answeredOffer (audio video : TrackLocal) : List Input :=
  .message offerReq :: List.replicate 7 (.step 0 .returns)
    ++ [.step 0 (.sdp "probe".toList), .step 0 (.tracks audio video)]
    ++ List.replicate 12 (.step 0 .returns)
    ++ [.step 0 (.sdp "answer".toList), .step 0 .returns, .step 0 .returns]

/-- `trackCb` up to the end of `onTrack`. -/
def registeredTrack (id : Nat) : List Input :=
  [.remote id .callbacksStored, .remote id .trackPublished, .remote id .rtpCallbackSeen]

def twoCodecs : Text → MediaKind → Option Codec
  | _, .audio => some ⟨"audio/PCMA".toList, 8000, 8⟩
  | _, .video => some ⟨"video/VP8".toList, 90000, 96⟩

def audioPacket : RtpPacket := ⟨false, 8, 7, 9, 1234, [1], by decide⟩

def videoPacket : RtpPacket := ⟨false, 96, 0xFFFF, 0xFFFFFFFF, 5678, [2, 3], by decide⟩

/-- The last packet of a frame. -/
def markedPacket : RtpPacket := { videoPacket with marker := true }

/-- A session with its ANSWER and its two remote tracks. -/
def twoTracks : List Input :=
  answeredOffer ⟨1, 11⟩ ⟨2, 22⟩ ++ registeredTrack 1 ++ registeredTrack 2

def twoPackets : List Input := [.packet 1 audioPacket, .consumer, .packet 2 videoPacket]

theorem verbatim_echo_two :
    ∃ n, ∀ m, n ≤ m →
      (writes (sessionAfter twoCodecs 0 (twoTracks ++ twoPackets
        ++ List.replicate m .consumer)).shared.log).length = 2 := by
  obtain ⟨hearly, echoes, hechoes, -, n, hn⟩ :=
    verbatim_echo twoCodecs 0 twoTracks twoPackets (by decide) (by decide) (by decide) (by decide)
  refine ⟨n, ?_⟩
  intro m hm
  have hnone : receivedPackets twoTracks = [] := by decide
  rw [hn m hm, hearly hnone, List.nil_append, ← hechoes.length_eq]
  rfl

/-- A frame ends. -/
def markedRun : List Input := twoTracks ++ .packet 2 markedPacket :: List.replicate 4 .consumer

/-- A packet while `register` is at work: the poller runs, and `onTrack` has not been called. -/
def hurriedRun : List Input :=
  answeredOffer ⟨1, 11⟩ ⟨2, 22⟩ ++ .remote 1 .callbacksStored :: .packet 1 audioPacket
    :: registeredTrack 1 ++ List.replicate 4 .consumer

set_option maxRecDepth 4000 in
/-- **A marker is lost**, and so is a packet that its poller takes before `onTrack` has set the
callback. -/
theorem echo_not_verbatim :
    Heeds BeforeLeave (Reception.input twoCodecs) (.fresh 0) markedRun
      ∧ (writes (sessionAfter twoCodecs 0 markedRun).shared.log).map
          (fun w => (w.track, parseRtp w.packet))
        = [(⟨2, 22⟩, some { markedPacket with marker := false, ssrc := 22 })]
      ∧ markedPacket.marker = true
      ∧ Heeds BeforeLeave (Reception.input twoCodecs) (.fresh 0) hurriedRun
      ∧ receivedPackets hurriedRun = [audioPacket]
      ∧ (sessionAfter twoCodecs 0 hurriedRun).dueWrites = [] := by
  decide

end WebrtcBridge.Server
