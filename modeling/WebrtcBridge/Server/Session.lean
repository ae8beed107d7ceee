/-
# An echo session

One WebSocket has one `EchoSession`.  Every message is handled on a virtual thread of its own, and
closing the socket calls `close()` on yet another, so a session is a set of HANDLERS over shared
fields: the volatile `pc` and `remoteDescriptionSet`, the list `pendingCandidates` under
`candidateLock`, and the forwarder.

A handler is its request and the POINT it has reached.  The points are chosen so that a step touches
at most one thing that another thread can change meanwhile:

* `pc` is a field, and every `pc.f(..)` reads it anew.  Reading it and calling the method are two
  steps (`invoke` and `invokeOn`, `flush` and `flushOn`, `direct` and `directOn`);
* `pc = PeerConnection.create(..)` creates first and assigns afterwards, two steps;
* `close()` reads `pc`, sets it to null and closes what it read, three steps;
* inside `candidateLock` the flag and the list belong to the owner of the lock, so what a block does
  with them can stand in one step.  A handler that finds the lock taken waits where it is.

What the engine answers is not decided here: every step is given an OUTCOME.  An exception ends the
handler, and `onMessage` reports it with an error event.

Everything that can be seen from outside is in the log: replies, calls on connections, packets
written to the echo tracks.
-/
import WebrtcBridge.Lib.Pool
import WebrtcBridge.Lib.Runs
import WebrtcBridge.Server.Forwarder
import WebrtcBridge.Stats.Parser

namespace WebrtcBridge.Server

open Lib

/-! ## 1. Messages, replies, calls -/

inductive SignalAction where
  | join
  | offer
  | candidate
  | mediaState
  | leave
  | other (name : Text)
  deriving DecidableEq, Repr

/-- The entries of a payload that a handler asks for. -/
structure Payload where
  sdp : Option Text := none
  candidate : Option Text := none
  sdpMid : Option Text := none
  sdpMLineIndex : Option Int := none
  deriving DecidableEq, Repr

/-- A `Signal`.  A message without a payload has the empty one; a message whose payload is `null`
has none. -/
structure Signal where
  action : Option SignalAction
  transaction : Option Text := none
  payload : Option Payload := some {}
  deriving DecidableEq, Repr

/-- `EchoSession.Candidate`. -/
structure Candidate where
  candidate : Text
  sdpMid : Option Text
  mline : Int
  deriving DecidableEq, Repr

/-- What a response says. -/
inductive Reply where
  | ack
  | bye
  | answer (sdp : Text)
  | error (code : Nat) (message : Text)
  deriving DecidableEq, Repr

def codeBadRequest : Nat := 4000

def codeInternal : Nat := 5000

/-- `SdpCodecs.Codec`. -/
structure Codec where
  mime : Text
  clock : Nat
  pt : Nat
  deriving DecidableEq, Repr

/-- A connection: `NEXT_ID` numbers the connections of all sessions. -/
abbrev PcId := Nat

/-- The methods of a `PeerConnection` that a session calls, `close` apart. -/
inductive PcCall where
  | setRemoteDescription
  | createAnswer
  | addIceCandidate (c : Candidate)
  | addTrack (kind : MediaKind)
  | setLocalDescription
  deriving DecidableEq, Repr

inductive Event where
  /-- A response, with the transaction of its request. -/
  | response (transaction : Option Text) (reply : Reply)
  /-- The error event of `onMessage` for a handler that threw. -/
  | errorEvent
  /-- `PeerConnection.create` returned. -/
  | created (p : PcId)
  /-- A call on a connection, and whether it returned. -/
  | called (p : PcId) (call : PcCall) (returned : Bool)
  /-- `remoteDescriptionSet` was set. -/
  | flagged
  | closed (p : PcId)
  /-- A packet was written to an echo track. -/
  | wrote (w : Write)
  deriving DecidableEq, Repr

/-! ## 2. Handlers -/

/-- The calls of `handleOffer`, in their order; the first `createAnswer` is the probe. -/
inductive OfferCall where
  | setRemoteDescription
  | probe
  | addTrack (kind : MediaKind)
  | createAnswer
  | setLocalDescription (sdp : Text)
  deriving DecidableEq, Repr

def OfferCall.call : OfferCall → PcCall
  | .setRemoteDescription => .setRemoteDescription
  | .probe => .createAnswer
  | .addTrack kind => .addTrack kind
  | .createAnswer => .createAnswer
  | .setLocalDescription _ => .setLocalDescription

/-- Where a handler is: what it does next. -/
inductive Point where
  /-- `handle`, up to the first thing that depends on the session. -/
  | start
  /-- `PeerConnection.create`. -/
  | create
  /-- `pc = p`. -/
  | assign (p : PcId)
  /-- `SessionDescription.create`. -/
  | description
  /-- Reads `pc` for a call. -/
  | invoke (call : OfferCall)
  /-- Makes the call on the connection it has read. -/
  | invokeOn (p : PcId) (call : OfferCall)
  /-- The codecs of the probe, and `createRtpTrack` for them. -/
  | tracks (probe : Text)
  /-- Has these setters of the forwarder to call. -/
  | setters (todo : List Setter)
  /-- Waits for `candidateLock` to flush. -/
  | lockFlush
  /-- Holds the lock; reads `pc` for the next pending candidate, or clears the list. -/
  | flush (todo : List Candidate)
  | flushOn (p : PcId) (c : Candidate) (todo : List Candidate)
  /-- Waits for `candidateLock` with a candidate. -/
  | lockCheck (c : Candidate)
  /-- Holds the lock; reads `pc` and the flag. -/
  | check (c : Candidate)
  /-- Out of the lock; reads `pc` again for the candidate. -/
  | direct (c : Candidate)
  | directOn (p : PcId) (c : Candidate)
  /-- `forwarder.stop()`. -/
  | stop
  /-- `p = pc`. -/
  | readPc
  /-- `pc = null`. -/
  | nullPc (p : Option PcId)
  /-- `p.close()`. -/
  | closePc (p : PcId)
  deriving DecidableEq, Repr

/-- A handler; the one of `onClose` has no request. -/
structure Handler where
  req : Option Signal
  point : Point
  deriving DecidableEq, Repr

/-- What the engine answers in a step. -/
inductive Outcome where
  | throws
  | returns
  | sdp (text : Text)
  | tracks (audio video : TrackLocal)
  deriving DecidableEq, Repr

/-- The fields of the session, and what its connections have been through. -/
structure Shared where
  pc : Option PcId := none
  remoteDescriptionSet : Bool := false
  locked : Bool := false
  pendingCandidates : List Candidate := []
  forwarder : Forwarder := {}
  nextPc : PcId
  closed : List PcId := []
  log : List Event := []

def Shared.emit (s : Shared) (e : Event) : Shared := { s with log := s.log ++ [e] }

namespace Handler

/-- The handler of an OFFER. -/
def isOffer (h : Handler) : Bool := h.req.bind (·.action) = some .offer

def goTo (h : Handler) (point : Point) : Option Handler := some { h with point := point }

/-- `reply`, `replyWithSdp` and `replyError`. -/
def reply (h : Handler) (s : Shared) (r : Reply) : Shared :=
  s.emit (.response (h.req.bind (·.transaction)) r)

/-- The handler throws. -/
def fail (s : Shared) : Shared × Option Handler := (s.emit .errorEvent, none)

/-- `handle`, and the first lines of `handleOffer` and `handleCandidate`. -/
def dispatch (h : Handler) (s : Shared) (req : Signal) : Shared × Option Handler :=
  match req.action with
  | none => (h.reply s (.error codeBadRequest "missing action".toList), none)
  | some .join => (h.reply s .ack, none)
  -- `req.str` throws if the payload is null
  | some .offer =>
    match req.payload with
    | none => fail s
    | some payload =>
      match payload.sdp with
      | none => (h.reply s (.error codeBadRequest "missing sdp in offer".toList), none)
      | some sdp =>
        if sdp.all Stats.isJavaWhitespace then
          (h.reply s (.error codeBadRequest "missing sdp in offer".toList), none)
        else (s, h.goTo .create)
  | some .candidate =>
    match req.payload with
    | none => fail s
    | some payload =>
      match payload.candidate with
      | none => (h.reply s .ack, none)
      | some c => (s, h.goTo (.lockCheck ⟨c, payload.sdpMid, payload.sdpMLineIndex.getD (-1)⟩))
  | some .mediaState => (h.reply s .ack, none)
  | some .leave => (s, h.goTo .stop)
  | some (.other name) =>
    (h.reply s (.error codeBadRequest ("unknown action: ".toList ++ name)), none)

/-- The end of `close()`: a LEAVE is answered, `onClose` is not. -/
def closed (h : Handler) (s : Shared) : Shared × Option Handler :=
  match h.req with
  | none => (s, none)
  | some _ => (h.reply s .bye, none)

/-- A call on connection `p`: it throws if `p` is closed, or if the engine refuses. -/
def returned (s : Shared) (p : PcId) (o : Outcome) : Bool := !s.closed.contains p && o ≠ .throws

/-- What `handleOffer` does after a call has returned. -/
def afterCall (h : Handler) (s : Shared) (o : Outcome) : OfferCall → Shared × Option Handler
  | .setRemoteDescription => (s, h.goTo (.invoke .probe))
  | .probe =>
    match o with
    | .sdp text => (s, h.goTo (.tracks text))
    | _ => fail s
  | .addTrack .audio => (s, h.goTo (.invoke (.addTrack .video)))
  | .addTrack .video => (s, h.goTo (.invoke .createAnswer))
  | .createAnswer =>
    match o with
    | .sdp text => (s, h.goTo (.invoke (.setLocalDescription text)))
    | _ => fail s
  | .setLocalDescription sdp => (h.reply s (.answer sdp), none)

variable (firstMediaCodec : Text → MediaKind → Option Codec)

/-- The tracks for the codecs that the probe lists first; a number of the probe that is no `int`
throws. -/
def makeTracks (h : Handler) (s : Shared) (o : Outcome) (probe : Text) : Shared × Option Handler :=
  if o = .throws then fail s
  else
    match firstMediaCodec probe .audio, firstMediaCodec probe .video with
    | some audio, some video =>
      match o with
      | .tracks audioTrack videoTrack =>
        (s, h.goTo (.setters [.audioTrack audioTrack, .videoTrack videoTrack,
          .audioPayloadType audio.pt, .videoPayloadType video.pt]))
      | _ => (h.reply s (.error codeInternal "failed to create echo tracks".toList), none)
    | _, _ =>
      (h.reply s (.error codeInternal "could not determine negotiated codec from answer".toList),
        none)

/-- **A step of a handler**: the shared fields after it, and what is left of the handler. -/
def step (s : Shared) (h : Handler) (o : Outcome) : Shared × Option Handler :=
  match h.point with
  | .start =>
    match h.req with
    | some req => h.dispatch s req
    | none => (s, none)
  -- handleOffer
  | .create =>
    if o = .throws then fail s
    else ({ s with nextPc := s.nextPc + 1 }.emit (.created s.nextPc), h.goTo (.assign s.nextPc))
  | .assign p => ({ s with pc := some p }, h.goTo .description)
  | .description => if o = .throws then fail s else (s, h.goTo (.invoke .setRemoteDescription))
  | .invoke call =>
    match s.pc with
    | none => fail s
    | some p => (s, h.goTo (.invokeOn p call))
  | .invokeOn p call =>
    if returned s p o then h.afterCall (s.emit (.called p call.call true)) o call
    else fail (s.emit (.called p call.call false))
  | .tracks probe => h.makeTracks firstMediaCodec s o probe
  | .setters [] => (s, h.goTo .lockFlush)
  | .setters (m :: todo) => ({ s with forwarder := s.forwarder.set m }, h.goTo (.setters todo))
  | .lockFlush =>
    if s.locked then (s, some h)
    else
      ({ s with locked := true, remoteDescriptionSet := true }.emit .flagged,
        h.goTo (.flush s.pendingCandidates))
  | .flush [] =>
    ({ s with pendingCandidates := [], locked := false }, h.goTo (.invoke (.addTrack .audio)))
  | .flush (c :: todo) =>
    match s.pc with
    | none => fail { s with locked := false }
    | some p => (s, h.goTo (.flushOn p c todo))
  | .flushOn p c todo =>
    if returned s p o then
      (s.emit (.called p (.addIceCandidate c) true), h.goTo (.flush todo))
    else fail ({ s with locked := false }.emit (.called p (.addIceCandidate c) false))
  -- handleCandidate
  | .lockCheck c => if s.locked then (s, some h) else ({ s with locked := true }, h.goTo (.check c))
  | .check c =>
    if s.pc = none ∨ s.remoteDescriptionSet = false then
      (h.reply { s with pendingCandidates := s.pendingCandidates ++ [c], locked := false } .ack,
        none)
    else ({ s with locked := false }, h.goTo (.direct c))
  | .direct c =>
    match s.pc with
    | none => fail s
    | some p => (s, h.goTo (.directOn p c))
  | .directOn p c =>
    if returned s p o then (h.reply (s.emit (.called p (.addIceCandidate c) true)) .ack, none)
    else fail (s.emit (.called p (.addIceCandidate c) false))
  -- close
  | .stop => ({ s with forwarder := s.forwarder.stop }, h.goTo .readPc)
  | .readPc => (s, h.goTo (.nullPc s.pc))
  | .nullPc none => h.closed { s with pc := none }
  | .nullPc (some p) => ({ s with pc := none }, h.goTo (.closePc p))
  | .closePc p => h.closed ({ s with closed := p :: s.closed }.emit (.closed p))

end Handler

/-! ## 3. The session -/

structure Session where
  shared : Shared
  handlers : List Handler := []
  socketOpen : Bool := true

/-- A fresh session, when `next` is the number of the next connection. -/
def Session.fresh (next : PcId) : Session where
  shared := { nextPc := next }

inductive Act where
  /-- A message arrives and is given a thread. -/
  | message (req : Signal)
  /-- The WebSocket is closed, and `onClose` runs. -/
  | socketClosed
  /-- Handler `i` takes a step. -/
  | step (i : Nat) (o : Outcome)
  /-- The forwarder's consumer takes a turn. -/
  | consumer
  /-- A remote track delivers an RTP packet. -/
  | rtp (payload : List UInt8) (pt : Nat) (sequenceNumber : UInt16) (timestamp : UInt32)
  deriving DecidableEq, Repr

def Shared.consume (s : Shared) : Shared :=
  let (f, w) := s.forwarder.turn
  { s with forwarder := f, log := s.log ++ (w.map Event.wrote).toList }

def Shared.receive (s : Shared) (payload : List UInt8) (pt : Nat) (sequenceNumber : UInt16)
    (timestamp : UInt32) : Shared :=
  { s with forwarder := s.forwarder.rtpCallback payload pt sequenceNumber timestamp }

/-- **A step of the session.**  A message on a closed socket finds no session any more. -/
def Session.step (firstMediaCodec : Text → MediaKind → Option Codec) (s : Session) : Act → Session
  | .message req =>
    if s.socketOpen then { s with handlers := s.handlers ++ [⟨some req, .start⟩] } else s
  | .socketClosed =>
    if s.socketOpen then
      { s with socketOpen := false, handlers := s.handlers ++ [⟨none, .stop⟩] }
    else s
  | .step i o =>
    let (shared, handlers) := turn (Handler.step firstMediaCodec) s.shared s.handlers i o
    { s with shared := shared, handlers := handlers }
  | .consumer => { s with shared := s.shared.consume }
  | .rtp payload pt sequenceNumber timestamp =>
    { s with shared := s.shared.receive payload pt sequenceNumber timestamp }

/-! ## 4. Whole handlers

Messages that are handled from their arrival to their end with nothing in between, in a session
with no other handler. -/

def offerReq : Signal := { action := some .offer, payload := some { sdp := some "v=0".toList } }

def leaveReq : Signal := { action := some .leave }

/-- An OFFER with `pending` candidates to flush, up to its ANSWER. -/
def wholeOffer (pending : Nat) : List Act :=
  .message offerReq :: List.replicate 7 (.step 0 .returns)
    ++ [.step 0 (.sdp "probe".toList), .step 0 (.tracks ⟨1, 11⟩ ⟨2, 22⟩)]
    ++ List.replicate (12 + 2 * pending) (.step 0 .returns)
    ++ [.step 0 (.sdp "answer".toList), .step 0 .returns, .step 0 .returns]

def wholeLeave : List Act := .message leaveReq :: List.replicate 5 (.step 0 .returns)

/-- A CANDIDATE of so many steps: three if it is buffered, five if it goes to the connection. -/
def wholeCandidate (candidate : Text) (steps : Nat) : List Act :=
  .message { action := some .candidate, payload := some { candidate := some candidate } }
    :: List.replicate steps (.step 0 .returns)

/-- One codec for everything. -/
def anyCodec : Text → MediaKind → Option Codec := fun _ _ => some ⟨"audio/PCMA".toList, 8000, 8⟩

end WebrtcBridge.Server
