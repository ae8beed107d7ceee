/-
# The receiving side of a DTLS connection

`DTLSConn::read` takes a datagram apart and handles one record after the other.  What decides about
a record comes in this order: the epoch in its header, the replay detector of that epoch, the cipher
suite (except in epoch 0), the fragment buffer, and only then its content.  The detector is told at
the very end that the record was accepted.

The handshake itself is not modelled.  Its flights read the cache and change the STATE (cipher
suite, epochs, whether the handshake is completed), and `Action.handshake` lets them change it in
any way.

* §1  the state, and the guard: the detectors with what they have accepted;
* §2  one record;
* §3  datagrams, the queue of early records, and all that can happen to a connection;
* §4  what one record does to the guard, and from it what any run does;
* §5  application data: delivered at most once for each record number, and a fresh record is
  delivered.
-/
import WebrtcBridge.Srtp.ReplayDetector
import WebrtcBridge.Dtls.FragmentBuffer

namespace WebrtcBridge.Dtls

open Lib
open Srtp (SlidingWindowDetector)
open Srtp.FixedBigInt (ExactMask)

/-! ## 1. The state -/

/-- What a connection asks its cipher suite. -/
structure CipherSuite where
  isPsk : Bool
  isInitialized : Bool
  decrypt : List UInt8 → Option (List UInt8)

/-- What the handshake decides and the record layer reads. -/
structure State where
  localEpoch : UInt16
  remoteEpoch : UInt16
  cipherSuite : Option CipherSuite
  handshakeCompleted : Bool
  handshakeRx : Bool

/-- The cipher suite, if it is there and initialized. -/
def State.readySuite (s : State) : Option CipherSuite :=
  s.cipherSuite.filter CipherSuite.isInitialized

/-- A record whose content went to the application. -/
structure Delivered where
  epoch : UInt16
  sequenceNumber : Nat
  data : List UInt8
  deriving DecidableEq, Repr

/-- The detectors, one for each epoch.  The vector of the source grows by fresh detectors up to the
epoch that is asked for, so it is a function of the epoch here.  The two lists are not in the
source: the records accepted, and those among them whose data was delivered. -/
structure Guard (n : Nat) where
  replayDetector : UInt16 → SlidingWindowDetector n
  accepted : List (UInt16 × Nat)
  delivered : List Delivered

namespace Guard

variable {n : Nat}

def new (n : Nat) : Guard n := ⟨fun _ => .new n MAX_SEQUENCE_NUMBER, [], []⟩

def check (g : Guard n) (h : RecordLayerHeader) : Bool × Guard n :=
  let (ok, d) := (g.replayDetector h.epoch).check h.sequenceNumber
  (ok, { g with replayDetector := Function.update g.replayDetector h.epoch d })

def accept (g : Guard n) (h : RecordLayerHeader) : Guard n :=
  { g with
    replayDetector :=
      Function.update g.replayDetector h.epoch (g.replayDetector h.epoch).accept
    accepted := g.accepted ++ [(h.epoch, h.sequenceNumber)] }

def deliver (g : Guard n) (h : RecordLayerHeader) (data : List UInt8) : Guard n :=
  { g with delivered := g.delivered ++ [⟨h.epoch, h.sequenceNumber, data⟩] }

end Guard

/-- A packet in a queue for sending. -/
structure Packet where
  epoch : UInt16
  content : Content
  shouldEncrypt : Bool
  deriving DecidableEq, Repr

/-- A connection, as far as its receiving side goes.  `cache` holds the handshake messages with
their epochs. -/
structure Conn (n : Nat) where
  guard : Guard n
  incomingDecryptedPackets : List (List UInt8)
  incomingEncryptedPackets : List (List UInt8)
  fragmentBuffer : FragmentBuffer
  cache : List (List UInt8 × UInt16)
  outgoingPackets : List Packet
  state : State

def Conn.new (n : Nat) : Conn n :=
  ⟨.new n, [], [], .new, [], [], ⟨0, 0, none, false, false⟩⟩

/-- What `handle_incoming_packet` returns: whether it was a handshake record, an alert to send, an
error. -/
structure Outcome where
  isHandshake : Bool
  alert : Option Alert
  err : Option Error
  deriving DecidableEq, Repr

/-- The record is dropped, or there is nothing to say about it. -/
def Outcome.nothing : Outcome := ⟨false, none, none⟩

/-- Does the outcome end the call?  A fatal alert and a close do, and so does an error. -/
def Outcome.result (o : Outcome) : Except Error Unit :=
  if o.alert.any fun a => a.alertLevel = .fatal ∨ a.alertDescription = .closeNotify then
    .error .alertFatalOrClose
  else
    match o.err with
    | none => .ok ()
    | some e => .error e

/-! ## 2. One record -/

/-- The loop over `pop`.  Every message given out takes a fragment, so the fragments are the fuel;
`parses` says whether `Handshake::unmarshal` succeeds. -/
def popMessages (parses : List UInt8 → Bool) :
    Nat → FragmentBuffer → List (List UInt8 × UInt16) → FragmentBuffer × List (List UInt8 × UInt16)
  | 0, b, cache => (b, cache)
  | fuel + 1, b, cache =>
    match b.pop with
    | (.error _, b) => (b, cache)
    | (.ok (out, epoch), b) =>
      popMessages parses fuel b (if parses out then cache ++ [(out, epoch)] else cache)

namespace Conn

variable {n : Nat} (parses : List UInt8 → Bool)

/-- An early record waits. -/
def queue (c : Conn n) (pkt : List UInt8) (enqueue : Bool) : Conn n :=
  if enqueue then { c with incomingEncryptedPackets := c.incomingEncryptedPackets ++ [pkt] } else c

/-- The last part of `handle_incoming_packet`: a record that is not part of the handshake. -/
def handleContent (c : Conn n) (h : RecordLayerHeader) (pkt : List UInt8) (enqueue : Bool) :
    Content → Outcome × Conn n
  | .alert a =>
    let a := if a.alertDescription = .closeNotify then ⟨.warning, .closeNotify⟩ else a
    (⟨false, some a, some (.alert a)⟩, { c with guard := c.guard.accept h })
  | .changeCipherSpec =>
    match c.state.readySuite with
    | none => (.nothing, c.queue pkt enqueue)
    | some _ =>
      if c.state.remoteEpoch + 1 = h.epoch + 1 then
        (.nothing, { c with
          guard := c.guard.accept h
          state := { c.state with remoteEpoch := h.epoch + 1 } })
      else (.nothing, c)
  | .applicationData data =>
    if h.epoch = 0 then
      (⟨false, some ⟨.fatal, .unexpectedMessage⟩, some .applicationDataEpochZero⟩, c)
    else
      (.nothing, { c with
        guard := (c.guard.accept h).deliver h data
        incomingDecryptedPackets := c.incomingDecryptedPackets ++ [data] })
  | .handshake _ => (⟨false, some ⟨.fatal, .unexpectedMessage⟩, some .unhandledContextType⟩, c)

/-- The part behind decryption: handshake records go into the fragment buffer. -/
def handleDecrypted (c : Conn n) (h : RecordLayerHeader) (pkt : List UInt8) (enqueue : Bool) :
    Outcome × Conn n :=
  match c.fragmentBuffer.push pkt with
  | (.error _, b) => (.nothing, { c with fragmentBuffer := b })
  | (.ok true, b) =>
    let (b, cache) := popMessages parses b.cache.length b c.cache
    (⟨true, none, none⟩, { c with guard := c.guard.accept h, fragmentBuffer := b, cache := cache })
  | (.ok false, b) =>
    match RecordLayer.unmarshal parses pkt with
    | .error e => (⟨false, some ⟨.fatal, .decodeError⟩, some e⟩, { c with fragmentBuffer := b })
    | .ok r => { c with fragmentBuffer := b }.handleContent h pkt enqueue r.content

/-- `handle_incoming_packet`. -/
def handleIncomingPacket (c : Conn n) (pkt : List UInt8) (enqueue : Bool) : Outcome × Conn n :=
  match RecordLayerHeader.unmarshal pkt with
  | .error _ => (.nothing, c)
  | .ok (h, _) =>
    if c.state.remoteEpoch < h.epoch then
      if c.state.remoteEpoch + 1 < h.epoch then (.nothing, c) else (.nothing, c.queue pkt enqueue)
    else
      let (ok, guard) := c.guard.check h
      let c := { c with guard := guard }
      if !ok then (.nothing, c)
      else if h.epoch = 0 then c.handleDecrypted parses h pkt enqueue
      else
        match c.state.readySuite with
        | none => (.nothing, c.queue pkt enqueue)
        | some suite =>
          match suite.decrypt pkt with
          | none =>
            (if suite.isPsk then ⟨false, some ⟨.fatal, .unknownPskIdentity⟩, none⟩ else .nothing, c)
          | some pkt => c.handleDecrypted parses h pkt enqueue

/-! ## 3. Datagrams -/

/-- What an outcome leaves in the state: an alert to send, and that a handshake record has come.
There is never both. -/
def note (c : Conn n) (o : Outcome) : Conn n :=
  { c with
    outgoingPackets := c.outgoingPackets
      ++ (o.alert.toList.map fun a => ⟨c.state.localEpoch, .alert a, c.state.handshakeCompleted⟩)
    state := { c.state with handshakeRx := c.state.handshakeRx || o.isHandshake } }

/-- The loop of `read` over the records of a datagram. -/
def readLoop (enqueue : Bool) : List (List UInt8) → Conn n → Except Error Unit × Conn n
  | [], c => (.ok (), c)
  | pkt :: pkts, c =>
    let (o, c) := c.handleIncomingPacket parses pkt enqueue
    match o.result with
    | .error e => (.error e, c.note o)
    | .ok _ => readLoop enqueue pkts (c.note o)

/-- `read`. -/
def read (c : Conn n) (buf : List UInt8) : Except Error Unit × Conn n :=
  match unpackDatagram buf with
  | .error e => (.error e, c)
  | .ok pkts => readLoop parses (!c.state.handshakeCompleted) pkts c

/-- The loop of `handle_incoming_queued_packets`; nothing is queued again, and what is behind an
error stays in the queue. -/
def queuedLoop : List (List UInt8) → Conn n → Except Error Unit × Conn n
  | [], c => (.ok (), c)
  | pkt :: pkts, c =>
    let (o, c) := { c with incomingEncryptedPackets := pkts }.handleIncomingPacket parses pkt false
    match o.result with
    | .error e => (.error e, c.note o)
    | .ok _ => queuedLoop pkts (c.note o)

/-- `handle_incoming_queued_packets`, without the flag it returns. -/
def handleIncomingQueuedPackets (c : Conn n) : Except Error Unit × Conn n :=
  match c.state.readySuite with
  | none => (.ok (), c)
  | some _ => queuedLoop parses c.incomingEncryptedPackets c

/-- `incoming_application_data`: the data that is given to the application, and what is left. -/
def incomingApplicationData (c : Conn n) : Option (List UInt8) × Conn n :=
  if !c.state.handshakeCompleted then (none, c)
  else (c.incomingDecryptedPackets.head?,
    { c with incomingDecryptedPackets := c.incomingDecryptedPackets.tail })

/-- All that can happen to the receiving side. -/
inductive Action where
  | read (buf : List UInt8)
  | queued
  | poll
  | handshake (f : State → State)

def step (c : Conn n) : Action → Conn n
  | .read buf => (c.read parses buf).2
  | .queued => (c.handleIncomingQueuedPackets parses).2
  | .poll => c.incomingApplicationData.2
  | .handshake f => { c with state := f c.state }

end Conn

/-! ## 4. The guard -/

/-- **All that a record can do to the guard**: nothing, a check, or a check that succeeds and an
acceptance, with or without data. -/
inductive Guard.Sees {n : Nat} (g : Guard n) : Guard n → Prop
  | unseen : g.Sees g
  | checked (h : RecordLayerHeader) : g.Sees (g.check h).2
  | taken (h : RecordLayerHeader) : (g.check h).1 = true → g.Sees ((g.check h).2.accept h)
  | delivers (h : RecordLayerHeader) (data : List UInt8) : (g.check h).1 = true →
      g.Sees (((g.check h).2.accept h).deliver h data)

namespace Conn

variable {n : Nat} {parses : List UInt8 → Bool}

@[simp] theorem queue_guard (c : Conn n) (pkt : List UInt8) (enqueue : Bool) :
    (c.queue pkt enqueue).guard = c.guard := by
  unfold queue
  split <;> rfl

theorem handleContent_guard (c : Conn n) (h : RecordLayerHeader) (pkt : List UInt8) (enqueue : Bool)
    (content : Content) :
    (c.handleContent h pkt enqueue content).2.guard = c.guard
      ∨ (c.handleContent h pkt enqueue content).2.guard = c.guard.accept h
      ∨ ∃ data, (c.handleContent h pkt enqueue content).2.guard
          = (c.guard.accept h).deliver h data := by
  cases content with
  | alert a => exact Or.inr (Or.inl rfl)
  | changeCipherSpec =>
    unfold handleContent
    simp only
    split
    · exact Or.inl (queue_guard ..)
    · split
      · exact Or.inr (Or.inl rfl)
      · exact Or.inl rfl
  | applicationData data =>
    unfold handleContent
    simp only
    split
    · exact Or.inl rfl
    · exact Or.inr (Or.inr ⟨data, rfl⟩)
  | handshake raw => exact Or.inl rfl

theorem handleDecrypted_guard (parses : List UInt8 → Bool) (c : Conn n) (h : RecordLayerHeader)
    (pkt : List UInt8) (enqueue : Bool) :
    (c.handleDecrypted parses h pkt enqueue).2.guard = c.guard
      ∨ (c.handleDecrypted parses h pkt enqueue).2.guard = c.guard.accept h
      ∨ ∃ data, (c.handleDecrypted parses h pkt enqueue).2.guard
        = (c.guard.accept h).deliver h data := by
  unfold handleDecrypted
  split
  · exact Or.inl rfl
  · exact Or.inr (Or.inl rfl)
  · split
    · exact Or.inl rfl
    · exact handleContent_guard ..

theorem handleIncomingPacket_sees (c : Conn n) (pkt : List UInt8) (enqueue : Bool) :
    c.guard.Sees (c.handleIncomingPacket parses pkt enqueue).2.guard := by
  unfold handleIncomingPacket
  split
  · exact .unseen
  · next h _ _ =>
    split
    · split
      · exact .unseen
      · rw [queue_guard]
        exact .unseen
    · cases hok : (c.guard.check h).1 with
      | false =>
        simp only [hok, Bool.not_false, if_true]
        exact .checked h
      | true =>
        have hdecrypted : ∀ pkt', c.guard.Sees (handleDecrypted parses
            { c with guard := (c.guard.check h).2 } h pkt' enqueue).2.guard := by
          intro pkt'
          rcases handleDecrypted_guard parses { c with guard := (c.guard.check h).2 } h pkt'
            enqueue with heq | heq | ⟨data, heq⟩
          · rw [heq]
            exact .checked h
          · rw [heq]
            exact .taken h hok
          · rw [heq]
            exact .delivers h data hok
        simp only [hok, Bool.not_true, Bool.false_eq_true, if_false]
        split
        · exact hdecrypted pkt
        · split
          · rw [queue_guard]
            exact .checked h
          · split
            · exact .checked h
            · exact hdecrypted _

/-- **The rule for runs.**  What one record keeps, of the guard and the fragment buffer, every
action keeps. -/
theorem step_inv {I : Guard n → FragmentBuffer → Prop}
    (hrecord : ∀ (c : Conn n) pkt enqueue, I c.guard c.fragmentBuffer →
      I (c.handleIncomingPacket parses pkt enqueue).2.guard
        (c.handleIncomingPacket parses pkt enqueue).2.fragmentBuffer)
    (c : Conn n) (a : Action) (h : I c.guard c.fragmentBuffer) :
    I (c.step parses a).guard (c.step parses a).fragmentBuffer := by
  have hread : ∀ enqueue pkts (c : Conn n), I c.guard c.fragmentBuffer →
      I (readLoop parses enqueue pkts c).2.guard
        (readLoop parses enqueue pkts c).2.fragmentBuffer := by
    intro enqueue pkts
    induction pkts with
    | nil => exact fun _ h => h
    | cons pkt pkts ih =>
      intro c h
      have hnext := hrecord c pkt enqueue h
      unfold readLoop
      simp only
      split
      · exact hnext
      · exact ih _ hnext
  have hqueued : ∀ pkts (c : Conn n), I c.guard c.fragmentBuffer →
      I (queuedLoop parses pkts c).2.guard (queuedLoop parses pkts c).2.fragmentBuffer := by
    intro pkts
    induction pkts with
    | nil => exact fun _ h => h
    | cons pkt pkts ih =>
      intro c h
      have hnext := hrecord { c with incomingEncryptedPackets := pkts } pkt false h
      unfold queuedLoop
      simp only
      split
      · exact hnext
      · exact ih _ hnext
  cases a with
  | read buf =>
    unfold step read
    simp only
    split
    · exact h
    · exact hread _ _ _ h
  | queued =>
    unfold step handleIncomingQueuedPackets
    simp only
    split
    · exact h
    · exact hqueued _ _ h
  | poll =>
    unfold step incomingApplicationData
    simp only
    split <;> exact h
  | handshake f => exact h

end Conn

/-- The record numbers accepted in an epoch. -/
def Guard.numbers {n : Nat} (g : Guard n) (epoch : UInt16) : List Nat :=
  (g.accepted.filter fun a => a.1 = epoch).map Prod.snd

/-- **What holds between records.** -/
structure Guard.Inv {n : Nat} (g : Guard n) : Prop where
  tracks : ∀ epoch, (g.replayDetector epoch).Tracks MAX_SEQUENCE_NUMBER (g.numbers epoch)
  sub : (g.delivered.map fun d => (d.epoch, d.sequenceNumber)).Sublist g.accepted

section Inv

variable {n : Nat} {g g' : Guard n}

theorem Guard.inv_new (n : Nat) : (Guard.new n).Inv where
  tracks := fun _ => SlidingWindowDetector.new_tracks n MAX_SEQUENCE_NUMBER
  sub := List.Sublist.refl _

theorem Guard.Inv.check (h : g.Inv) (hdr : RecordLayerHeader) : (g.check hdr).2.Inv where
  tracks := by
    intro epoch
    by_cases he : epoch = hdr.epoch
    · subst he
      simp only [Guard.check, Function.update_self]
      exact (h.tracks hdr.epoch).check hdr.sequenceNumber
    · simp only [Guard.check, Function.update_of_ne he]
      exact h.tracks epoch
  sub := h.sub

/-- **Checked and accepted.** -/
theorem Guard.Inv.accept (h : g.Inv) (hexact : ExactMask n) (hn : n ≤ MAX_SEQUENCE_NUMBER)
    {hdr : RecordLayerHeader} (hnew : (g.check hdr).1 = true) :
    ((g.check hdr).2.accept hdr).Inv where
  tracks := by
    intro epoch
    have hmax : n + MAX_SEQUENCE_NUMBER < 2 ^ 64 := by
      unfold MAX_SEQUENCE_NUMBER at hn ⊢
      omega
    by_cases he : epoch = hdr.epoch
    · subst he
      have hisNew : (g.replayDetector hdr.epoch).isNew hdr.sequenceNumber = true := by
        simp only [Guard.check, SlidingWindowDetector.check] at hnew
        by_contra hnot
        rw [if_neg hnot] at hnew
        cases hnew
      have hstep := (h.tracks hdr.epoch).accept hexact hn hmax hisNew
      have hnumbers : ((g.check hdr).2.accept hdr).numbers hdr.epoch
          = g.numbers hdr.epoch ++ [hdr.sequenceNumber] := by
        simp [Guard.numbers, Guard.accept, Guard.check]
      rw [hnumbers]
      simpa [Guard.accept, Guard.check] using hstep
    · have hnumbers : ((g.check hdr).2.accept hdr).numbers epoch = g.numbers epoch := by
        simp [Guard.numbers, Guard.accept, Guard.check, Ne.symm he]
      rw [hnumbers]
      simpa [Guard.accept, Guard.check, he] using h.tracks epoch
  sub := h.sub.trans (List.sublist_append_left _ _)

theorem Guard.Inv.sees (h : g.Inv) (hexact : ExactMask n) (hn : n ≤ MAX_SEQUENCE_NUMBER)
    (hsees : g.Sees g') : g'.Inv := by
  cases hsees with
  | unseen => exact h
  | checked hdr => exact h.check hdr
  | taken hdr hnew => exact h.accept hexact hn hnew
  | delivers hdr data hnew =>
    refine ⟨(h.accept hexact hn hnew).tracks, ?_⟩
    -- the record delivered is the last one accepted
    show ((g.delivered ++ [(⟨hdr.epoch, hdr.sequenceNumber, data⟩ : Delivered)]).map _).Sublist
      (g.accepted ++ [(hdr.epoch, hdr.sequenceNumber)])
    rw [List.map_append]
    exact h.sub.append (List.Sublist.refl _)

theorem Guard.Inv.nodup (h : g.Inv) : g.accepted.Nodup :=
  nodup_of_fibres Prod.fst Prod.snd fun epoch => (h.tracks epoch).nodup

end Inv

/-! ## 5. Application data -/

/-- A datagram with one record of application data for a connection that can decrypt it. -/
structure DataRecord {n : Nat} (c : Conn n) (r : List UInt8) (h : RecordLayerHeader)
    (data : List UInt8) :
    Prop where
  framed : Framed r
  header : ∃ rest, RecordLayerHeader.unmarshal r = .ok (h, rest)
  number : h.sequenceNumber ≤ MAX_SEQUENCE_NUMBER
  epoch : h.epoch ≠ 0
  notFuture : h.epoch ≤ c.state.remoteEpoch
  opens : ∃ suite plain h', c.state.readySuite = some suite ∧ suite.decrypt r = some plain
    ∧ RecordLayerHeader.unmarshal plain = .ok (h', data) ∧ h'.contentType = .applicationData
    ∧ c.fragmentBuffer.size + plain.length < FRAGMENT_BUFFER_MAX_SIZE

section Data

variable {n : Nat} {parses : List UInt8 → Bool} {c : Conn n} {r : List UInt8}
    {h : RecordLayerHeader}
  {data : List UInt8}

@[simp] theorem Conn.note_nothing (c : Conn n) : c.note .nothing = c := by
  simp [Conn.note, Outcome.nothing]

/-- The connection after a record of application data that has been checked. -/
def Conn.afterData (c : Conn n) (h : RecordLayerHeader) (data : List UInt8) : Conn n :=
  if (c.guard.check h).1 then
    { c with
      guard := ((c.guard.check h).2.accept h).deliver h data
      incomingDecryptedPackets := c.incomingDecryptedPackets ++ [data] }
  else { c with guard := (c.guard.check h).2 }

/-- **A record of application data** is decided by the detector alone. -/
theorem DataRecord.handle (hr : DataRecord c r h data) (enqueue : Bool) :
    c.handleIncomingPacket parses r enqueue = (.nothing, c.afterData h data) := by
  obtain ⟨rest, hheader⟩ := hr.header
  obtain ⟨suite, plain, h', hready, hdecrypt, hread, htype, hroom⟩ := hr.opens
  have hpush : c.fragmentBuffer.push plain = (.ok false, c.fragmentBuffer) := by
    rw [FragmentBuffer.push, if_neg (Nat.not_le.mpr hroom), hread]
    simp [htype]
  have hcontent : RecordLayer.unmarshal parses plain = .ok ⟨h', .applicationData data⟩ := by
    simp only [RecordLayer.unmarshal, hread, bind, Except.bind, htype]
    rfl
  unfold Conn.handleIncomingPacket Conn.afterData
  simp only [hheader, UInt16.not_lt.mpr hr.notFuture, if_false]
  cases hok : (c.guard.check h).1 with
  | false => rfl
  | true =>
    simp only [Bool.not_true, Bool.false_eq_true, if_false, hr.epoch, hready, hdecrypt,
      Conn.handleDecrypted, hpush, hcontent, Conn.handleContent, if_true]

theorem DataRecord.read (parses : List UInt8 → Bool) (hr : DataRecord c r h data) :
    c.read parses r = (.ok (), c.afterData h data) := by
  have hunpack : unpackDatagram r = .ok [r] := by
    have := unpackDatagram_framed (by simpa using hr.framed : ∀ r' ∈ [r], Framed r')
    rwa [List.flatten_singleton] at this
  unfold Conn.read
  simp only [hunpack, Conn.readLoop, hr.handle, Conn.note_nothing]
  rfl

end Data

section Once

variable {n : Nat} (parses : List UInt8 → Bool)

theorem guard_inv (hexact : ExactMask n) (hn : n ≤ MAX_SEQUENCE_NUMBER)
    (actions : List Conn.Action) :
    (run (Conn.step parses) (Conn.new n) actions).guard.Inv :=
  run_inv (I := fun c : Conn n => c.guard.Inv)
    (Conn.step_inv (I := fun g _ => g.Inv) fun c pkt enqueue h =>
      h.sees hexact hn (c.handleIncomingPacket_sees pkt enqueue)) actions _ (Guard.inv_new n)

/-- A cipher suite without encryption, and a connection that uses it after the handshake. -/
def plainSuite : CipherSuite := ⟨false, true, some⟩

def established : State := ⟨1, 1, some plainSuite, true, false⟩

def establishedConn (n : Nat) : Conn n := { Conn.new n with state := established }

def dataHeader (number : Nat) : RecordLayerHeader :=
  ⟨.applicationData, PROTOCOL_VERSION1_2, 1, number, 1⟩

/-- A record of one byte in epoch 1. -/
def plainRecord (number : Nat) : List UInt8 := (dataHeader number).bytes ++ [7]

theorem plainRecord_data {c : Conn n} {number : Nat} (hstate : c.state = established)
    (hbuffer : c.fragmentBuffer = .new) (hnumber : number ≤ MAX_SEQUENCE_NUMBER) :
    DataRecord c (plainRecord number) (dataHeader number) [7] := by
  have hread : RecordLayerHeader.unmarshal (plainRecord number) = .ok (dataHeader number, [7]) :=
    RecordLayerHeader.WellFormed.unmarshal ⟨Or.inr rfl, hnumber⟩ [7]
  have hepoch : (1 : UInt16) ≠ 0 := by decide
  have hreached : (dataHeader number).epoch ≤ c.state.remoteEpoch := by
    rw [hstate]
    exact UInt16.le_refl 1
  refine ⟨framed_record _ (by simp) rfl, ⟨_, hread⟩, hnumber, hepoch, hreached,
    plainSuite, plainRecord number, dataHeader number, by rw [hstate]; rfl, rfl, hread, rfl, ?_⟩
  rw [hbuffer, plainRecord, List.length_append, (dataHeader number).length_bytes]
  decide

/-- Such a record, if the detector lets it through. -/
theorem step_plainRecord {c : Conn n} {number : Nat} (hstate : c.state = established)
    (hbuffer : c.fragmentBuffer = .new) (hnumber : number ≤ MAX_SEQUENCE_NUMBER)
    (hnew : (c.guard.check (dataHeader number)).1 = true) :
    (c.step parses (.read (plainRecord number))).state = established
      ∧ (c.step parses (.read (plainRecord number))).fragmentBuffer = .new
      ∧ (c.step parses (.read (plainRecord number))).guard
        = ((c.guard.check (dataHeader number)).2.accept (dataHeader number)).deliver
            (dataHeader number) [7] := by
  have hread := (plainRecord_data hstate hbuffer hnumber).read parses
  rw [Conn.step, hread, Conn.afterData, if_pos hnew]
  exact ⟨hstate, hbuffer, rfl⟩

/-- **A window that is cut delivers a record twice.** -/
theorem delivered_twice (hexact : ¬ ExactMask n) (hn : n ≤ MAX_SEQUENCE_NUMBER) :
    ∃ actions, ¬ ((run (Conn.step parses) (Conn.new n) actions).guard.delivered.map
      fun d => (d.epoch, d.sequenceNumber)).Nodup := by
  have hmax : n + MAX_SEQUENCE_NUMBER < 2 ^ 64 := by
    unfold MAX_SEQUENCE_NUMBER at hn ⊢
    omega
  obtain ⟨k, hpos, hkn, hfirst, hsecond, hagain⟩ :=
    SlidingWindowDetector.inexact_forgets hexact hn hmax
  obtain ⟨hs1, hb1, hg1⟩ :=
    step_plainRecord parses (c := establishedConn n) rfl rfl (Nat.zero_le _) hfirst
  rw [show (establishedConn n).guard = Guard.new n from rfl] at hg1
  obtain ⟨hs2, hb2, hg2⟩ := step_plainRecord parses hs1 hb1 (by omega : k ≤ MAX_SEQUENCE_NUMBER) (by
    rw [hg1]
    simpa [Guard.new, Guard.check, Guard.accept, Guard.deliver, dataHeader] using hsecond)
  obtain ⟨_, _, hg3⟩ := step_plainRecord parses hs2 hb2 (Nat.zero_le _) (by
    rw [hg2, hg1]
    simpa [Guard.new, Guard.check, Guard.accept, Guard.deliver, dataHeader] using hagain)
  refine ⟨[.handshake fun _ => established, .read (plainRecord 0), .read (plainRecord k),
    .read (plainRecord 0)], ?_⟩
  simp only [run_cons, run_nil]
  rw [show (Conn.new n).step parses (.handshake fun _ => established) = establishedConn n from rfl,
    hg3, hg2, hg1]
  simp [Guard.new, Guard.check, Guard.accept, Guard.deliver, dataHeader]

/-- **Application data is delivered at most once** for every record number, whatever datagrams come
and whatever the handshake does, exactly for the window sizes that the mask does not cut. -/
theorem application_data_once_iff (hn : n ≤ MAX_SEQUENCE_NUMBER) :
    (∀ actions, ((run (Conn.step parses) (Conn.new n) actions).guard.delivered.map
      fun d => (d.epoch, d.sequenceNumber)).Nodup) ↔ ExactMask n := by
  constructor
  · intro honce
    by_contra hexact
    obtain ⟨actions, htwice⟩ := delivered_twice parses hexact hn
    exact htwice (honce actions)
  · intro hexact actions
    have hinv := guard_inv parses hexact hn actions
    exact hinv.nodup.sublist hinv.sub

theorem application_data_once_iff_default :
    (∀ actions, ((run (Conn.step fun _ => true) (Conn.new 64) actions).guard.delivered.map
      fun d => (d.epoch, d.sequenceNumber)).Nodup) ↔ ExactMask 64 :=
  application_data_once_iff (fun _ => true) (by decide)

/-- **A fresh record is delivered, and no other is.**  Fresh is a record whose number has not been
accepted in its epoch and lies within the window of every number that has. -/
theorem fresh_data_delivered (hpos : 0 < n) (hexact : ExactMask n) (hn : n ≤ MAX_SEQUENCE_NUMBER)
    (actions : List Conn.Action) {r : List UInt8} {h : RecordLayerHeader} {data : List UInt8}
    (hr : DataRecord (run (Conn.step parses) (Conn.new n) actions) r h data) :
    (run (Conn.step parses) (Conn.new n) (actions ++ [.read r])).guard.delivered
      = (run (Conn.step parses) (Conn.new n) actions).guard.delivered
        ++ if h.sequenceNumber ∉ (run (Conn.step parses) (Conn.new n) actions).guard.numbers h.epoch
              ∧ ∀ a ∈ (run (Conn.step parses) (Conn.new n) actions).guard.numbers h.epoch,
                a < n + h.sequenceNumber
            then [⟨h.epoch, h.sequenceNumber, data⟩] else [] := by
  have hmax : n + MAX_SEQUENCE_NUMBER < 2 ^ 64 := by
    unfold MAX_SEQUENCE_NUMBER at hn ⊢
    omega
  have htracks := (guard_inv parses hexact hn actions).tracks h.epoch
  have hnew := (htracks.isNew_iff hpos hmax h.sequenceNumber).trans (and_iff_right hr.number)
  rw [run_append, run_cons, run_nil, Conn.step, hr.read]
  generalize run (Conn.step parses) (Conn.new n) actions = c at *
  have hcheck : (c.guard.check h).1 = true ↔ h.sequenceNumber ∉ c.guard.numbers h.epoch
      ∧ ∀ a ∈ c.guard.numbers h.epoch, a < n + h.sequenceNumber := by
    rw [← hnew]
    simp only [Guard.check, SlidingWindowDetector.check]
    cases (c.guard.replayDetector h.epoch).isNew h.sequenceNumber <;> simp
  by_cases hfresh : (c.guard.check h).1 = true
  · rw [Conn.afterData, if_pos hfresh, if_pos (hcheck.mp hfresh)]
    rfl
  · rw [Conn.afterData, if_neg hfresh, if_neg (fun hf => hfresh (hcheck.mpr hf)), List.append_nil]
    rfl

theorem fresh_data_delivered_first :
    (run (Conn.step fun _ => true) (Conn.new 64)
        ([.handshake fun _ => established] ++ [.read (plainRecord 0)])).guard.delivered
      = [] ++ [⟨1, 0, [7]⟩] :=
  fresh_data_delivered (fun _ => true) (by decide) (by decide) (by decide)
    [.handshake fun _ => established] (plainRecord_data rfl rfl (Nat.zero_le _))

end Once

end WebrtcBridge.Dtls
