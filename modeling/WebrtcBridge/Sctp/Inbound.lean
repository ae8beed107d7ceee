/-
# The receiving side of an association

What happens to a DATA chunk between the wire and the application: the association takes each TSN
once, hands the chunk to the reassembly queue of its stream, and moves the last TSN in sequence over
what has come; the application reads whole messages off the streams.  A chunk for which there is no
room in the receive buffer is dropped without a word, unless it is one that is missing in front of
others.

The network may bring the chunks in any order, any number of times, or never.  What a receiver has
seen of the messages that were sent is written down beside the code, in a `Receiving`, and the
invariant (`Receives`) says that nothing is counted twice and nothing is forgotten: the places of a
stream, those it holds and those of the messages it has passed on, are without repetition exactly
the places of the stream that have come.

* §3  **one chunk**: one that has come before is refused, one that has not is new to its stream;
* §4  **one read**: a message of the sender leaves the stream, the next one in order if it is
  ordered;
* §5  **what is read was sent** (`delivered_as_sent`), **what is acknowledged and read is
  everything** (`all_delivered`), and **what a SACK reports has come** (`reported_has_come`), if the
  gap blocks can say it.

The numbers on the wire wrap.  A transfer of up to 2^30 chunks, with up to 2^15 ordered messages on
a stream, is read off them without doubt (`Outgoing`), wherever on the circle it starts.
-/
import Mathlib.Data.List.AList
import WebrtcBridge.Lib.Runs
import WebrtcBridge.Sctp.PayloadQueue
import WebrtcBridge.Sctp.ReassemblyQueue

namespace WebrtcBridge.Sctp

open Lib

/-! ## 1. The code -/

/-- The reassembly queues of the streams, by their identifiers. -/
abbrev Streams := AList fun _ : UInt16 => ReassemblyQueue

/-- The part of an association that receives. -/
structure Association where
  peerLastTsn : UInt32
  payloadQueue : PayloadQueue := {}
  maxReceiveBufferSize : UInt32
  streams : Streams := ∅

structure ChunkSelectiveAck where
  cumulativeTsnAck : UInt32
  advertisedReceiverWindowCredit : UInt32
  gapAckBlocks : List GapAckBlock
  duplicateTsn : List UInt32
  deriving DecidableEq, Repr

/-- What the handler passes on to the data channels. -/
structure DataChannelMessage where
  streamId : UInt16
  ppi : PayloadProtocolIdentifier
  payload : List UInt8
  deriving DecidableEq, Repr

namespace Association

/-- `handle_init` and `handle_init_ack`: the last TSN in sequence is the one before the first. -/
def new (initialTsn maxReceiveBufferSize : UInt32) : Association :=
  { peerLastTsn := initialTsn - 1, maxReceiveBufferSize := maxReceiveBufferSize }

def getOrCreateStream (a : Association) (id : UInt16) : Association :=
  if (a.streams.lookup id).isSome then a else { a with streams := a.streams.insert id { si := id } }

def getMyReceiverWindowCredit (a : Association) : UInt32 :=
  let bytesQueued := a.streams.entries.foldl (fun n s => n + .ofNat s.2.nBytes) (0 : UInt32)
  if bytesQueued ≥ a.maxReceiveBufferSize then 0 else a.maxReceiveBufferSize - bytesQueued

/-- Whether a chunk that can be pushed is taken: if there is room, or if it is one that is
missing. -/
def hasRoomFor (a : Association) (d : ChunkPayloadData) : Bool :=
  if a.getMyReceiverWindowCredit > 0 then true
  else
    match a.payloadQueue.getLastTsnReceived with
    | some lastTsn => sna32lt d.tsn lastTsn
    | none => false

/-- `StreamState::handle_data`. -/
def streamHandleData (a : Association) (now : Nat) (d : ChunkPayloadData) : Association :=
  match a.streams.lookup d.streamIdentifier with
  | none => a
  | some q => { a with streams := a.streams.insert d.streamIdentifier (q.push now d).1 }

/-- `handle_peer_last_tsn_and_acknowledgement`, without the decision when to send the SACK. -/
def handlePeerLastTsn (a : Association) : Association :=
  let (peerLastTsn, payloadQueue) := PayloadQueue.advance a.peerLastTsn a.payloadQueue
  { a with peerLastTsn := peerLastTsn, payloadQueue := payloadQueue }

def handleData (a : Association) (now : Nat) (d : ChunkPayloadData) : Association :=
  if a.payloadQueue.canPush d a.peerLastTsn then
    let a := a.getOrCreateStream d.streamIdentifier
    if a.hasRoomFor d then
      let a := { a with payloadQueue := a.payloadQueue.push d a.peerLastTsn }
      (a.streamHandleData now d).handlePeerLastTsn
    else a.handlePeerLastTsn
  else a.handlePeerLastTsn

/-- `Stream::read_sctp`; a stream that is not there gives an error, and nothing. -/
def readSctp (a : Association) (id : UInt16) : Option (Chunks × Association) :=
  match a.streams.lookup id with
  | none => none
  | some q =>
    match q.read with
    | none => none
    | some (cset, q) => some (cset, { a with streams := a.streams.insert id q })

/-- `create_selective_ack_chunk`, which also forgets the duplicates it reports. -/
def createSelectiveAckChunk (a : Association) : Association × ChunkSelectiveAck :=
  ({ a with payloadQueue := { a.payloadQueue with dupTsn := [] } },
    { cumulativeTsnAck := a.peerLastTsn
      advertisedReceiverWindowCredit := a.getMyReceiverWindowCredit
      gapAckBlocks := a.payloadQueue.getGapAckBlocks a.peerLastTsn
      duplicateTsn := a.payloadQueue.dupTsn })

end Association

/-- A receiver with the length of the handler's buffer, and what its application has been given. -/
structure Inbound where
  association : Association
  bufferLen : Nat
  delivered : List DataChannelMessage := []

inductive Arrival where
  | data (d : ChunkPayloadData) (now : Nat)
  | read (id : UInt16)
  deriving DecidableEq, Repr

namespace Inbound

def new (initialTsn maxReceiveBufferSize : UInt32) (bufferLen : Nat) : Inbound :=
  { association := .new initialTsn maxReceiveBufferSize, bufferLen := bufferLen }

/-- One round of the loop in `handle_read`: a message that does not fit into the buffer is lost (the
source then also loses those that the same call had read before). -/
def read (s : Inbound) (id : UInt16) : Inbound :=
  match s.association.readSctp id with
  | none => s
  | some (cset, a) =>
    match cset.toPayload s.bufferLen with
    | .error _ => { s with association := a }
    | .ok payload =>
      { s with association := a, delivered := s.delivered ++ [⟨id, cset.ppi, payload⟩] }

def step (s : Inbound) : Arrival → Inbound
  | .data d now => { s with association := s.association.handleData now d }
  | .read id => s.read id

/-- A receiver after some arrivals. -/
def after (initialTsn maxReceiveBufferSize : UInt32) (bufferLen : Nat) (acts : List Arrival) :
    Inbound :=
  run step (new initialTsn maxReceiveBufferSize bufferLen) acts

end Inbound

/-! ## 2. What has come -/

/-- An ordered message of a stream. -/
def Message.orderedOn (si : UInt16) (m : Message) : Bool := !m.unordered && m.si == si

/-- A message as the application gets it. -/
def Message.delivered (m : Message) : DataChannelMessage := ⟨m.si, m.ppi, m.data⟩

/-- What a stream has received; nothing if there is no such stream yet. -/
def Streams.queue (m : Streams) (si : UInt16) : ReassemblyQueue := (m.lookup si).getD { si := si }

theorem Streams.queue_of_lookup {m : Streams} {si : UInt16} {q : ReassemblyQueue}
    (h : m.lookup si = some q) :
    m.queue si = q := by
  rw [queue, h, Option.getD_some]

theorem Streams.queue_insert (m : Streams) (si : UInt16) (q : ReassemblyQueue) :
    Streams.queue (m.insert si q) = Function.update m.queue si q := by
  funext x
  by_cases hx : x = si
  · subst hx
    rw [queue, AList.lookup_insert, Function.update_self, Option.getD_some]
  · rw [queue, AList.lookup_insert_ne hx, Function.update_of_ne hx, queue]

/-- What a receiver has seen: `start` is the place of the first chunk, `last` the last one in
sequence, and `log` the messages that have been passed on. -/
structure Receiving where
  start : Nat
  last : Nat
  ahead : List Nat := []
  holding : UInt16 → Holding := fun _ => {}
  log : List Placed := []

namespace Receiving

/-- The chunk at a place has come. -/
def Got (g : Receiving) (x : Nat) : Prop := g.start ≤ x ∧ x ≤ g.last ∨ x ∈ g.ahead

/-- The messages of a stream that have been passed on. -/
def passed (g : Receiving) (si : UInt16) : List Placed := g.log.filter fun p => p.message.si == si

/-- The places of a stream. -/
def places (g : Receiving) (si : UInt16) : List Nat :=
  (g.holding si).held ++ (g.passed si).flatMap Placed.places

/-- The chunk at `x` has come, and its stream now holds `h`. -/
def put (g : Receiving) (si : UInt16) (h : Holding) (x : Nat) : Receiving :=
  { g with ahead := g.ahead.orderedInsert (· ≤ ·) x, holding := Function.update g.holding si h }

/-- A message has been passed on, and its stream now holds `h`. -/
def pass (g : Receiving) (si : UInt16) (h : Holding) (p : Placed) : Receiving :=
  { g with holding := Function.update g.holding si h, log := g.log ++ [p] }

end Receiving

/-- **A receiver, and what it has seen** of the messages `ps`. -/
structure Receives (ps : List Placed) (a : Association) (g : Receiving) : Prop where
  last : a.peerLastTsn = .ofNat g.last
  start : g.start ≤ g.last + 1
  base : ∀ p ∈ ps, g.start ≤ p.first
  ahead : a.payloadQueue.Tracks g.ahead
  above : ∀ x ∈ g.ahead, g.last < x
  near : ∀ x ∈ g.ahead, x ≤ g.last + 2 ^ 30
  placed : ∀ x, g.Got x → ∃ p ∈ ps, x ∈ p.places
  queue : ∀ si, a.streams.queue si = (g.holding si).queue ps si
  valid : ∀ si, (g.holding si).Valid ps si
  nodup : ∀ si, (g.places si).Nodup
  mem : ∀ si x, x ∈ g.places si ↔ g.Got x ∧ ∃ p ∈ ps, x ∈ p.places ∧ p.message.si = si
  log : ∀ p ∈ g.log, p ∈ ps
  order : ∀ si, (g.log.filter fun p => p.message.orderedOn si).map (fun p => p.message.number)
    = List.range (g.holding si).next

section Received

variable {ps : List Placed} {a : Association} {g : Receiving} {si : UInt16} {p : Placed} {x : Nat}

theorem Receives.got_of_log (h : Receives ps a g) (hp : p ∈ g.log) (hx : x ∈ p.places) :
    g.Got x := by
  refine ((h.mem p.message.si x).mp ?_).1
  refine List.mem_append_right _ (List.mem_flatMap.mpr ⟨p, ?_, hx⟩)
  exact List.mem_filter.mpr ⟨hp, by simp⟩

/-- What is held is not of a message that has been passed on. -/
theorem Receives.held_notMem_log (h : Receives ps a g) (hx : x ∈ (g.holding si).held)
    (hp : p ∈ g.log) (hsi : p.message.si = si) : x ∉ p.places := by
  intro hxp
  have hnodup := h.nodup si
  rw [Receiving.places, List.nodup_append] at hnodup
  refine hnodup.2.2 x hx x (List.mem_flatMap.mpr ⟨p, ?_, hxp⟩) rfl
  exact List.mem_filter.mpr ⟨hp, by simp [hsi]⟩

/-- **What has come of a message that is still to be passed on is held.** -/
theorem Receives.held_of_got (hl : Layout ps) (h : Receives ps a g) (hp : p ∈ ps)
    (hx : x ∈ p.places)
    (hgot : g.Got x) (hnot : p ∉ g.log) : x ∈ (g.holding p.message.si).held := by
  have hin : x ∈ g.places p.message.si := (h.mem p.message.si x).mpr ⟨hgot, p, hp, hx, rfl⟩
  rcases List.mem_append.mp hin with hin | hin
  · exact hin
  · obtain ⟨p', hp', hxp'⟩ := List.mem_flatMap.mp hin
    have hlog := (List.mem_filter.mp hp').1
    rw [hl.disjoint p' (h.log p' hlog) p hp x hxp' hx] at hlog
    exact absurd hlog hnot

/-- Where a place is held: an ordered message has its set, an unordered one is in pieces or
whole. -/
theorem Holding.held_cases {h : Holding} (hl : Layout ps) (hv : h.Valid ps si) (hp : p ∈ ps)
    (hx : x ∈ p.places) (hin : x ∈ h.held) :
    (p.message.unordered = false ∧ ∃ s ∈ h.sets, s.placed = p ∧ x ∈ s.places)
    ∨ (p.message.unordered = true ∧ (x ∈ h.loose ∨ ∃ w ∈ h.whole, w.1 = p)) := by
  rw [Holding.held, List.mem_append, List.mem_append, List.mem_flatMap, List.mem_flatMap] at hin
  rcases hin with ⟨s, hs, hxs⟩ | hin | ⟨w, hw, hxw⟩
  · have hmem := hv.mem_sets s hs
    have heq := hl.disjoint s.placed hmem.1 p hp x (hv.sub s hs x hxs) hx
    exact Or.inl ⟨heq ▸ hmem.2.2, s, hs, heq, hxs⟩
  · obtain ⟨p', hp', hxp', -, hun⟩ := hv.mem_loose x hin
    exact Or.inr ⟨hl.disjoint p' hp' p hp x hxp' hx ▸ hun, Or.inl hin⟩
  · have hmem := hv.mem_whole w hw
    have heq := hl.disjoint w.1 hmem.1 p hp x hxw hx
    exact Or.inr ⟨heq ▸ hmem.2.2, Or.inr ⟨w, hw, heq⟩⟩

/-- **An ordered message that is not passed on is still to come in its turn.** -/
theorem Receives.turn (hl : Layout ps) (h : Receives ps a g) (hp : p ∈ ps)
    (hord : p.message.unordered = false)
    (hnot : p ∉ g.log) : (g.holding p.message.si).next ≤ p.message.number := by
  by_contra hlt
  have hmem : p.message.number ∈ List.range (g.holding p.message.si).next :=
    List.mem_range.mpr (Nat.lt_of_not_le hlt)
  rw [← h.order, List.mem_map] at hmem
  obtain ⟨p', hp', hnum⟩ := hmem
  rw [List.mem_filter, Message.orderedOn, Bool.and_eq_true, Bool.not_eq_true', beq_iff_eq] at hp'
  have heq := hl.numbered p' (h.log p' hp'.1) p hp hp'.2.1 hord hp'.2.2 hnum
  exact hnot (heq ▸ hp'.1)

/-- **Loose fragments are near**: something is missing from their message, and it lies behind the
last place in sequence. -/
theorem Receives.loose_near (hl : Layout ps) (h : Receives ps a g) (hx : x ∈ (g.holding si).loose) :
    g.last < x + 2 ^ 30 := by
  have hv := h.valid si
  obtain ⟨p, hp, hxp, hsi, hun⟩ := hv.mem_loose x hx
  obtain ⟨y, hy, hyloose⟩ : ∃ y ∈ p.places, y ∉ (g.holding si).loose := by
    by_contra hall
    push Not at hall
    exact hv.unwhole p hp hall
  have hnot : p ∉ g.log := fun hlog =>
    h.held_notMem_log (List.mem_append_right _ (List.mem_append_left _ hx)) hlog hsi hxp
  have hmissing : ¬ g.Got y := by
    intro hgot
    have hin := h.held_of_got hl hp hy hgot hnot
    rw [hsi] at hin
    rcases Holding.held_cases hl hv hp hy hin with ⟨hord, -⟩ | ⟨-, hin | ⟨w, hw, rfl⟩⟩
    · rw [hun] at hord
      cases hord
    · exact hyloose hin
    · -- then the whole message waits to be read, and the loose fragment is there twice
      have hnodup := (List.nodup_append.mp (h.nodup si)).1
      rw [Holding.held, List.nodup_append, List.nodup_append] at hnodup
      exact hnodup.2.1.2.2 x hx x (List.mem_flatMap.mpr ⟨w, hw, hxp⟩) rfl
  have hsize := hl.size_le p hp
  have hfirst := h.base p hp
  rw [Placed.mem_places] at hy hxp
  have hlast : g.last < y := by
    by_contra hle
    exact hmissing (Or.inl ⟨by omega, Nat.le_of_not_lt hle⟩)
  omega

/-- **A message whose turn it is can be read** once all of it is held. -/
theorem Holding.ready_of_held {h : Holding} (hl : Layout ps) (hv : h.Valid ps si) (hp : p ∈ ps)
    (hord : p.message.unordered = false) (hturn : p.message.number = h.next)
    (hall : ∀ x ∈ p.places, x ∈ h.held) :
    h.Ready := by
  have hset : ∀ x ∈ p.places, ∃ s ∈ h.sets, s.placed = p ∧ x ∈ s.places := by
    intro x hx
    rcases Holding.held_cases hl hv hp hx (hall x hx) with ⟨-, hs⟩ | ⟨hun, -⟩
    · exact hs
    · rw [hord] at hun
      cases hun
  obtain ⟨s, hs, hsp, -⟩ := hset p.first (hl.first_mem hp)
  have hnum : s.number = h.next := by rw [HeldSet.number, hsp, hturn]
  obtain ⟨t, ts, hts⟩ := List.exists_cons_of_ne_nil (List.ne_nil_of_mem hs)
  have hinc := hv.increasing
  rw [hts, List.pairwise_cons] at hinc
  -- the numbers of the sets increase, so only the set in front has the next one
  have huniq : ∀ s' ∈ h.sets, s'.number = h.next → s' = t := by
    intro s' hs' hnum'
    rcases List.mem_cons.mp (hts ▸ hs') with heq | hin
    · exact heq
    · have := hinc.1 s' hin
      have := hv.next_le t (hts ▸ List.mem_cons_self)
      omega
  obtain rfl := huniq s hs hnum
  refine Or.inr ⟨s, ts, hts, ?_, hnum⟩
  rw [hsp]
  refine (hv.inc s hs).eq_of_mem_iff (List.pairwise_lt_range' ..) fun x =>
    ⟨fun hx => ?_, fun hx => ?_⟩
  · exact hsp ▸ hv.sub s hs x hx
  · obtain ⟨s', hs', hsp', hx'⟩ := hset x hx
    rw [huniq s' hs' (by rw [HeldSet.number, hsp', hturn])] at hx'
    exact hx'

/-- **Nothing is held back**: if everything has come and nothing can be read, everything has been
passed on. -/
theorem Receives.all_passed (hl : Layout ps) (h : Receives ps a g)
    (hquiet : ∀ si, ¬ (g.holding si).Ready) (hall : ∀ p ∈ ps, ∀ x ∈ p.places, g.Got x)
    (hnumbers : ∀ p ∈ ps, p.message.unordered = false → ∀ k ≤ p.message.number,
      ∃ p' ∈ ps, p'.message.unordered = false ∧ p'.message.si = p.message.si
        ∧ p'.message.number = k)
    (hp : p ∈ ps) : p ∈ g.log := by
  by_contra hnot
  have hv := h.valid p.message.si
  have hheld : ∀ p' ∈ ps, p' ∉ g.log → ∀ x ∈ p'.places, x ∈ (g.holding p'.message.si).held :=
    fun p' hp' hnot' x hx => h.held_of_got hl hp' hx (hall p' hp' x hx) hnot'
  cases hun : p.message.unordered with
  | true =>
    -- it would be whole, or in pieces and one of them missing
    refine hv.unwhole p hp fun x hx => ?_
    rcases Holding.held_cases hl hv hp hx (hheld p hp hnot x hx) with
      ⟨hord, -⟩ | ⟨-, hin | ⟨w, hw, -⟩⟩
    · rw [hun] at hord
      cases hord
    · exact hin
    · exact absurd (Or.inl (List.ne_nil_of_mem hw)) (hquiet p.message.si)
  | false =>
    -- the message whose turn it is has come, and could be read
    obtain ⟨n, hn, hnord, hnsi, hnext⟩ := hnumbers p hp hun _ (h.turn hl hp hun hnot)
    have hnlog : n ∉ g.log := by
      intro hlog
      have hmem : n.message.number ∈ List.range (g.holding p.message.si).next := by
        rw [← h.order]
        exact List.mem_map.mpr
          ⟨n, List.mem_filter.mpr ⟨hlog, by simp [Message.orderedOn, hnord, hnsi]⟩, rfl⟩
      rw [List.mem_range, hnext] at hmem
      exact Nat.lt_irrefl _ hmem
    exact hquiet p.message.si
      (Holding.ready_of_held hl hv hn hnord hnext fun x hx => hnsi ▸ hheld n hn hnlog x hx)

/-! ### Streams apart -/

theorem Receiving.got_put {h : Holding} (y : Nat) : (g.put si h x).Got y ↔ g.Got y ∨ y = x := by
  simp only [Receiving.Got, Receiving.put, List.mem_orderedInsert]
  tauto

theorem Receiving.places_put_ne {h : Holding} {si' : UInt16} (hne : si' ≠ si) :
    (g.put si h x).places si' = g.places si' := by
  simp only [places, put, Function.update_of_ne hne]
  rfl

theorem Receiving.places_put {h : Holding} (hheld : h.held.Perm (x :: (g.holding si).held)) :
    ((g.put si h x).places si).Perm (x :: g.places si) := by
  simp only [places, put, Function.update_self]
  exact hheld.append_right _

theorem Receiving.places_pass_ne {h : Holding} (hsi : p.message.si = si) {si' : UInt16}
    (hne : si' ≠ si) :
    (g.pass si h p).places si' = g.places si' := by
  have hother : (p.message.si == si') = false := by
    rw [beq_eq_false_iff_ne, hsi]
    exact Ne.symm hne
  simp only [places, passed, pass, Function.update_of_ne hne, List.filter_append,
    List.filter_cons, hother, Bool.false_eq_true, if_false, List.filter_nil, List.append_nil]

theorem Receiving.places_pass {h : Holding} (hsi : p.message.si = si)
    (hheld : (g.holding si).held.Perm (p.places ++ h.held)) :
    ((g.pass si h p).places si).Perm (g.places si) := by
  have hown : (p.message.si == si) = true := by rw [hsi]; exact beq_self_eq_true si
  simp only [places, passed, pass, Function.update_self, List.filter_append, List.filter_cons,
    hown, if_true, List.filter_nil, List.flatMap_append, List.flatMap_singleton]
  refine List.perm_iff_count.mpr fun b => ?_
  have hcount := List.perm_iff_count.mp hheld b
  simp only [List.count_append] at hcount ⊢
  omega

/-- The queue of a stream changes, and with it what the stream holds. -/
theorem Receives.queue_update (h : Receives ps a g) {h' : Holding} {q : ReassemblyQueue}
    (hq : q = h'.queue ps si) (si' : UInt16) :
    Streams.queue (a.streams.insert si q) si'
      = (Function.update g.holding si h' si').queue ps si' := by
  rw [Streams.queue_insert]
  by_cases hne : si' = si
  · subst hne
    rw [Function.update_self, Function.update_self, hq]
  · rw [Function.update_of_ne hne, Function.update_of_ne hne, h.queue si']

theorem Receives.valid_update (h : Receives ps a g) {h' : Holding} (hv : h'.Valid ps si)
    (si' : UInt16) :
    (Function.update g.holding si h' si').Valid ps si' := by
  by_cases hne : si' = si
  · subst hne
    rw [Function.update_self]
    exact hv
  · rw [Function.update_of_ne hne]
    exact h.valid si'

end Received

/-! ## 3. A chunk comes in -/

section Data

variable {ps : List Placed} {a : Association} {g : Receiving} {si : UInt16} {p : Placed} {x : Nat}

/-- **A chunk at a new place joins what its stream holds**, whichever kind it is of. -/
theorem push_place {h : Holding} (hl : Layout ps) (hv : h.Valid ps si) (hp : p ∈ ps)
    (hsi : p.message.si = si)
    (hx : x ∈ p.places) (hnew : x ∉ h.held)
    (hnext : p.message.unordered = false → h.next ≤ p.message.number)
    (hreach : p.message.unordered = false → p.message.number < h.next + 2 ^ 15)
    (hnear : ∀ b ∈ h.loose, x < b + 2 ^ 31 ∧ b < x + 2 ^ 31) (now : Nat) :
    ∃ h' : Holding, ((h.queue ps si).push now (chunkAt ps x)).1 = h'.queue ps si ∧ h'.Valid ps si
      ∧ h'.held.Perm (x :: h.held) ∧ h'.next = h.next := by
  cases hkind : p.message.unordered with
  | false =>
    have hpush := push_ordered hl hv hp hsi hkind hx hnew (hnext hkind) (hreach hkind) now
    have hv' := addTo_valid hl hv hp hsi hkind hx hnew (hnext hkind) (hreach hkind) now
    exact ⟨{ h with sets := addTo p x now h.sets }, by rw [hpush], hv',
      addTo_held p x now hv.increasing, rfl⟩
  | true =>
    obtain ⟨loose, whole, hqueue, hv', hheld⟩ := push_unordered hl hv hp hsi hkind hx hnew hnear now
    exact ⟨{ h with loose := loose, whole := whole }, hqueue, hv', hheld, rfl⟩

/-- A stream that is made when its first chunk comes. -/
theorem Receives.getOrCreateStream (h : Receives ps a g) (id : UInt16) :
    Receives ps (a.getOrCreateStream id) g
      ∧ (AList.lookup id (a.getOrCreateStream id).streams).isSome := by
  rw [Association.getOrCreateStream]
  split
  · next hsome => exact ⟨h, hsome⟩
  · next hnone =>
    have hlookup : a.streams.lookup id = none := by simpa using hnone
    refine ⟨{ h with queue := fun si => ?_ }, by rw [AList.lookup_insert]; rfl⟩
    have hsame : ({ si := id } : ReassemblyQueue) = Streams.queue a.streams id := by
      rw [Streams.queue, hlookup, Option.getD_none]
    rw [Streams.queue_insert, hsame, Function.update_eq_self]
    exact h.queue si

/-- The last TSN in sequence moves over what has come. -/
theorem Receives.acknowledge (h : Receives ps a g) :
    ∃ last ahead, Receives ps a.handlePeerLastTsn { g with last := last, ahead := ahead }
      ∧ ∀ y, ({ g with last := last, ahead := ahead } : Receiving).Got y ↔ g.Got y := by
  obtain ⟨k, rest, hsplit, -, hlast, htracks⟩ := h.ahead.advance_spec h.above
    fun b hb => Nat.lt_of_le_of_lt (h.near b hb) (by omega)
  have hstart := h.start
  have hgot : ∀ y, ({ g with last := g.last + k, ahead := rest } : Receiving).Got y ↔ g.Got y := by
    intro y
    simp only [Receiving.Got]
    rw [hsplit, List.mem_append, List.mem_range'_1]
    constructor
    · rintro (⟨h1, h2⟩ | hy)
      · by_cases hle : y ≤ g.last
        · exact Or.inl ⟨h1, hle⟩
        · exact Or.inr (Or.inl ⟨by omega, by omega⟩)
      · exact Or.inr (Or.inr hy)
    · rintro (⟨h1, h2⟩ | ⟨h1, h2⟩ | hy)
      · exact Or.inl ⟨h1, by omega⟩
      · exact Or.inl ⟨by omega, by omega⟩
      · exact Or.inr hy
  have hpair := h.ahead.increasing
  rw [hsplit, List.pairwise_append] at hpair
  refine ⟨g.last + k, rest, ?_, hgot⟩
  rw [Association.handlePeerLastTsn, h.last]
  refine { h with
    last := hlast
    start := by simp only; omega
    ahead := htracks
    above := fun y hy => ?_
    near := fun y hy => ?_
    placed := fun y hy => h.placed y ((hgot y).mp hy)
    mem := fun si y => by rw [hgot y]; exact h.mem si y }
  · have hlow := h.above y (by rw [hsplit]; exact List.mem_append_right _ hy)
    simp only
    cases k with
    | zero => exact hlow
    | succ k => exact hpair.2.2 (g.last + (k + 1)) (by rw [List.mem_range'_1]; omega) y hy
  · have hnear := h.near y (by rw [hsplit]; exact List.mem_append_right _ hy)
    simp only
    omega

/-- What has come is what the streams have, also with the chunk at `x`. -/
theorem Receives.mem_put (hl : Layout ps) (h : Receives ps a g) (hp : p ∈ ps) (hx : x ∈ p.places)
    (hsi : p.message.si = si) {h' : Holding} (hheld : h'.held.Perm (x :: (g.holding si).held))
    (si' : UInt16) (y : Nat) :
    y ∈ (g.put si h' x).places si'
      ↔ (g.put si h' x).Got y ∧ ∃ p ∈ ps, y ∈ p.places ∧ p.message.si = si' := by
  rw [Receiving.got_put y]
  by_cases hne : si' = si
  · subst hne
    rw [(Receiving.places_put hheld).mem_iff, List.mem_cons, h.mem si' y]
    constructor
    · rintro (rfl | ⟨hy, hrest⟩)
      · exact ⟨Or.inr rfl, p, hp, hx, hsi⟩
      · exact ⟨Or.inl hy, hrest⟩
    · rintro ⟨hy | rfl, hrest⟩
      · exact Or.inr ⟨hy, hrest⟩
      · exact Or.inl rfl
  · rw [Receiving.places_put_ne hne, h.mem si' y]
    constructor
    · rintro ⟨hy, hrest⟩
      exact ⟨Or.inl hy, hrest⟩
    · rintro ⟨hy | rfl, p', hp', hyp', hsip'⟩
      · exact ⟨hy, p', hp', hyp', hsip'⟩
      · rw [hl.disjoint p' hp' p hp y hyp' hx] at hsip'
        exact absurd (hsip'.symm.trans hsi) hne

/-- **The chunk at a place that has not come** joins its stream and the places ahead. -/
theorem Receives.take (hl : Layout ps) (h : Receives ps a g) (hp : p ∈ ps) (hx : x ∈ p.places)
    (hnew : ¬ g.Got x) (hlast : g.last < x) (hnear : x ≤ g.last + 2 ^ 30)
    (hreach : p.message.unordered = false
      → p.message.number < (g.holding p.message.si).next + 2 ^ 15)
    (hopen : (a.streams.lookup p.message.si).isSome) (now : Nat) :
    ∃ h', Receives ps (Association.streamHandleData
      { a with payloadQueue := a.payloadQueue.pushNoCheck (chunkAt ps x) } now (chunkAt ps x))
      (g.put p.message.si h' x) := by
  obtain ⟨si, hsi⟩ : ∃ si, p.message.si = si := ⟨_, rfl⟩
  rw [hsi] at hreach hopen ⊢
  have hid : (chunkAt ps x).streamIdentifier = si := by rw [chunkAt_eq hl hp hx]; exact hsi
  obtain ⟨q, hq⟩ := Option.isSome_iff_exists.mp hopen
  have hqueue : q = (g.holding si).queue ps si := by rw [← h.queue si, Streams.queue_of_lookup hq]
  have hfresh : x ∉ g.places si := fun hmem => hnew ((h.mem si x).mp hmem).1
  obtain ⟨h', hpush, hv', hheld', hnext'⟩ := push_place hl (h.valid si) hp hsi hx
    (fun hmem => hfresh (List.mem_append_left _ hmem))
    (fun hord => hsi ▸ h.turn hl hp hord fun hlog => hnew (h.got_of_log hlog hx)) hreach
    (fun b hb => by
      have hloose := h.loose_near hl hb
      rcases ((h.mem si b).mp (List.mem_append_left _
        (List.mem_append_right _ (List.mem_append_left _ hb)))).1 with ⟨-, hle⟩ | hin
      · omega
      · have := h.near b hin
        omega) now
  rw [Association.streamHandleData, hid]
  simp only [hq]
  refine ⟨h', { h with
    ahead := ?_
    above := fun y hy => ?_
    near := fun y hy => ?_
    placed := fun y hy => ?_
    queue := h.queue_update (by rw [hqueue, hpush])
    valid := h.valid_update hv'
    nodup := fun si' => ?_
    mem := h.mem_put hl hp hx hsi hheld'
    order := fun si' => ?_ }⟩
  · exact h.ahead.pushNoCheck (tsn_chunkAt hl hp hx) (fun b hb => by
      have h1 := h.near b hb
      have h2 := h.above b hb
      omega) fun hmem => hnew (Or.inr hmem)
  · rcases (List.mem_orderedInsert _).mp hy with rfl | hy
    · exact hlast
    · exact h.above y hy
  · rcases (List.mem_orderedInsert _).mp hy with rfl | hy
    · exact hnear
    · exact h.near y hy
  · rcases (Receiving.got_put y).mp hy with hy | rfl
    · exact h.placed y hy
    · exact ⟨p, hp, hx⟩
  · by_cases hne : si' = si
    · subst hne
      exact (Receiving.places_put hheld').nodup_iff.mpr (List.nodup_cons.mpr ⟨hfresh, h.nodup si'⟩)
    · rw [Receiving.places_put_ne hne]
      exact h.nodup si'
  · rw [Receiving.put, h.order si']
    by_cases hne : si' = si
    · subst hne
      simp only [Function.update_self, hnext']
    · simp only [Function.update_of_ne hne]

/-- **A DATA chunk of the sender**: it is taken if it has not come before and there is room, and in
any case what has come stays counted once. -/
theorem Receives.data (hl : Layout ps) (h : Receives ps a g) (hp : p ∈ ps) (hx : x ∈ p.places)
    (hnear : x ≤ g.last + 2 ^ 30) (hfar : g.last < x + 2 ^ 31)
    (hback : ∀ b ∈ g.ahead, b < x + 2 ^ 31)
    (hreach : p.message.unordered = false
      → p.message.number < (g.holding p.message.si).next + 2 ^ 15)
    (now : Nat) :
    ∃ g', Receives ps (a.handleData now (chunkAt ps x)) g' ∧ g'.start = g.start ∧ g'.log = g.log
      ∧ ∀ y, g'.Got y → g.Got y ∨ y = x := by
  have hid : (chunkAt ps x).streamIdentifier = p.message.si := by rw [chunkAt_eq hl hp hx]; rfl
  rw [Association.handleData, hid]
  by_cases hcan : a.payloadQueue.canPush (chunkAt ps x) a.peerLastTsn = true
  · rw [if_pos hcan]
    simp only
    obtain ⟨hcreated, hopen⟩ := h.getOrCreateStream p.message.si
    have hcircle : ∀ b ∈ g.ahead, x < b + 2 ^ 31 ∧ b < x + 2 ^ 31 := fun b hb => by
      have := h.above b hb
      exact ⟨by omega, hback b hb⟩
    rw [h.last, h.ahead.canPush_iff (tsn_chunkAt hl hp hx) hcircle (by omega) hfar] at hcan
    have hnew : ¬ g.Got x := by
      rintro (⟨-, hle⟩ | hin)
      · omega
      · exact hcan.1 hin
    split
    · -- there is room
      have hpush : (a.getOrCreateStream p.message.si).payloadQueue.push (chunkAt ps x)
          (a.getOrCreateStream p.message.si).peerLastTsn
          = (a.getOrCreateStream p.message.si).payloadQueue.pushNoCheck (chunkAt ps x) := by
        refine PayloadQueue.push_of_canPush ?_
        rw [hcreated.last,
          hcreated.ahead.canPush_iff (tsn_chunkAt hl hp hx) hcircle (by omega) hfar]
        exact hcan
      rw [hpush]
      obtain ⟨h', htaken⟩ := hcreated.take hl hp hx hnew hcan.2 hnear hreach hopen now
      obtain ⟨last, ahead, hg, hgot⟩ := htaken.acknowledge
      exact ⟨_, hg, rfl, rfl, fun y hy => (Receiving.got_put y).mp ((hgot y).mp hy)⟩
    · obtain ⟨last, ahead, hg, hgot⟩ := hcreated.acknowledge
      exact ⟨_, hg, rfl, rfl, fun y hy => Or.inl ((hgot y).mp hy)⟩
  · rw [if_neg hcan]
    obtain ⟨last, ahead, hg, hgot⟩ := h.acknowledge
    exact ⟨_, hg, rfl, rfl, fun y hy => Or.inl ((hgot y).mp hy)⟩

end Data

/-! ## 4. Reading -/

section Read

variable {ps : List Placed} {a : Association} {g : Receiving} {si : UInt16} {p : Placed}

/-- **A message leaves its stream** and is passed on. -/
theorem Receives.leave (h : Receives ps a g) {h' : Holding} (hleaves : (g.holding si).Leaves p h') :
    Receives ps { a with streams := a.streams.insert si (h'.queue ps si) } (g.pass si h' p) := by
  obtain ⟨hp, hsi⟩ := hleaves.mem (h.valid si)
  refine { h with
    queue := h.queue_update rfl
    valid := h.valid_update (hleaves.valid (h.valid si))
    nodup := fun si' => ?_
    mem := fun si' y => ?_
    log := fun p' hp' => ?_
    order := fun si' => ?_ }
  · by_cases hne : si' = si
    · subst hne
      exact (Receiving.places_pass hsi hleaves.held).nodup_iff.mpr (h.nodup si')
    · rw [Receiving.places_pass_ne hsi hne]
      exact h.nodup si'
  · by_cases hne : si' = si
    · subst hne
      rw [(Receiving.places_pass hsi hleaves.held).mem_iff]
      exact h.mem si' y
    · rw [Receiving.places_pass_ne hsi hne]
      exact h.mem si' y
  · rcases List.mem_append.mp hp' with hp' | hp'
    · exact h.log p' hp'
    · rw [List.mem_singleton.mp hp']
      exact hp
  · rw [Receiving.pass]
    simp only
    rw [List.filter_append, List.map_append, h.order si']
    by_cases hne : si' = si
    · subst hne
      rw [Function.update_self]
      have hv := h.valid si'
      cases hleaves with
      | unordered w ws hw =>
        have hun := (hv.mem_whole w (by rw [hw]; exact List.mem_cons_self)).2.2
        simp [Message.orderedOn, hun]
      | ordered s ss hs hnext hall =>
        have hord := (hv.mem_sets s (by rw [hs]; exact List.mem_cons_self)).2.2
        have hnum : s.placed.message.number = (g.holding si').next := hnext
        simp [Message.orderedOn, hord, hsi, hnum, List.range_succ]
    · have hoff : p.message.orderedOn si' = false := by
        rw [Message.orderedOn, hsi, Bool.and_eq_false_iff, beq_eq_false_iff_ne]
        exact Or.inr (Ne.symm hne)
      simp [hoff, Function.update_of_ne hne]

/-- No message is passed on twice. -/
theorem Receives.log_nodup (hl : Layout ps) (h : Receives ps a g) : g.log.Nodup := by
  have hpassed : ∀ si, (g.passed si).Nodup := by
    intro si
    have hplaces := (List.nodup_append.mp (h.nodup si)).2.1
    refine (List.nodup_flatMap.mp hplaces).2.imp_of_mem fun {p p'} hp _ hdisjoint heq => ?_
    have hfirst := hl.first_mem (h.log p (List.mem_filter.mp hp).1)
    exact hdisjoint hfirst (heq ▸ hfirst)
  rw [List.nodup_iff_count_le_one]
  intro p
  rw [← List.count_filter (p := fun p' => p'.message.si == p.message.si) (by simp)]
  exact List.nodup_iff_count_le_one.mp (hpassed p.message.si) p

end Read

/-! ## 5. Whole runs -/

/-- **What the sender sends**: `n` chunks from the place `start` on, for messages that are numbered
in order on each stream.  Up to 2^30 chunks and 2^15 ordered messages on a stream the counters tell
everything. -/
structure Outgoing (start n : Nat) (ps : List Placed) : Prop where
  pos : 0 < start
  few : n ≤ 2 ^ 30
  layout : Layout ps
  nodup : ps.Nodup
  within : ∀ p ∈ ps, start ≤ p.first ∧ p.first + p.message.size ≤ start + n
  numbered : ∀ si, ∃ c ≤ 2 ^ 15,
    ((ps.map Placed.message).filter (Message.orderedOn si)).map Message.number
    = List.range c

/-- The chunks that arrive are chunks of the messages, in any order and as often as the network
likes. -/
def Brings (ps : List Placed) (acts : List Arrival) : Prop :=
  ∀ d now, .data d now ∈ acts → ∃ p ∈ ps, ∃ x ∈ p.places, d = p.chunk x

/-- **The invariant of a run**: what has been passed on has been given to the application, and
whatever has come is among the arrivals. -/
def Inbound.Inv (start : Nat) (ps : List Placed) (bufferLen : Nat) (acts : List Arrival)
    (s : Inbound) : Prop :=
  ∃ g, Receives ps s.association g ∧ g.start = start ∧ s.bufferLen = bufferLen
    ∧ s.delivered = g.log.map (fun p => p.message.delivered)
    ∧ ∀ x, g.Got x → ∃ now, .data (chunkAt ps x) now ∈ acts

section Runs

variable {start n bufferLen : Nat} {ps : List Placed} {size : UInt32}
    {acts : List Arrival} {s : Inbound}

theorem Outgoing.lt_of_got (ho : Outgoing start n ps) {a : Association} {g : Receiving}
    (h : Receives ps a g) {x : Nat} (hx : g.Got x) : start ≤ x ∧ x < start + n := by
  obtain ⟨p, hp, hxp⟩ := h.placed x hx
  have hwithin := ho.within p hp
  rw [Placed.mem_places] at hxp
  omega

theorem Outgoing.last_lt (ho : Outgoing start n ps) {a : Association} {g : Receiving}
    (h : Receives ps a g) (hstart : g.start = start) : g.last < start + n ∧ start ≤ g.last + 1 := by
  have hle := h.start
  have hpos := ho.pos
  by_cases hnone : g.start ≤ g.last
  · exact ⟨(ho.lt_of_got h (Or.inl ⟨hnone, Nat.le_refl _⟩)).2, by omega⟩
  · exact ⟨by omega, by omega⟩

/-- The number of an ordered message is below those of its stream. -/
theorem number_lt {p : Placed} (hp : p ∈ ps) (hord : p.message.unordered = false)
    {c : Nat}
    (hc : ((ps.map Placed.message).filter (Message.orderedOn p.message.si)).map Message.number
      = List.range c) : p.message.number < c := by
  rw [← List.mem_range, ← hc]
  refine List.mem_map_of_mem (List.mem_filter.mpr ⟨List.mem_map_of_mem hp, ?_⟩)
  simp [Message.orderedOn, hord]

theorem Inbound.Inv.data (ho : Outgoing start n ps) (h : s.Inv start ps bufferLen acts)
    {p : Placed} (hp : p ∈ ps) {x : Nat} (hx : x ∈ p.places) (now : Nat) :
    (s.step (.data (p.chunk x) now)).Inv start ps bufferLen (acts ++ [.data (p.chunk x) now]) := by
  obtain ⟨g, hg, hstart, hlen, hdelivered, hcame⟩ := h
  obtain ⟨hlow, hhigh⟩ := ho.within p hp
  obtain ⟨c, hc, hnumbers⟩ := ho.numbered p.message.si
  have hfew := ho.few
  have hplaces := Placed.mem_places.mp hx
  have hle := hg.start
  have hlast := ho.last_lt hg hstart
  rw [← chunkAt_eq ho.layout hp hx]
  obtain ⟨g', hg', hstart', hlog', hgot'⟩ := hg.data ho.layout hp hx (by omega) (by omega)
    (fun b hb => by
      have := (ho.lt_of_got hg (Or.inr hb)).2
      omega)
    (fun hord => by
      have := number_lt hp hord hnumbers
      omega) now
  refine ⟨g', hg', hstart'.trans hstart, hlen, by rw [hlog']; exact hdelivered, fun y hy => ?_⟩
  rcases hgot' y hy with hy | rfl
  · obtain ⟨t, ht⟩ := hcame y hy
    exact ⟨t, List.mem_append_left _ ht⟩
  · exact ⟨now, List.mem_append_right _ List.mem_cons_self⟩

theorem Inbound.Inv.read (ho : Outgoing start n ps)
    (hfits : ∀ p ∈ ps, p.message.data.length ≤ bufferLen)
    (h : s.Inv start ps bufferLen acts) (id : UInt16) :
    (s.step (.read id)).Inv start ps bufferLen (acts ++ [.read id]) := by
  obtain ⟨g, hg, hstart, hlen, hdelivered, hcame⟩ := h
  have hcame' : ∀ x, g.Got x → ∃ now, .data (chunkAt ps x) now ∈ acts ++ [.read id] :=
    fun x hx => by
    obtain ⟨now, hnow⟩ := hcame x hx
    exact ⟨now, List.mem_append_left _ hnow⟩
  rw [Inbound.step, Inbound.read, Association.readSctp]
  cases hq : s.association.streams.lookup id with
  | none => exact ⟨g, hg, hstart, hlen, hdelivered, hcame'⟩
  | some q =>
    simp only
    rw [show q = (g.holding id).queue ps id by rw [← hg.queue id, Streams.queue_of_lookup hq]]
    cases hread : ((g.holding id).queue ps id).read with
    | none => exact ⟨g, hg, hstart, hlen, hdelivered, hcame'⟩
    | some res =>
      obtain ⟨cset, q'⟩ := res
      obtain ⟨p, h', hleaves, rfl, hppi, hchunks⟩ := read_some ho.layout (hg.valid id) hread
      obtain ⟨hp, hsi⟩ := hleaves.mem (hg.valid id)
      simp only
      rw [toPayload_places ho.layout hp hchunks s.bufferLen (hlen ▸ hfits p hp)]
      refine ⟨g.pass id h' p, hg.leave hleaves, hstart, hlen, ?_, hcame'⟩
      simp only [Receiving.pass, List.map_append, hdelivered, List.map_cons, List.map_nil,
        Message.delivered, hsi, hppi]

theorem inbound_new (size : UInt32) (ho : Outgoing start n ps) :
    (Inbound.new (.ofNat start) size bufferLen).Inv start ps bufferLen [] := by
  have hpos := ho.pos
  have hpred : UInt32.ofNat start - 1 = .ofNat (start - 1) := by
    obtain ⟨k, rfl⟩ := Nat.exists_eq_succ_of_ne_zero (Nat.ne_of_gt hpos)
    rw [Nat.succ_eq_add_one, ofNat_succ32, UInt32.add_sub_cancel, Nat.add_sub_cancel]
  have hgot : ∀ x, ¬ Receiving.Got { start := start, last := start - 1 } x := by
    rintro x (⟨hlow, hhigh⟩ | hin)
    · simp only at hlow hhigh
      omega
    · cases hin
  refine ⟨{ start := start, last := start - 1 }, ?_, rfl, rfl, rfl, fun x hx => absurd hx (hgot x)⟩
  exact
    { last := hpred
      start := by simp only; omega
      base := fun p hp => (ho.within p hp).1
      ahead := PayloadQueue.tracks_nil
      above := by simp
      near := by simp
      placed := fun x hx => absurd hx (hgot x)
      queue := fun si => rfl
      valid := fun si => Holding.valid_empty ho.layout si
      nodup := fun si => List.nodup_nil
      mem := fun si x => ⟨fun hx => absurd hx List.not_mem_nil, fun hx => absurd hx.1 (hgot x)⟩
      log := by simp
      order := fun si => rfl }

/-- **Along a run**, whatever the network brings and whenever the application reads. -/
theorem inbound_inv (size : UInt32) (ho : Outgoing start n ps)
    (hfits : ∀ p ∈ ps, p.message.data.length ≤ bufferLen) (hbrings : Brings ps acts) :
    (Inbound.after (.ofNat start) size bufferLen acts).Inv start ps bufferLen acts := by
  refine run_inv_trace (I := fun acts s => Inbound.Inv start ps bufferLen acts s)
    (fun act => ∀ d now, act = .data d now → ∃ p ∈ ps, ∃ x ∈ p.places, d = p.chunk x)
    (fun pre s act hact h => ?_) acts [] _ (fun act hact d now heq => hbrings d now (heq ▸ hact))
    (inbound_new size ho)
  cases act with
  | data d now =>
    obtain ⟨p, hp, x, hx, rfl⟩ := hact d now rfl
    exact h.data ho hp hx now
  | read id => exact h.read ho hfits id

/-- The ordered messages of a stream that were passed on are the first that were sent. -/
theorem Receives.ordered_prefix (ho : Outgoing start n ps) {a : Association} {g : Receiving}
    (h : Receives ps a g) (si : UInt16) : (g.log.map Placed.message).filter (Message.orderedOn si)
      <+: (ps.map Placed.message).filter (Message.orderedOn si) := by
  obtain ⟨c, -, hnumbers⟩ := ho.numbered si
  have horder : ((g.log.map Placed.message).filter (Message.orderedOn si)).map Message.number
      = List.range (g.holding si).next := by
    rw [← h.order si, List.filter_map, List.map_map]
    rfl
  refine prefix_of_numbered horder hnumbers fun m hm => ?_
  obtain ⟨hlog, hon⟩ := List.mem_filter.mp hm
  obtain ⟨p, hp, rfl⟩ := List.mem_map.mp hlog
  exact List.mem_filter.mpr ⟨List.mem_map_of_mem (h.log p hp), hon⟩

/-- A message in two pieces, on both sides of the wrap of the TSN. -/
def wrapSent : List Placed := [⟨2 ^ 32 - 1, ⟨1, false, 0, .string, [[104], [105]]⟩⟩]

/-- The second piece comes first, and again at the end. -/
def wrapArrivals : List Arrival :=
  [.data (chunkAt wrapSent (2 ^ 32)) 0, .data (chunkAt wrapSent (2 ^ 32 - 1)) 1,
    .data (chunkAt wrapSent (2 ^ 32)) 2, .read 1]

theorem wrap_outgoing : Outgoing (2 ^ 32 - 1) 2 wrapSent := by
  refine ⟨by decide, by decide, ⟨by decide, by decide, ?_, ?_⟩, by decide, by decide, fun si => ?_⟩
  · simp [wrapSent]
  · simp [wrapSent]
  · by_cases hsi : si = 1
    · exact ⟨1, by decide, by subst hsi; decide⟩
    · exact ⟨0, by decide, by simp [wrapSent, Message.orderedOn, Ne.symm hsi]⟩

theorem wrap_brings : Brings wrapSent wrapArrivals := by
  intro d now hmem
  have hplace : d = chunkAt wrapSent (2 ^ 32) ∨ d = chunkAt wrapSent (2 ^ 32 - 1) := by
    simp only [wrapArrivals, List.mem_cons, Arrival.data.injEq, List.not_mem_nil, or_false] at hmem
    tauto
  rcases hplace with rfl | rfl
  · exact ⟨_, List.mem_cons_self, 2 ^ 32, by decide, by decide⟩
  · exact ⟨_, List.mem_cons_self, 2 ^ 32 - 1, by decide, by decide⟩

/-- **What is read was sent.**  Whatever the network does, the application is given whole messages
of the sender, none of them twice, and on each stream the ordered ones are the first that were sent,
in that order. -/
theorem delivered_as_sent (ho : Outgoing start n ps)
    (hfits : ∀ p ∈ ps, p.message.data.length ≤ bufferLen) (hbrings : Brings ps acts) :
    ∃ log : List Placed,
      (Inbound.after (.ofNat start) size bufferLen acts).delivered
        = log.map (fun p => p.message.delivered)
      ∧ log.Subperm ps
      ∧ ∀ si, (log.map Placed.message).filter (Message.orderedOn si)
          <+: (ps.map Placed.message).filter (Message.orderedOn si) := by
  obtain ⟨g, hg, -, -, hdelivered, -⟩ := inbound_inv size ho hfits hbrings
  exact ⟨g.log, hdelivered, List.subperm_of_subset (hg.log_nodup ho.layout) hg.log,
    hg.ordered_prefix ho⟩

theorem delivered_as_sent_wrap : ∃ log : List Placed,
    (Inbound.after (.ofNat (2 ^ 32 - 1)) 9 9 wrapArrivals).delivered
      = log.map (fun p => p.message.delivered)
    ∧ log.Subperm wrapSent
    ∧ ∀ si, (log.map Placed.message).filter (Message.orderedOn si)
        <+: (wrapSent.map Placed.message).filter (Message.orderedOn si) :=
  delivered_as_sent wrap_outgoing (by decide) wrap_brings

/-- Before an ordered message all the numbers are taken. -/
theorem Outgoing.earlier (ho : Outgoing start n ps) {p : Placed} (hp : p ∈ ps)
    (hord : p.message.unordered = false) {k : Nat} (hk : k ≤ p.message.number) :
    ∃ p' ∈ ps, p'.message.unordered = false ∧ p'.message.si = p.message.si
      ∧ p'.message.number = k := by
  obtain ⟨c, -, hnumbers⟩ := ho.numbered p.message.si
  have hmem : k ∈ List.range c :=
    List.mem_range.mpr (Nat.lt_of_le_of_lt hk (number_lt hp hord hnumbers))
  rw [← hnumbers] at hmem
  obtain ⟨m, hm, rfl⟩ := List.mem_map.mp hmem
  obtain ⟨hsent, hon⟩ := List.mem_filter.mp hm
  obtain ⟨p', hp', rfl⟩ := List.mem_map.mp hsent
  rw [Message.orderedOn, Bool.and_eq_true, Bool.not_eq_true', beq_iff_eq] at hon
  exact ⟨p', hp', hon.1, hon.2, rfl⟩

/-- A stream that gives nothing has nothing to give. -/
theorem Receives.not_ready (hl : Layout ps) {a : Association} {g : Receiving}
    (h : Receives ps a g) {si : UInt16}
    (hread : a.readSctp si = none) : ¬ (g.holding si).Ready := by
  refine read_none hl (h.valid si) ?_
  rw [← h.queue si, Streams.queue]
  rw [Association.readSctp] at hread
  cases hq : a.streams.lookup si with
  | none => rfl
  | some q =>
    rw [hq] at hread
    simp only at hread
    cases hr : q.read with
    | none => exact hr
    | some res => simp [hr] at hread

/-- **What is acknowledged and read is everything.**  When the last TSN in sequence is the last one
that was sent and no stream can be read any more, the application has been given every message. -/
theorem all_delivered (ho : Outgoing start n ps)
    (hfits : ∀ p ∈ ps, p.message.data.length ≤ bufferLen) (hbrings : Brings ps acts)
    (hacked : (Inbound.after (.ofNat start) size bufferLen acts).association.peerLastTsn
      = .ofNat (start + n - 1))
    (hread : ∀ id, (Inbound.after (.ofNat start) size bufferLen acts).association.readSctp id
      = none) :
    ∃ log : List Placed,
      (Inbound.after (.ofNat start) size bufferLen acts).delivered
        = log.map (fun p => p.message.delivered)
      ∧ log.Perm ps
      ∧ ∀ si, (log.map Placed.message).filter (Message.orderedOn si)
          = (ps.map Placed.message).filter (Message.orderedOn si) := by
  obtain ⟨g, hg, hstart, -, hdelivered, -⟩ := inbound_inv size ho hfits hbrings
  have hlast : g.last = start + n - 1 := by
    have hfew := ho.few
    have hpos := ho.pos
    have hbound := ho.last_lt hg hstart
    rw [hg.last, ofNat32_inj (by omega) (by omega)] at hacked
    exact hacked
  have hall : ∀ p ∈ ps, p ∈ g.log := fun p hp => by
    refine hg.all_passed ho.layout (fun si => hg.not_ready ho.layout (hread si))
      (fun p' hp' x hx => ?_)
      (fun p' hp' hord k hk => ho.earlier hp' hord hk) hp
    have hwithin := ho.within p' hp'
    rw [Placed.mem_places] at hx
    exact Or.inl ⟨by omega, by omega⟩
  have hperm : g.log.Perm ps := (List.subperm_of_subset (hg.log_nodup ho.layout) hg.log).antisymm
    (List.subperm_of_subset ho.nodup hall)
  exact ⟨g.log, hdelivered, hperm, fun si =>
    (hg.ordered_prefix ho si).eq_of_length ((hperm.map _).filter _).length_eq⟩

theorem all_delivered_wrap : ∃ log : List Placed,
    (Inbound.after (.ofNat (2 ^ 32 - 1)) 9 9 wrapArrivals).delivered
      = log.map (fun p => p.message.delivered)
    ∧ log.Perm wrapSent
    ∧ ∀ si, (log.map Placed.message).filter (Message.orderedOn si)
        = (wrapSent.map Placed.message).filter (Message.orderedOn si) := by
  refine all_delivered wrap_outgoing (by decide) wrap_brings (by decide +kernel) fun id => ?_
  by_cases hid : id = 1
  · subst hid
    decide +kernel
  · have hkeys : (Inbound.after (.ofNat (2 ^ 32 - 1)) 9 9 wrapArrivals).association.streams.keys
        = [1] := by decide +kernel
    have hnot : id ∉ (Inbound.after (.ofNat (2 ^ 32 - 1)) 9 9 wrapArrivals).association.streams :=
      fun hmem =>
      hid (List.mem_singleton.mp (hkeys ▸ AList.mem_keys.mp hmem))
    rw [Association.readSctp, AList.lookup_eq_none.mpr hnot]

/-- The gap blocks can say what has come: nothing is further ahead than 16 bits reach, or behind the
wrap. -/
def Association.GapsFit (a : Association) : Prop :=
  ∀ c ∈ a.payloadQueue.chunks, a.peerLastTsn < c.tsn ∧ c.tsn.toNat < a.peerLastTsn.toNat + 2 ^ 16

instance (a : Association) : Decidable a.GapsFit :=
  inferInstanceAs (Decidable (∀ c ∈ a.payloadQueue.chunks, _ ∧ _))

/-- A SACK reports a TSN, by its cumulative TSN or by a gap block. -/
def ChunkSelectiveAck.Reports (d : ChunkSelectiveAck) (tsn : UInt32) : Prop :=
  sna32lte tsn d.cumulativeTsnAck = true
  ∨ ∃ i ∈ d.gapAckBlocks.flatMap GapAckBlock.offsets, tsn = d.cumulativeTsnAck + .ofNat i

theorem Receives.offsets_gaps {a : Association} {g : Receiving} (h : Receives ps a g)
    (hfit : a.GapsFit) :
    (a.payloadQueue.getGapAckBlocks a.peerLastTsn).flatMap GapAckBlock.offsets
      = g.ahead.map (· - g.last) := by
  have hnear : ∀ x ∈ g.ahead, x / 2 ^ 32 = g.last / 2 ^ 32 ∧ x < g.last + 2 ^ 16 := by
    intro x hx
    have habove := h.above x hx
    have hle := h.near x hx
    have hmem : UInt32.ofNat x ∈ a.payloadQueue.chunks.map (·.tsn) := by
      rw [h.ahead.tsns]
      exact List.mem_map_of_mem hx
    obtain ⟨c, hc, htsn⟩ := List.mem_map.mp hmem
    obtain ⟨hlt, hreach⟩ := hfit c hc
    rw [htsn, h.last, UInt32.lt_iff_toNat_lt, UInt32.toNat_ofNat', UInt32.toNat_ofNat'] at hlt
    rw [htsn, h.last, UInt32.toNat_ofNat', UInt32.toNat_ofNat'] at hreach
    omega
  rw [h.last]
  exact h.ahead.offsets_getGapAckBlocks h.above (fun x hx => (hnear x hx).2) fun x hx =>
    (hnear x hx).1

/-- **What a SACK reports has come.** -/
theorem reported_has_come (size : UInt32) (bufferLen : Nat) (ho : Outgoing start n ps)
    (hfits : ∀ p ∈ ps, p.message.data.length ≤ bufferLen) (hbrings : Brings ps acts)
    (hgaps : (Inbound.after (.ofNat start) size bufferLen acts).association.GapsFit) {x : Nat}
    (hlow : start ≤ x) (hhigh : x < start + n)
    (hreports : (Inbound.after (.ofNat start) size bufferLen
      acts).association.createSelectiveAckChunk.2.Reports (.ofNat x)) :
    ∃ now, .data (chunkAt ps x) now ∈ acts := by
  obtain ⟨g, hg, hstart, -, -, hcame⟩ := inbound_inv size ho hfits hbrings
  have hfew := ho.few
  have hle := hg.start
  refine hcame x ?_
  rcases hreports with hcum | ⟨i, hi, htsn⟩
  · have hlast := ho.last_lt hg hstart
    simp only [Association.createSelectiveAckChunk] at hcum
    rw [hg.last, sna32lte_ofNat (by omega) (by omega), decide_eq_true_eq] at hcum
    exact Or.inl ⟨by omega, hcum⟩
  · simp only [Association.createSelectiveAckChunk] at hi htsn
    rw [hg.offsets_gaps hgaps] at hi
    obtain ⟨b, hb, rfl⟩ := List.mem_map.mp hi
    have habove := hg.above b hb
    have hwithin := ho.lt_of_got hg (Or.inr hb)
    rw [hg.last, ← UInt32.ofNat_add, Nat.add_sub_cancel' (Nat.le_of_lt habove),
      ofNat32_inj (by omega) (by omega)] at htsn
    exact Or.inr (htsn ▸ hb)

/-- A message in two pieces, of which the second one has come. -/
def gapSent : List Placed := [⟨5, ⟨1, false, 0, .string, [[104], [105]]⟩⟩]

def gapArrivals : List Arrival := [.data (chunkAt gapSent 6) 0]

theorem gap_outgoing : Outgoing 5 2 gapSent := by
  refine ⟨by decide, by decide, ⟨by decide, by decide, ?_, ?_⟩, by decide, by decide, fun si => ?_⟩
  · simp [gapSent]
  · simp [gapSent]
  · by_cases hsi : si = 1
    · exact ⟨1, by decide, by subst hsi; decide⟩
    · exact ⟨0, by decide, by simp [gapSent, Message.orderedOn, Ne.symm hsi]⟩

/-- The SACK has a gap block, and that reports it. -/
theorem reported_has_come_gap :
    (Inbound.after 5 9 9 gapArrivals).association.createSelectiveAckChunk.2.gapAckBlocks = [⟨2, 2⟩]
      ∧ ∃ now, .data (chunkAt gapSent 6) now ∈ gapArrivals := by
  refine ⟨by decide +kernel, ?_⟩
  refine reported_has_come 9 9 gap_outgoing (by decide) ?_ (by decide +kernel)
    (by decide) (by decide)
    (Or.inr ⟨2, by decide +kernel, by decide +kernel⟩)
  intro d now hmem
  obtain ⟨rfl, -⟩ := Arrival.data.inj (List.mem_singleton.mp hmem)
  exact ⟨_, List.mem_cons_self, 6, by decide, by decide⟩

end Runs

end WebrtcBridge.Sctp
