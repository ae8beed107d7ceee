/-
# RTCP that the application asked for

With the forwarder enabled, an interceptor on top of the default chain puts a marshalled copy of
every incoming RTCP packet into a queue, and `webrtc_ffi_poll_rtcp` takes the queue out as a JSON
array of hexadecimal strings.  The two run on different threads.  What they share is the queue,
and both hold its lock for as long as they touch it: the interceptor for a whole batch, the poll
until the queue is empty.

So one step of the system is a batch, a poll, or the interceptor's last statement, which hands the
message to the next interceptor outside the lock.  The invariant that carries the result is
`Captured`: what the polls returned, decoded, followed by what is in the queue, is everything that
was captured, in order.  The queue refuses a batch only when it already holds 8192 packets.

That test is made once for a batch.  So 8192 is not a bound on the queue: a batch that finds one
place free puts all its packets in.  And a full queue refuses what is NEW; nothing in it is ever
dropped.  The last section compares the queue with one that keeps the most recent 8192 packets.

A poll result is read back by `decodePoll`, which knows nothing of how it was written.
-/
import Mathlib.Data.List.DropRight
import WebrtcBridge.Lib.Runs
import WebrtcBridge.Lib.Json
import WebrtcBridge.Lib.Hex
import WebrtcBridge.Stats.Report

namespace WebrtcBridge.Ffi.RtcpQueue

open Lib Lib.Text Lib.Json

/-! ## 1. The code -/

/-- `Packet`: RTP, or a batch of RTCP packets. -/
inductive Packet (Rtp Rtcp : Type) where
  | rtp (packet : Rtp)
  | rtcp (packets : List Rtcp)
  deriving DecidableEq, Repr

/-- `TaggedPacket`: a packet with the time and the addresses it came with. -/
structure TaggedPacket (Tag Rtp Rtcp : Type) where
  tag : Tag
  message : Packet Rtp Rtcp
  deriving DecidableEq, Repr

variable {Tag Rtp Rtcp Next Answer : Type}

/-- The part of `handle_read` under the lock; a packet that cannot be marshalled is left out. -/
def capture (marshal : Rtcp → Option (List UInt8)) (readQueue : List (List UInt8))
    (msg : TaggedPacket Tag Rtp Rtcp) : List (List UInt8) :=
  match msg.message with
  | .rtp _ => readQueue
  | .rtcp rtcpPackets =>
    if readQueue.length < 8192 then readQueue ++ rtcpPackets.filterMap marshal else readQueue

/-- The loop of `webrtc_ffi_poll_rtcp` until the queue is empty. -/
def drain (out : Lib.Text) (first : Bool) : List (List UInt8) → Lib.Text
  | [] => out
  | bytes :: queue =>
    let out := if !first then out ++ [','] else out
    drain (out ++ ['"'] ++ hex bytes ++ ['"']) false queue

/-- `webrtc_ffi_poll_rtcp`: no peer, a peer without forwarder, or the queue.  Gives the text and the
queue that is left. -/
def pollRtcp (peer : Option (Option (List (List UInt8)))) :
    Lib.Text × Option (Option (List (List UInt8))) :=
  match peer with
  | none => (Stats.intoCstring [], none)
  | some none => (Stats.intoCstring (['['] ++ [']']), some none)
  | some (some queue) => (Stats.intoCstring (drain ['['] true queue ++ [']']), some (some []))

/-! ## 2. Reading a result -/

/-- Where the reader is. -/
inductive Place where
  | value
  | inside (entry : Lib.Text)
  | after
  deriving DecidableEq, Repr

/-- The strings of an array behind its opening bracket; no escapes, no white space. -/
def readEntries : Place → Lib.Text → Option (List Lib.Text)
  | .value, '"' :: t => readEntries (.inside []) t
  | .inside entry, '"' :: t => (readEntries .after t).map (entry :: ·)
  | .inside entry, c :: t => readEntries (.inside (entry ++ [c])) t
  | .after, ',' :: t => readEntries .value t
  | .after, [']'] => some []
  | _, _ => none

/-- The packets of a poll result. -/
def decodePoll : Lib.Text → Option (List (List UInt8))
  | ['[', ']'] => some []
  | '[' :: t => (readEntries .value t).bind fun entries => entries.mapM unhex
  | _ => none

/-- An array of hexadecimal strings. -/
def IsHexArray (t : Lib.Text) : Prop :=
  IsArray t ∧ ∃ entries : List Lib.Text, t = arrayText (entries.map inQuotes)
    ∧ ∀ e ∈ entries, 2 ∣ e.length ∧ ∀ c ∈ e, isLowerHex c = true

/-! ## 3. A poll -/

/-- A packet in the array. -/
def entryText (bytes : List UInt8) : Lib.Text := inQuotes (hex bytes)

def pollText (queue : List (List UInt8)) : Lib.Text := arrayText (queue.map entryText)

theorem drain_eq : ∀ (queue : List (List UInt8)) (out : Lib.Text),
    drain out false queue ++ [']'] = out ++ closeArray (queue.map entryText)
  | [], _ => rfl
  | bytes :: queue, out => by
    rw [drain, drain_eq queue]
    simp [closeArray, entryText, inQuotes]

theorem drain_first (queue : List (List UInt8)) :
    drain ['['] true queue ++ [']'] = pollText queue := by
  rcases queue with - | ⟨bytes, queue⟩
  · rfl
  · rw [drain, drain_eq]
    simp [pollText, arrayText, entryText, inQuotes]

theorem strStep_digitChar : ∀ n < 16, strStep .plain (Nat.digitChar n) = some .plain := by decide

/-- Digits need no escape. -/
theorem stringBody_of_plain : ∀ {s : Lib.Text}, (∀ c ∈ s, strStep .plain c = some .plain) →
    StringBody s
  | [], _ => rfl
  | c :: s, h => by
    rw [StringBody, feed, h c (by simp)]
    exact stringBody_of_plain fun x hx => h x (List.mem_cons_of_mem c hx)

theorem isArray_poll (queue : List (List UInt8)) :
    IsArray (pollText queue) := by
  refine isArray_arrayText fun v hv => ?_
  obtain ⟨bytes, -, rfl⟩ := List.mem_map.mp hv
  refine Derives.string (stringBody_of_plain fun c hc => ?_)
  obtain ⟨n, hn, rfl⟩ := mem_hex hc
  exact strStep_digitChar n hn

/-- **What a poll returns**: the whole queue, as an array; the C string changes nothing. -/
theorem pollRtcp_eq (queue : List (List UInt8)) :
    pollRtcp (some (some queue))
      = (pollText queue, some (some [])) := by
  have hnul : '\x00' ∉ pollText queue :=
    (isArray_poll queue).1.nul_not_mem
  simp [pollRtcp, drain_first, Stats.intoCstring, hnul]

theorem isHexArray_poll (queue : List (List UInt8)) :
    IsHexArray (pollText queue) := by
  refine ⟨isArray_poll queue, queue.map hex, by rw [List.map_map]; rfl, fun e he => ?_⟩
  obtain ⟨bytes, -, rfl⟩ := List.mem_map.mp he
  exact ⟨⟨bytes.length, hex_even bytes⟩, hex_lower bytes⟩

theorem quote_not_mem_hex (bytes : List UInt8) : '"' ∉ hex bytes := by
  intro h
  have := hex_lower bytes _ h
  exact absurd this (by decide)

theorem readEntries_inside : ∀ {e : Lib.Text} (entry t : Lib.Text), '"' ∉ e →
    readEntries (.inside entry) (e ++ '"' :: t) = (readEntries .after t).map ((entry ++ e) :: ·)
  | [], entry, t, _ => by simp [readEntries]
  | c :: e, entry, t, h => by
    have hc : c ≠ '"' := fun heq => h (by simp [heq])
    have he : '"' ∉ e := fun hm => h (by simp [hm])
    rw [List.cons_append, readEntries]
    · rw [readEntries_inside (entry ++ [c]) t he]
      simp
    · exact hc

theorem readEntries_value (bytes : List UInt8) (t : Lib.Text) :
    readEntries .value (entryText bytes ++ t) = (readEntries .after t).map (hex bytes :: ·) := by
  have hread := readEntries_inside [] t (quote_not_mem_hex bytes)
  rw [List.nil_append] at hread
  rw [entryText, inQuotes, List.cons_append, List.cons_append, List.append_assoc,
    List.singleton_append, readEntries, hread]

theorem readEntries_close : ∀ queue : List (List UInt8),
    readEntries .after (closeArray (queue.map entryText)) = some (queue.map hex)
  | [] => rfl
  | bytes :: queue => by
    rw [List.map_cons, closeArray, readEntries, readEntries_value, readEntries_close queue]
    rfl

theorem mapM_unhex : ∀ queue : List (List UInt8), (queue.map hex).mapM unhex = some queue
  | [] => rfl
  | bytes :: queue => by
    rw [List.map_cons, List.mapM_cons, unhex_hex, mapM_unhex queue]
    rfl

/-- **A poll result is read back.** -/
theorem decodePoll_poll (queue : List (List UInt8)) : decodePoll (pollText queue) = some queue := by
  rcases queue with - | ⟨bytes, queue⟩
  · rfl
  · have hread : readEntries .value (entryText bytes ++ closeArray (queue.map entryText))
        = some ((bytes :: queue).map hex) := by
      rw [readEntries_value, readEntries_close]
      rfl
    rw [pollText, List.map_cons, arrayText, decodePoll, hread]
    · exact mapM_unhex (bytes :: queue)
    · -- an entry starts with a quote
      intro h
      cases h

/-! ## 4. The system -/

/-- The interceptor and the peer.  `reading` is a message between the two halves of `handle_read`;
`received`, `answers` and `polls` list the messages that came, what `handle_read` answered and what
the polls returned. -/
structure Forwarder (Tag Rtp Rtcp Next Answer : Type) where
  queue : List (List UInt8)
  next : Next
  reading : Option (TaggedPacket Tag Rtp Rtcp)
  received : List (TaggedPacket Tag Rtp Rtcp)
  answers : List Answer
  polls : List Lib.Text
  deriving DecidableEq, Repr

def Forwarder.init (next : Next) : Forwarder Tag Rtp Rtcp Next Answer :=
  ⟨[], next, none, [], [], []⟩

inductive Act (Tag Rtp Rtcp : Type) where
  /-- `handle_read` is called and does its work on the queue -/
  | read (msg : TaggedPacket Tag Rtp Rtcp)
  /-- `self.next.handle_read(msg)` -/
  | passOn
  | poll
  deriving DecidableEq, Repr

section System

variable (marshal : Rtcp → Option (List UInt8))
variable (nextHandleRead : Next → TaggedPacket Tag Rtp Rtcp → Next × Answer)

/-- One step.  `handle_read` has the interceptor to itself, so a message waits for the one
before. -/
def step (s : Forwarder Tag Rtp Rtcp Next Answer) :
    Act Tag Rtp Rtcp → Forwarder Tag Rtp Rtcp Next Answer
  | .read msg =>
    match s.reading with
    | some _ => s
    | none =>
      { s with
        queue := capture marshal s.queue msg
        reading := some msg
        received := s.received ++ [msg] }
  | .passOn =>
    match s.reading with
    | none => s
    | some msg =>
      { s with
        next := (nextHandleRead s.next msg).1
        reading := none
        answers := s.answers ++ [(nextHandleRead s.next msg).2] }
  | .poll =>
    { s with
      queue := ((pollRtcp (some (some s.queue))).2.getD none).getD []
      polls := s.polls ++ [(pollRtcp (some (some s.queue))).1] }

/-- A batch arrives only while the queue holds fewer than 8192 packets. -/
def HasRoom (s : Forwarder Tag Rtp Rtcp Next Answer) : Act Tag Rtp Rtcp → Prop
  | .read msg => ∀ packets, msg.message = .rtcp packets → s.reading = none → s.queue.length < 8192
  | _ => True

/-- What there is to capture in a message. -/
def marshalled (msg : TaggedPacket Tag Rtp Rtcp) : List (List UInt8) :=
  match msg.message with
  | .rtp _ => []
  | .rtcp packets => packets.filterMap marshal

/-- The next interceptor on its own. -/
def passAll (next : Next) (msgs : List (TaggedPacket Tag Rtp Rtcp)) : Next × List Answer :=
  msgs.foldl (fun s msg => ((nextHandleRead s.1 msg).1, s.2 ++ [(nextHandleRead s.1 msg).2]))
    (next, [])

/-- **Nothing is lost, doubled or reordered**, and the next interceptor sees what it would have seen
without the forwarder. -/
structure Captured (next : Next) (s : Forwarder Tag Rtp Rtcp Next Answer) : Prop where
  arrays : ∀ t ∈ s.polls, IsHexArray t
  contents : ∃ packets, s.polls.mapM decodePoll = some packets
    ∧ packets.flatten ++ s.queue = s.received.flatMap (marshalled marshal)
  passed : ∃ passed, s.received = passed ++ s.reading.toList
    ∧ (s.next, s.answers) = passAll nextHandleRead next passed

end System

variable {marshal : Rtcp → Option (List UInt8)}
variable {nextHandleRead : Next → TaggedPacket Tag Rtp Rtcp → Next × Answer}

theorem capture_eq (marshal : Rtcp → Option (List UInt8)) {queue : List (List UInt8)}
    {msg : TaggedPacket Tag Rtp Rtcp}
    (h : ∀ packets, msg.message = .rtcp packets → queue.length < 8192) :
    capture marshal queue msg = queue ++ marshalled marshal msg := by
  rcases hmsg : msg.message with packet | packets
  · simp [capture, marshalled, hmsg]
  · simp [capture, marshalled, hmsg, h packets hmsg]

theorem Captured.step {next : Next} {s : Forwarder Tag Rtp Rtcp Next Answer}
    {a : Act Tag Rtp Rtcp} (hroom : HasRoom s a) (h : Captured marshal nextHandleRead next s) :
    Captured marshal nextHandleRead next (step marshal nextHandleRead s a) := by
  obtain ⟨packets, hdecode, hcontents⟩ := h.contents
  obtain ⟨passed, hreceived, hnext⟩ := h.passed
  cases a with
  | read msg =>
    rcases hreading : s.reading with - | busy
    · -- the batch goes to the end of the queue
      have hcapture := capture_eq marshal fun packets hmsg => hroom packets hmsg hreading
      simp only [RtcpQueue.step, hreading]
      refine ⟨h.arrays, ⟨packets, hdecode, ?_⟩, ⟨passed, ?_, hnext⟩⟩
      · show packets.flatten ++ capture marshal s.queue msg = _
        rw [hcapture, ← List.append_assoc, hcontents]
        simp
      · rw [hreading] at hreceived
        simp [hreceived]
    · simpa [RtcpQueue.step, hreading] using h
  | passOn =>
    rcases hreading : s.reading with - | msg
    · simpa [RtcpQueue.step, hreading] using h
    · simp only [RtcpQueue.step, hreading]
      refine ⟨h.arrays, ⟨packets, hdecode, hcontents⟩, ⟨passed ++ [msg], ?_, ?_⟩⟩
      · simp [hreceived, hreading]
      · rw [passAll, List.foldl_append, ← passAll, ← hnext]
        rfl
  | poll =>
    -- the queue moves into the last result
    simp only [RtcpQueue.step, pollRtcp_eq]
    refine ⟨?_, ⟨packets ++ [s.queue], ?_, ?_⟩, ⟨passed, hreceived, hnext⟩⟩
    · intro t ht
      rcases List.mem_append.mp ht with ht | ht
      · exact h.arrays t ht
      · obtain rfl := List.mem_singleton.mp ht
        exact isHexArray_poll s.queue
    · rw [List.mapM_append, hdecode]
      simp [decodePoll_poll]
    · simpa using hcontents

theorem captured_init (next : Next) :
    Captured marshal nextHandleRead next
      (Forwarder.init next : Forwarder Tag Rtp Rtcp Next Answer) :=
  ⟨by simp [Forwarder.init], ⟨[], rfl, rfl⟩, ⟨[], rfl, rfl⟩⟩

/-- The messages of a run: one that comes while `handle_read` has another has to come again. -/
def messages : Bool → List (Act Tag Rtp Rtcp) → List (TaggedPacket Tag Rtp Rtcp)
  | _, [] => []
  | false, .read msg :: acts => msg :: messages true acts
  | true, .read _ :: acts => messages true acts
  | _, .passOn :: acts => messages false acts
  | busy, .poll :: acts => messages busy acts

/-- **What has been received is what was read.** -/
theorem run_received (acts : List (Act Tag Rtp Rtcp)) (s : Forwarder Tag Rtp Rtcp Next Answer) :
    (run (step marshal nextHandleRead) s acts).received
      = s.received ++ messages s.reading.isSome acts := by
  induction acts generalizing s with
  | nil => simp [messages]
  | cons a acts ih =>
    rw [run_cons, ih]
    cases a with
    | read msg | passOn | poll => cases h : s.reading <;> simp [step, h, messages]

/-- **RTCP capture is a lossless queue**, whatever the two threads do, as long as no batch finds the
queue full. -/
theorem rtcp_capture_fifo (marshal : Rtcp → Option (List UInt8))
    (nextHandleRead : Next → TaggedPacket Tag Rtp Rtcp → Next × Answer) (next : Next)
    (acts : List (Act Tag Rtp Rtcp))
    (hroom : Heeds HasRoom (step marshal nextHandleRead) (.init next) acts) :
    Always (Captured marshal nextHandleRead next) (step marshal nextHandleRead) (.init next) acts
      ∧ ∀ before, before <+: acts →
        (run (step marshal nextHandleRead) (.init next) before).received
          = messages false before := by
  constructor
  · exact always_of_heeds (fun _ _ hok h => h.step hok) acts _ (captured_init next) hroom
  · intro before _
    exact run_received before (.init next)

/-- Packets that are their own bytes and too short below four, and a next interceptor that keeps
what it is given. -/
def sampleMarshal (packet : List UInt8) : Option (List UInt8) :=
  if packet.length < 4 then none else some packet

def sampleNext (seen : List (TaggedPacket Nat Nat (List UInt8)))
    (msg : TaggedPacket Nat Nat (List UInt8)) : List (TaggedPacket Nat Nat (List UInt8)) × Bool :=
  (seen ++ [msg], true)

/-- A batch with a packet that does not marshal, a poll between the halves of a call, an RTP packet,
and a second batch and poll. -/
def sampleActs : List (Act Nat Nat (List UInt8)) :=
  [.read ⟨0, .rtcp [[0x80, 0xc8, 0, 1], [0xff], [0x81, 0xc9, 0, 7]]⟩, .poll, .passOn,
    .read ⟨1, .rtp 5⟩, .passOn, .read ⟨2, .rtcp [[0x80, 0xca, 0, 0]]⟩, .passOn, .poll, .poll]

theorem rtcp_capture_fifo_sample :
    Always (Captured sampleMarshal sampleNext []) (step sampleMarshal sampleNext)
      (.init []) sampleActs
      ∧ (run (step sampleMarshal sampleNext) (.init []) sampleActs).polls
        = ["[\"80c80001\",\"81c90007\"]".toList, "[\"80ca0000\"]".toList, "[]".toList] := by
  have hroom : Heeds HasRoom (step sampleMarshal sampleNext) (.init []) sampleActs := by
    refine ⟨?_, trivial, trivial, ?_, trivial, ?_, trivial, trivial, trivial, trivial⟩
    · exact fun _ _ _ => by decide
    · exact fun _ _ _ => by decide
    · exact fun _ _ _ => by decide
  exact ⟨(rtcp_capture_fifo sampleMarshal sampleNext [] sampleActs hroom).1, by decide⟩

/-! ## 5. The bound -/

section Bound

variable (marshal : Rtcp → Option (List UInt8))
variable (nextHandleRead : Next → TaggedPacket Tag Rtp Rtcp → Next × Answer)

/-- The system together with everything that arrived since the last poll, as if there were room for
all of it. -/
def arrivedStep (s : Forwarder Tag Rtp Rtcp Next Answer × List (List UInt8))
    (a : Act Tag Rtp Rtcp) : Forwarder Tag Rtp Rtcp Next Answer × List (List UInt8) :=
  (step marshal nextHandleRead s.1 a,
    match a with
    | .read msg => if s.1.reading = none then s.2 ++ marshalled marshal msg else s.2
    | .passOn => s.2
    | .poll => [])

/-- **The queue of the documentation**: at most 8192 packets, and the most recent ones. -/
structure KeepsRecent (s : Forwarder Tag Rtp Rtcp Next Answer × List (List UInt8)) : Prop where
  bounded : s.1.queue.length ≤ 8192
  recent : s.1.queue = s.2.rtake 8192

/-- A batch that is read fits into the queue. -/
def Fits (s : Forwarder Tag Rtp Rtcp Next Answer × List (List UInt8)) : Act Tag Rtp Rtcp → Prop
  | .read msg => s.1.reading = none → s.1.queue.length + (marshalled marshal msg).length ≤ 8192
  | _ => True

end Bound

/-- A list that is short enough is all recent. -/
theorem rtake_of_length_le {α : Type} {l : List α} {n : Nat} (h : l.length ≤ n) :
    l.rtake n = l := by
  rw [List.rtake, Nat.sub_eq_zero_of_le h, List.drop_zero]

/-- A batch is taken as a whole or not at all. -/
theorem capture_cases (marshal : Rtcp → Option (List UInt8)) (queue : List (List UInt8))
    (msg : TaggedPacket Tag Rtp Rtcp) :
    (queue.length < 8192 ∧ capture marshal queue msg = queue ++ marshalled marshal msg)
      ∨ (8192 ≤ queue.length ∧ capture marshal queue msg = queue) := by
  by_cases hroom : queue.length < 8192
  · left
    constructor
    · exact hroom
    · exact capture_eq marshal fun _ _ => hroom
  · right
    constructor
    · exact Nat.le_of_not_lt hroom
    · cases hmsg : msg.message with
      | rtp packet => simp [capture, hmsg]
      | rtcp packets => simp [capture, hmsg, hroom]

/-- Nothing is missing from the queue as long as every batch fits. -/
theorem all_arrived_step {s : Forwarder Tag Rtp Rtcp Next Answer × List (List UInt8)}
    {a : Act Tag Rtp Rtcp} (hfits : Fits marshal s a) (hall : s.1.queue = s.2)
    (hlength : s.1.queue.length ≤ 8192) :
    (arrivedStep marshal nextHandleRead s a).1.queue = (arrivedStep marshal nextHandleRead s a).2
      ∧ (arrivedStep marshal nextHandleRead s a).1.queue.length ≤ 8192 := by
  obtain ⟨s, arrived⟩ := s
  simp only at hall hlength
  subst hall
  cases a with
  | read msg =>
    cases hreading : s.reading with
    | none =>
      have hsum : s.queue.length + (marshalled marshal msg).length ≤ 8192 := hfits hreading
      have hcapture : capture marshal s.queue msg = s.queue ++ marshalled marshal msg := by
        rcases capture_cases marshal s.queue msg with ⟨-, h⟩ | ⟨hfull, h⟩
        · exact h
        · -- what fits into a full queue is nothing
          have hnone : marshalled marshal msg = [] := List.eq_nil_of_length_eq_zero (by omega)
          rw [h, hnone, List.append_nil]
      constructor
      · simp [arrivedStep, step, hreading, hcapture]
      · simpa [arrivedStep, step, hreading, hcapture] using hsum
    | some busy =>
      constructor
      · simp [arrivedStep, step, hreading]
      · simpa [arrivedStep, step, hreading] using hlength
  | passOn =>
    cases hreading : s.reading with
    | none | some msg =>
      exact ⟨by simp [arrivedStep, step, hreading], by simpa [arrivedStep, step, hreading]⟩
  | poll => simp [arrivedStep, step, pollRtcp_eq]

/-- **The queue keeps the most recent packets and no more than 8192** in every run in which every
batch fits when it is read. -/
theorem rtcp_queue_recent (marshal : Rtcp → Option (List UInt8))
    (nextHandleRead : Next → TaggedPacket Tag Rtp Rtcp → Next × Answer) (next : Next)
    (acts : List (Act Tag Rtp Rtcp))
    (hfits : Heeds (Fits marshal) (arrivedStep marshal nextHandleRead) (.init next, []) acts) :
    Always KeepsRecent (arrivedStep marshal nextHandleRead) (.init next, []) acts := by
  have hall : Always (fun s => s.1.queue = s.2 ∧ s.1.queue.length ≤ 8192)
      (arrivedStep marshal nextHandleRead) (.init next, []) acts := by
    refine always_of_heeds ?_ acts _ ⟨rfl, Nat.zero_le _⟩ hfits
    intro s a hok h
    exact all_arrived_step hok h.1 h.2
  refine hall.mono ?_
  intro s h
  constructor
  · exact h.2
  · rw [rtake_of_length_le (h.1 ▸ h.2)]
    exact h.1

/-- A batch, a poll, and another batch: the queue has what arrived behind the poll. -/
theorem rtcp_queue_recent_sample :
    Always KeepsRecent (arrivedStep sampleMarshal sampleNext) (.init [], []) sampleActs := by
  refine rtcp_queue_recent sampleMarshal sampleNext [] sampleActs ?_
  refine ⟨?_, trivial, trivial, ?_, trivial, ?_, trivial, trivial, trivial, trivial⟩
  · exact fun _ => by decide
  · exact fun _ => by decide
  · exact fun _ => by decide

/-- One batch of `n` packets in an empty queue. -/
def oneBatch (n : Nat) : List (Act Nat Nat (List UInt8)) :=
  [.read ⟨0, .rtcp (List.replicate n [0x80, 0xc8, 0, 1])⟩]

/-- A full queue, and one packet more. -/
def oneMore : List (Act Nat Nat (List UInt8)) :=
  oneBatch 8192 ++ [.passOn, .read ⟨1, .rtcp [[0x80, 0xc9, 0, 1]]⟩]

/-- What `oneBatch` leads to: the batch is in the queue, whatever its size. -/
theorem run_oneBatch (n : Nat) :
    run (arrivedStep sampleMarshal sampleNext) (.init [], []) (oneBatch n)
      = (⟨List.replicate n [0x80, 0xc8, 0, 1], [],
          some ⟨0, .rtcp (List.replicate n [0x80, 0xc8, 0, 1])⟩,
          [⟨0, .rtcp (List.replicate n [0x80, 0xc8, 0, 1])⟩], [], []⟩,
        List.replicate n [0x80, 0xc8, 0, 1]) := by
  have hmarshal : sampleMarshal [0x80, 0xc8, 0, 1] = some [0x80, 0xc8, 0, 1] := rfl
  simp [oneBatch, arrivedStep, step, Forwarder.init, capture, marshalled, hmarshal]

/-- **A batch is not cut at the bound, and a full queue drops what is new**: a batch of 8193 packets
is in the queue as a whole, and a packet that finds 8192 in the queue is not in it afterwards. -/
theorem rtcp_queue_overfull_and_stale :
    ¬ Always KeepsRecent (arrivedStep sampleMarshal sampleNext) (.init [], []) (oneBatch 8193)
      ∧ ¬ Always KeepsRecent (arrivedStep sampleMarshal sampleNext) (.init [], []) oneMore := by
  constructor
  · intro h
    have hlast := (Always.last _ _ h).bounded
    rw [run_oneBatch] at hlast
    have hlength : 8193 ≤ 8192 := by simpa only [List.length_replicate] using hlast
    exact absurd hlength (by decide)
  · intro h
    have hlast := (Always.last _ _ h).recent
    have hmarshal : sampleMarshal [0x80, 0xc9, 0, 1] = some [0x80, 0xc9, 0, 1] := rfl
    rw [oneMore, run_append, run_oneBatch] at hlast
    simp only [run_cons, run_nil, arrivedStep, step, capture, marshalled, List.length_replicate,
      Nat.lt_irrefl, if_false, if_true, List.filterMap_cons, hmarshal, List.filterMap_nil] at hlast
    -- the newest packet would have to be in the queue
    have hnew : [0x80, 0xc9, 0, 1] ∈ List.replicate 8192 ([0x80, 0xc8, 0, 1] : List UInt8) := by
      rw [hlast, List.rtake_concat_succ]
      exact List.mem_append_right _ List.mem_cons_self
    have hsame := List.eq_of_mem_replicate hnew
    exact absurd hsame (by decide)

/-- **What the test guarantees**: with batches of at most `size` packets the queue holds fewer than
8192 and one batch. -/
theorem rtcp_queue_length (marshal : Rtcp → Option (List UInt8))
    (nextHandleRead : Next → TaggedPacket Tag Rtp Rtcp → Next × Answer) (next : Next) (size : Nat)
    (acts : List (Act Tag Rtp Rtcp))
    (hsize : ∀ msg, .read msg ∈ acts → (marshalled marshal msg).length ≤ size) :
    (run (step marshal nextHandleRead) (.init next) acts).queue.length < 8192 + size := by
  refine run_inv_on
    (fun s : Forwarder Tag Rtp Rtcp Next Answer => s.queue.length < 8192 + size)
    (fun a => ∀ msg, a = .read msg → (marshalled marshal msg).length ≤ size) ?_ acts _ ?_ ?_
  · intro s a hok h
    cases a with
    | read msg =>
      have hbatch := hok msg rfl
      cases hreading : s.reading with
      | none =>
        simp only [step, hreading]
        rcases capture_cases marshal s.queue msg with ⟨hroom, hcapture⟩ | ⟨-, hcapture⟩
        · rw [hcapture, List.length_append]
          omega
        · rw [hcapture]
          exact h
      | some busy => simpa [step, hreading] using h
    | passOn =>
      cases hreading : s.reading with
      | none | some msg => simpa [step, hreading] using h
    | poll =>
      simp only [step, pollRtcp_eq, Option.getD_some, List.length_nil]
      omega
  · intro a ha msg heq
    exact hsize msg (heq ▸ ha)
  · simp only [Forwarder.init, List.length_nil]
    omega

end WebrtcBridge.Ffi.RtcpQueue
