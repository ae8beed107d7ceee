/-
# A session after a LEAVE

The page keeps its WebSocket when the user hangs up: it sends a LEAVE, and an OFFER when the user
calls again.  So a session that a LEAVE has closed should behave like a new one.

It does not, since `close()` takes back less than `handleOffer` has set:

* `remoteDescriptionSet` stays true, so a candidate that comes after the new connection is stored
  and before its remote description is set goes to the connection at once;
* `pendingCandidates` stays as it is, so candidates that were never flushed are flushed into the new
  connection;
* the forwarder is stopped, and nothing starts it again.

`AsFresh` lists the situations in which that shows: candidates decided by the old flag, candidates
from before, a packet that the forwarder takes (it will never write it), and a packet from before
that the consumer still has in hand.  The proof that nothing else does runs the two sessions side by
side, on the same messages, the same interleaving and the same answers of the engine, and `Mirrors`
says what the one that was left has in common with the fresh one.
-/
import WebrtcBridge.Server.Candidates
import WebrtcBridge.Server.Invariants

namespace WebrtcBridge.Server

open Lib

/-! ## 1. The property and the condition -/

def Act.isMessage : Act → Bool
  | .message _ => true
  | _ => false

/-- The last message is a LEAVE, and the socket is still open. -/
def EndsWithLeave (hist : List Act) : Prop :=
  (∀ a ∈ hist, a ≠ .socketClosed) ∧
    ∃ pre req post, hist = pre ++ .message req :: post ∧ req.action = some .leave
      ∧ ∀ a ∈ post, a.isMessage = false

/-- What a continuation is made of: OFFERs and CANDIDATEs, and everything that handles them. -/
def Act.continues : Act → Bool
  | .message req => req.action = some .offer || req.action = some .candidate
  | .socketClosed => false
  | .step _ _ | .consumer | .rtp .. => true

/-- **The session behaves as a fresh one**: the same handlers are at the same points, and it has
answered, called and written the same since it was `s₀`. -/
def Session.Alike (s₀ t fresh : Session) : Prop :=
  t.handlers = fresh.handlers ∧ t.shared.log = s₀.shared.log ++ fresh.shared.log

instance (s₀ t fresh : Session) : Decidable (s₀.Alike t fresh) :=
  inferInstanceAs (Decidable (_ ∧ _))

/-- **What is handed to the forwarder after an ANSWER is echoed**: each job that a packet of `acts`
puts into the queue, once an OFFER has been answered since the session was `s₀`, is written when the
consumer has had enough turns. -/
def EchoesAll (firstMediaCodec : Text → MediaKind → Option Codec) (s₀ : Session) (acts : List Act) :
    Prop :=
  ∀ cs ds payload pt sequenceNumber timestamp,
    acts = cs ++ .rtp payload pt sequenceNumber timestamp :: ds →
    answered ((run (Session.step firstMediaCodec) s₀ cs).shared.log.drop s₀.shared.log.length)
      = true →
    ∀ job ∈ ((run (Session.step firstMediaCodec) s₀ cs).shared.forwarder.rtpCallback payload pt
        sequenceNumber timestamp).queue.drop
        (run (Session.step firstMediaCodec) s₀ cs).shared.forwarder.queue.length,
      ∃ n, ∀ m, n ≤ m → ∃ track, Event.wrote ⟨track, job.packet⟩ ∈
        (run (Session.step firstMediaCodec) s₀ (acts ++ List.replicate m .consumer)).shared.log.drop
          (run (Session.step firstMediaCodec) s₀ cs).shared.log.length

/-- An OFFER has come as far as its flush since the session was `s₀`. -/
def Shared.FlaggedSince (s₀ t : Shared) : Prop := Event.flagged ∈ t.log.drop s₀.log.length

def Point.isCheck : Point → Bool
  | .check _ => true
  | _ => false

def Consumer.isWriting : Consumer → Bool
  | .write _ => true
  | _ => false

/-- A candidate is not decided by the flag from before the LEAVE, and no candidate from before it is
flushed. -/
def Handler.Unmarked (s₀ t : Shared) (h : Handler) : Prop :=
  (h.point.isCheck = true → t.pc = none ∨ t.remoteDescriptionSet = false ∨ s₀.FlaggedSince t)
    ∧ (h.point = .lockFlush → s₀.pendingCandidates = [] ∨ s₀.FlaggedSince t)

/-- The forwarder takes no notice of a packet: it is empty, or of a payload type that is neither one
of the two nor 96, which they are in a new forwarder. -/
def Forwarder.Ignores (f : Forwarder) (payload : List UInt8) (pt : Nat) : Prop :=
  payload = [] ∨ (pt ≠ f.audioPayloadType ∧ pt ≠ f.videoPayloadType ∧ pt ≠ 96)

/-- **The condition**: nothing of what the LEAVE left behind matters. -/
def AsFresh (s₀ t : Session) : Act → Prop
  | .step i _ => ∀ h ∈ t.handlers[i]?, h.Unmarked s₀.shared t.shared
  | .consumer => t.shared.forwarder.consumer.isWriting = false
  | .rtp payload pt _ _ => t.shared.forwarder.Ignores payload pt
  | _ => True

instance (s₀ t : Shared) : Decidable (s₀.FlaggedSince t) := inferInstanceAs (Decidable (_ ∈ _))

instance (s₀ t : Shared) (h : Handler) : Decidable (h.Unmarked s₀ t) :=
  inferInstanceAs (Decidable (_ ∧ _))

instance (f : Forwarder) (payload : List UInt8) (pt : Nat) : Decidable (f.Ignores payload pt) :=
  inferInstanceAs (Decidable (_ ∨ _))

instance (s₀ t : Session) : ∀ a : Act, Decidable (AsFresh s₀ t a)
  | .step _ _ => inferInstanceAs (Decidable (∀ h ∈ _, _))
  | .consumer => inferInstanceAs (Decidable (_ = false))
  | .rtp .. => inferInstanceAs (Decidable (Forwarder.Ignores _ _ _))
  | .message _ | .socketClosed => .isTrue trivial

/-! ## 2. What a LEAVE leaves behind -/

section Left

variable (firstMediaCodec : Text → MediaKind → Option Codec)

/-- Going to stop the forwarder. -/
def Handler.willStop (h : Handler) : Bool :=
  h.point = .stop || h.point = .start && h.req.bind (·.action) = some .leave

/-- The forwarder is stopped, or going to be. -/
def Stopping (s : Shared) (hs : List Handler) : Prop :=
  (∃ h ∈ hs, h.willStop = true) ∨ s.forwarder.Halted

theorem step_halted {s : Shared} (t : Handler) (o : Outcome) (h : s.forwarder.Halted) :
    (t.step firstMediaCodec s o).1.forwarder.Halted :=
  step_forwarder firstMediaCodec o (P := Forwarder.Halted) (fun m h => Forwarder.halted_set m h)
    (fun _ => Forwarder.halted_stop _) t h

theorem stopping_handler {s : Shared} {t : Handler} {rest : List Handler} (o : Outcome)
    (h : Stopping s (t :: rest)) :
    Stopping (t.step firstMediaCodec s o).1 ((t.step firstMediaCodec s o).2.toList ++ rest) := by
  rcases h with ⟨h', hh', hstop⟩ | hhalted
  · rcases List.mem_cons.mp hh' with rfl | hh'
    · -- the handler itself: it comes to `stop`, or it stops the forwarder
      obtain ⟨req, point⟩ := h'
      simp only [Handler.willStop, Bool.or_eq_true, Bool.and_eq_true, decide_eq_true_eq] at hstop
      rcases hstop with rfl | ⟨rfl, hleave⟩
      · exact .inr (Forwarder.halted_stop _)
      · obtain ⟨req, rfl, haction⟩ := Option.bind_eq_some_iff.mp hleave
        have hstep : Handler.step firstMediaCodec s ⟨some req, .start⟩ o
            = (s, some ⟨some req, .stop⟩) := by
          simp only [Handler.step, Handler.dispatch, haction]
          rfl
        rw [hstep]
        exact .inl ⟨_, List.mem_append_left rest List.mem_cons_self, rfl⟩
    · exact .inl ⟨h', List.mem_append_right _ hh', hstop⟩
  · exact .inr (step_halted firstMediaCodec t o hhalted)

theorem step_stopping (s : Session) (a : Act) (h : Stopping s.shared s.handlers) :
    Stopping (s.step firstMediaCodec a).shared (s.step firstMediaCodec a).handlers := by
  have hjoin : ∀ more : List Handler, Stopping s.shared (s.handlers ++ more) := by
    intro more
    refine h.imp_left ?_
    rintro ⟨h', hh', hstop⟩
    exact ⟨h', List.mem_append_left more hh', hstop⟩
  cases a with
  | message req | socketClosed =>
    simp only [Session.step]
    split
    · exact hjoin _
    · exact h
  | step i o =>
    refine turn_inv (I := Stopping) ?_ (fun t rest _ _ => stopping_handler firstMediaCodec o) h
    intro s l l' hp h
    simp only [Stopping, hp.mem_iff] at h ⊢
    exact h
  | consumer => exact h.imp_right Forwarder.halted_turn
  | rtp payload pt sequenceNumber timestamp =>
    refine h.imp_right fun hhalted => ?_
    obtain ⟨jobs, hjobs⟩ :=
      s.shared.forwarder.rtpCallback_queue payload pt sequenceNumber timestamp
    simp only [Session.step, Shared.receive, hjobs]
    exact hhalted

/-- The socket stays open unless it is closed. -/
theorem run_socketOpen (acts : List Act) (hopen : ∀ a ∈ acts, a ≠ .socketClosed) (s : Session)
    (h : s.socketOpen = true) :
    (run (Session.step firstMediaCodec) s acts).socketOpen = true := by
  refine run_inv_on (fun s => s.socketOpen = true) (· ≠ .socketClosed) ?_ acts s hopen h
  intro s a ha h
  cases a with
  | message req => simp [Session.step, h]
  | socketClosed => exact absurd rfl ha
  | step | consumer | rtp => exact h

/-- **What is known of a session that a LEAVE has closed.**  Nothing is said of `pc`, of the flag
and of the pending candidates. -/
structure Session.Left (s : Session) : Prop where
  socketOpen : s.socketOpen = true
  handlers : s.handlers = []
  unlocked : s.shared.locked = false
  closed : ∀ p ∈ s.shared.closed, p < s.shared.nextPc
  halted : s.shared.forwarder.Halted

theorem left_of_leave (first : PcId) {hist : List Act} (hleave : EndsWithLeave hist)
    (hidle : (run (Session.step firstMediaCodec) (.fresh first) hist).handlers = []) :
    (run (Session.step firstMediaCodec) (.fresh first) hist).Left := by
  obtain ⟨hopen, pre, req, post, hhist, haction, -⟩ := hleave
  have hlock := run_lockHeld firstMediaCodec first hist
  have hstopping : Stopping (run (Session.step firstMediaCodec) (.fresh first) hist).shared
      (run (Session.step firstMediaCodec) (.fresh first) hist).handlers := by
    have hpre := run_socketOpen firstMediaCodec pre
      (fun a ha => hopen a (by simp [hhist, ha])) (.fresh first) rfl
    rw [hhist, run_append, run_cons]
    refine run_inv (I := fun s : Session => Stopping s.shared s.handlers)
      (step_stopping firstMediaCodec) post _ (.inl ⟨⟨some req, .start⟩, ?_, ?_⟩)
    · simp [Session.step, hpre]
    · simp [Handler.willStop, haction]
  refine ⟨run_socketOpen firstMediaCodec hist hopen _ rfl, hidle, ?_,
    (run_known firstMediaCodec first hist).closed, ?_⟩
  · rw [hidle, LockHeld, List.countP_nil] at hlock
    simpa using hlock.symm
  · rw [hidle] at hstopping
    exact hstopping.resolve_left (by simp)

end Left

/-! ## 3. Two forwarders -/

/-- **The forwarder that was stopped and the fresh one.**  Neither has anything to write, and the
payload types of the fresh one are those of the other or the initial ones. -/
structure Lags (t f : Forwarder) : Prop where
  halted : t.Halted
  running : f.running = true
  free : f.interrupted = false
  waiting : f.consumer = .check ∨ f.consumer = .take
  queue : f.queue = []
  audio : f.audioPayloadType = t.audioPayloadType ∨ f.audioPayloadType = 96
  video : f.videoPayloadType = t.videoPayloadType ∨ f.videoPayloadType = 96

theorem lags_fresh {t : Forwarder} (h : t.Halted) : Lags t {} :=
  ⟨h, rfl, rfl, .inl rfl, rfl, .inr rfl, .inr rfl⟩

section Lags

variable {t f : Forwarder}

theorem Lags.set (h : Lags t f) (m : Setter) : Lags (t.set m) (f.set m) := by
  have hhalted := Forwarder.halted_set m h.halted
  cases m with
  | audioTrack track | videoTrack track => exact { h with halted := hhalted }
  | audioPayloadType pt => exact { h with halted := hhalted, audio := .inl rfl }
  | videoPayloadType pt => exact { h with halted := hhalted, video := .inl rfl }

/-- A forwarder with other payload types does nothing with a packet, nor does one with an empty
packet. -/
theorem Forwarder.rtpCallback_ignored {f : Forwarder} {payload : List UInt8} {pt : Nat}
    (h : payload = [] ∨ (pt ≠ f.audioPayloadType ∧ pt ≠ f.videoPayloadType))
    (sequenceNumber : UInt16) (timestamp : UInt32) :
    f.rtpCallback payload pt sequenceNumber timestamp = f := by
  rcases h with rfl | ⟨haudio, hvideo⟩
  · simp [Forwarder.rtpCallback, Forwarder.onRtp]
  · rw [Forwarder.rtpCallback, if_neg haudio, if_neg hvideo]

/-- **A packet that the one ignores, both ignore.** -/
theorem Lags.receive (h : Lags t f) {payload : List UInt8} {pt : Nat} (hok : t.Ignores payload pt)
    (sequenceNumber : UInt16) (timestamp : UInt32) :
    t.rtpCallback payload pt sequenceNumber timestamp = t
      ∧ f.rtpCallback payload pt sequenceNumber timestamp = f := by
  constructor
  · exact Forwarder.rtpCallback_ignored (hok.imp_right fun h => ⟨h.1, h.2.1⟩) _ _
  · refine Forwarder.rtpCallback_ignored (hok.imp_right ?_) _ _
    rintro ⟨haudio, hvideo, hfirst⟩
    constructor
    · rcases h.audio with heq | heq
      · rwa [heq]
      · rwa [heq]
    · rcases h.video with heq | heq
      · rwa [heq]
      · rwa [heq]

theorem Lags.turn (h : Lags t f) (hjob : t.consumer.isWriting = false) :
    t.turn.2 = none ∧ f.turn.2 = none ∧ Lags t.turn.1 f.turn.1 := by
  have hstopped : t.Stopped := by
    refine ⟨h.halted, fun job hc => ?_⟩
    rw [hc] at hjob
    cases hjob
  rw [Forwarder.turn_stopped hstopped, Forwarder.turn_waiting h.running h.free h.queue h.waiting]
  exact ⟨rfl, rfl, { h with waiting := .inr rfl }⟩

end Lags

/-! ## 4. Two sessions -/

/-- **What the session that was left, `t`, has in common with the fresh one, `f`**; `s₀` is the
session at the LEAVE.

As long as no OFFER has come to its flush, the flag of `t` may be one from before, and candidates
from before may be in its list. -/
structure Mirrors (s₀ t f : Shared) : Prop where
  nextPc : t.nextPc = f.nextPc
  since : s₀.nextPc ≤ f.nextPc
  locked : t.locked = f.locked
  closed : ∀ p, s₀.nextPc ≤ p → p ∉ t.closed ∧ p ∉ f.closed
  log : t.log = s₀.log ++ f.log
  -- until the first assignment `t` may still have a connection of its own
  pc : ∀ p, f.pc = some p → t.pc = some p ∧ s₀.nextPc ≤ p
  before : Event.flagged ∉ f.log →
    f.remoteDescriptionSet = false
      ∧ t.pendingCandidates = s₀.pendingCandidates ++ f.pendingCandidates
  after : Event.flagged ∈ f.log →
    f.pc ≠ none ∧ f.remoteDescriptionSet = true ∧ t.remoteDescriptionSet = true
      ∧ t.pendingCandidates = f.pendingCandidates
  forwarder : Lags t.forwarder f.forwarder

def Point.isClosing : Point → Bool
  | .stop | .readPc | .nullPc _ | .closePc _ => true
  | _ => false

def Point.isFlushing : Point → Bool
  | .flush _ | .flushOn _ _ _ => true
  | _ => false

theorem Point.free_facts {point : Point} (h : point.isFree = true) :
    point.isClosing = false ∧ point.isFlushing = false ∧ point.target = none
      ∧ point.cell = none := by
  cases point <;> first | exact ⟨rfl, rfl, rfl, rfl⟩ | cases h

/-- A handler of the continuation: it closes nothing, and it deals with connections of its own time
only. -/
structure Follows (s₀ f : Shared) (h : Handler) : Prop where
  stays : h.req.bind (·.action) ≠ some .leave
  closing : h.point.isClosing = false
  pc : h.point.needsPc = true → f.pc ≠ none
  flagged : h.point.isFlushing = true → Event.flagged ∈ f.log
  target : ∀ p, h.point.target = some p → s₀.nextPc ≤ p
  cell : ∀ p, h.point.cell = some p → s₀.nextPc ≤ p

/-- What handlers rely on stays. -/
structure Shared.Later (f f' : Shared) : Prop where
  pc : f.pc ≠ none → f'.pc ≠ none
  flagged : Event.flagged ∈ f.log → Event.flagged ∈ f'.log

section Mirrors

variable {s₀ t f : Shared} {h : Handler}

theorem Follows.later {f' : Shared} (hh : Follows s₀ f h) (hl : f.Later f') : Follows s₀ f' h :=
  { hh with pc := fun hn => hl.pc (hh.pc hn), flagged := fun hf => hl.flagged (hh.flagged hf) }

/-- A handler has what its point asks for. -/
theorem follows_at {req : Option Signal} {point : Point} (hreq : req.bind (·.action) ≠ some .leave)
    (hclosing : point.isClosing = false) (hpc : f.pc ≠ none ∨ point.needsPc = false)
    (hflagged : Event.flagged ∈ f.log ∨ point.isFlushing = false)
    (htarget : ∀ p ∈ point.target, s₀.nextPc ≤ p) (hcell : ∀ p ∈ point.cell, s₀.nextPc ≤ p) :
    Follows s₀ f ⟨req, point⟩ := by
  refine ⟨hreq, hclosing, fun hneeds => ?_, fun hflushing => ?_, htarget, hcell⟩
  · exact hpc.resolve_right (by simpa using hneeds)
  · exact hflagged.resolve_right (by simpa using hflushing)

/-- At a free point a handler relies on `pc` at most. -/
theorem follows_free {req : Option Signal} {point : Point}
    (hreq : req.bind (·.action) ≠ some .leave)
    (hfree : point.isFree = true) (hpc : f.pc ≠ none ∨ point.needsPc = false) :
    Follows s₀ f ⟨req, point⟩ := by
  obtain ⟨hclosing, hflushing, htarget, hcell⟩ := Point.free_facts hfree
  refine follows_at hreq hclosing hpc (.inr hflushing) ?_ ?_
  · simp [htarget]
  · simp [hcell]

/-- Entries in both logs. -/
theorem Mirrors.write (hm : Mirrors s₀ t f) (es : List Event) (hes : Event.flagged ∉ es) :
    Mirrors s₀ { t with log := t.log ++ es } { f with log := f.log ++ es } := by
  have hflagged : Event.flagged ∈ f.log ++ es ↔ Event.flagged ∈ f.log := by
    simp [hes]
  refine { hm with log := ?_, before := ?_, after := ?_ }
  · rw [hm.log, List.append_assoc]
  · rw [hflagged]
    exact hm.before
  · rw [hflagged]
    exact hm.after

theorem Mirrors.emit (hm : Mirrors s₀ t f) (e : Event) (he : e ≠ .flagged) :
    Mirrors s₀ (t.emit e) (f.emit e) :=
  hm.write [e] (by simpa using he.symm)

theorem later_write (f : Shared) (es : List Event) : f.Later { f with log := f.log ++ es } :=
  ⟨id, List.mem_append_left es⟩

/-- A call on a connection of the continuation returns in both or in neither. -/
theorem Mirrors.returned (hm : Mirrors s₀ t f) {p : PcId} (hp : s₀.nextPc ≤ p) (o : Outcome) :
    Handler.returned t p o = Handler.returned f p o := by
  obtain ⟨ht, hf⟩ := hm.closed p hp
  simp [Handler.returned, ht, hf]

/-- A handler that needs `pc` finds the same connection in both. -/
theorem Mirrors.found (hm : Mirrors s₀ t f) (hpc : f.pc ≠ none) :
    ∃ p, f.pc = some p ∧ t.pc = some p ∧ s₀.nextPc ≤ p := by
  obtain ⟨p, hp⟩ := Option.ne_none_iff_exists'.mp hpc
  exact ⟨p, hp, hm.pc p hp⟩

theorem Mirrors.flaggedSince (hm : Mirrors s₀ t f) : s₀.FlaggedSince t ↔ Event.flagged ∈ f.log := by
  rw [Shared.FlaggedSince, hm.log, List.drop_left]

theorem Mirrors.sameView (hm : Mirrors s₀ t f) (hh : Follows s₀ f h) : h.SameView f t := by
  refine ⟨fun hneeds => ?_, fun p hp => ?_⟩
  · obtain ⟨p, hf, ht, -⟩ := hm.found (hh.pc hneeds)
    rw [hf, ht]
  · obtain ⟨ht, hf⟩ := hm.closed p (hh.target p hp)
    simp [ht, hf]

end Mirrors

/-! ## 5. A step of both -/

/-- **What a step of a handler in both sessions comes to**: the same is left of the handler, and the
sessions go on side by side. -/
structure Together (s₀ f : Shared) (rt rf : Shared × Option Handler) : Prop where
  same : rt.2 = rf.2
  mirrors : Mirrors s₀ rt.1 rf.1
  later : f.Later rf.1
  follows : ∀ h' ∈ rf.2, Follows s₀ rf.1 h'

section Steps

variable {s₀ t f : Shared} {req : Option Signal} (firstMediaCodec : Text → MediaKind → Option Codec)
  (o : Outcome)

theorem together_end {t' f' : Shared} (hm : Mirrors s₀ t' f') (hl : f.Later f') :
    Together s₀ f (t', none) (f', none) :=
  ⟨rfl, hm, hl, by simp⟩

theorem together_some {t' f' : Shared} (hm : Mirrors s₀ t' f') (hl : f.Later f') {h' : Handler}
    (hh' : Follows s₀ f' h') : Together s₀ f (t', some h') (f', some h') := by
  refine ⟨rfl, hm, hl, ?_⟩
  rintro h'' ⟨⟩
  exact hh'

theorem together_calm {h : Handler} (hm : Mirrors s₀ t f) (hh : Follows s₀ f h)
    (hc : h.point.isCalm = true) :
    Together s₀ f (h.step firstMediaCodec t o) (h.step firstMediaCodec f o) := by
  obtain ⟨es, next, hcalm, hsame⟩ := step_calm firstMediaCodec o f hc
  have ht := hsame t (hm.sameView hh)
  have hf := hsame f ⟨fun _ => rfl, fun _ _ => rfl⟩
  simp only at ht hf
  rw [ht, hf]
  refine ⟨rfl, hm.write es hcalm.entries, later_write f es, fun h' hh' => ?_⟩
  have hreq : h'.req.bind (·.action) ≠ some .leave := by
    rw [hcalm.req h' hh']
    exact hh.stays
  have hleads := hcalm.leads h' hh'
  obtain ⟨req', point'⟩ := h'
  -- where it goes on with `pc` it has read the same connection in both
  cases hleads with
  | free hfree hneeds =>
    refine follows_free hreq hfree ?_
    cases hn : point'.needsPc with
    | true => exact .inl (hh.pc (hneeds hn))
    | false => exact .inr rfl
  | invoke hp hneeds call =>
    refine follows_at hreq rfl (.inl (hh.pc hneeds)) (.inr rfl) ?_ (by simp [Point.cell])
    rintro q ⟨⟩
    exact (hm.pc _ hp).2
  | direct hp hneeds c =>
    refine follows_at hreq rfl (.inl (hh.pc hneeds)) (.inr rfl) ?_ (by simp [Point.cell])
    rintro q ⟨⟩
    exact (hm.pc _ hp).2
  | leave hleave => exact absurd hleave hh.stays

theorem together_create (hm : Mirrors s₀ t f) (hh : Follows s₀ f ⟨req, .create⟩) :
    Together s₀ f (Handler.step firstMediaCodec t ⟨req, .create⟩ o)
      (Handler.step firstMediaCodec f ⟨req, .create⟩ o) := by
  simp only [Handler.step, hm.nextPc]
  split
  · exact together_end (hm.emit .errorEvent (by simp)) (later_write f _)
  · have hnext : Mirrors s₀ { t with nextPc := f.nextPc + 1 } { f with nextPc := f.nextPc + 1 } :=
      { hm with nextPc := rfl, since := Nat.le_succ_of_le hm.since }
    refine together_some (hnext.emit (.created f.nextPc) (by simp)) ?_ ?_
    · exact ⟨id, List.mem_append_left _⟩
    · refine follows_at hh.stays rfl (.inr rfl) (.inr rfl) (by simp [Point.target]) ?_
      rintro p ⟨⟩
      exact hm.since

theorem together_assign {p : PcId} (hm : Mirrors s₀ t f) (hh : Follows s₀ f ⟨req, .assign p⟩) :
    Together s₀ f (Handler.step firstMediaCodec t ⟨req, .assign p⟩ o)
      (Handler.step firstMediaCodec f ⟨req, .assign p⟩ o) := by
  have hpc : Mirrors s₀ { t with pc := some p } { f with pc := some p } := by
    refine { hm with pc := ?_, after := fun hf => ⟨Option.some_ne_none p, (hm.after hf).2⟩ }
    rintro q ⟨⟩
    exact ⟨rfl, hh.cell p rfl⟩
  refine together_some hpc ?_ ?_
  · exact ⟨fun _ => Option.some_ne_none p, id⟩
  · exact follows_free hh.stays rfl (.inl (Option.some_ne_none p))

theorem together_setters {todo : List Setter} (hm : Mirrors s₀ t f)
    (hh : Follows s₀ f ⟨req, .setters todo⟩) :
    Together s₀ f (Handler.step firstMediaCodec t ⟨req, .setters todo⟩ o)
      (Handler.step firstMediaCodec f ⟨req, .setters todo⟩ o) := by
  cases todo with
  | nil => exact together_some hm ⟨id, id⟩ (follows_free hh.stays rfl (.inl (hh.pc rfl)))
  | cons m todo =>
    refine together_some ?_ ?_ ?_
    · exact { hm with forwarder := hm.forwarder.set m }
    · exact ⟨id, id⟩
    · exact follows_free hh.stays rfl (.inl (hh.pc rfl))

/-- **The flush begins**: what is flushed is the same, since nothing from before the LEAVE is in the
list. -/
theorem together_lockFlush (hm : Mirrors s₀ t f) (hh : Follows s₀ f ⟨req, .lockFlush⟩)
    (hok : s₀.pendingCandidates = [] ∨ s₀.FlaggedSince t) :
    Together s₀ f (Handler.step firstMediaCodec t ⟨req, .lockFlush⟩ o)
      (Handler.step firstMediaCodec f ⟨req, .lockFlush⟩ o) := by
  have hpending : t.pendingCandidates = f.pendingCandidates := by
    by_cases hflag : Event.flagged ∈ f.log
    · exact (hm.after hflag).2.2.2
    · rcases hok with hnil | hsince
      · rw [(hm.before hflag).2, hnil, List.nil_append]
      · exact absurd (hm.flaggedSince.mp hsince) hflag
  simp only [Handler.step, hm.locked, hpending]
  split
  · exact together_some hm ⟨id, id⟩ hh
  · have hin : Event.flagged ∈ f.log ++ [Event.flagged] := by simp
    have hlog : t.log ++ [Event.flagged] = s₀.log ++ (f.log ++ [Event.flagged]) := by
      rw [hm.log, List.append_assoc]
    refine together_some ?_ ?_ ?_
    · exact
        { hm with
          locked := rfl, log := hlog, before := fun hn => absurd hin hn
          after := fun _ => ⟨hh.pc rfl, rfl, rfl, rfl⟩ }
    · exact ⟨id, fun _ => hin⟩
    · exact follows_at hh.stays rfl (.inl (hh.pc rfl)) (.inl hin) (by simp [Point.target])
        (by simp [Point.cell])

theorem together_flush {todo : List Candidate} (hm : Mirrors s₀ t f)
    (hh : Follows s₀ f ⟨req, .flush todo⟩) :
    Together s₀ f (Handler.step firstMediaCodec t ⟨req, .flush todo⟩ o)
      (Handler.step firstMediaCodec f ⟨req, .flush todo⟩ o) := by
  have hflag : Event.flagged ∈ f.log := hh.flagged rfl
  cases todo with
  | nil =>
    obtain ⟨hpc, hf, ht, -⟩ := hm.after hflag
    refine together_some ?_ ?_ ?_
    · exact
        { hm with
          locked := rfl, before := fun hn => absurd hflag hn, after := fun _ => ⟨hpc, hf, ht, rfl⟩ }
    · exact ⟨id, id⟩
    · exact follows_free hh.stays rfl (.inl hpc)
  | cons c todo =>
    obtain ⟨p, hf, ht, hp⟩ := hm.found (hh.pc rfl)
    simp only [Handler.step, hf, ht]
    refine together_some hm ⟨id, id⟩ ?_
    refine follows_at hh.stays rfl (.inl (hh.pc rfl)) (.inl hflag) ?_ (by simp [Point.cell])
    rintro q ⟨⟩
    exact hp

theorem Mirrors.unlock (hm : Mirrors s₀ t f) :
    Mirrors s₀ { t with locked := false } { f with locked := false } :=
  { hm with locked := rfl }

theorem together_flushOn {p : PcId} {c : Candidate} {todo : List Candidate} (hm : Mirrors s₀ t f)
    (hh : Follows s₀ f ⟨req, .flushOn p c todo⟩) :
    Together s₀ f (Handler.step firstMediaCodec t ⟨req, .flushOn p c todo⟩ o)
      (Handler.step firstMediaCodec f ⟨req, .flushOn p c todo⟩ o) := by
  simp only [Handler.step, hm.returned (hh.target p rfl) o]
  split
  · have hflag := List.mem_append_left [Event.called p (.addIceCandidate c) true] (hh.flagged rfl)
    refine together_some (hm.emit (.called p (.addIceCandidate c) true) (by simp))
      (later_write f _) ?_
    exact follows_at hh.stays rfl (.inl (hh.pc rfl)) (.inl hflag) (by simp [Point.target])
      (by simp [Point.cell])
  · have hcalled := hm.unlock.emit (.called p (.addIceCandidate c) false) (by simp)
    refine together_end (hcalled.emit .errorEvent (by simp)) ⟨id, fun hf => ?_⟩
    exact List.mem_append_left _ (List.mem_append_left _ hf)

theorem together_lockCheck {c : Candidate} (hm : Mirrors s₀ t f)
    (hh : Follows s₀ f ⟨req, .lockCheck c⟩) :
    Together s₀ f (Handler.step firstMediaCodec t ⟨req, .lockCheck c⟩ o)
      (Handler.step firstMediaCodec f ⟨req, .lockCheck c⟩ o) := by
  simp only [Handler.step, hm.locked]
  split
  · exact together_some hm ⟨id, id⟩ hh
  · refine together_some ?_ ?_ ?_
    · exact { hm with locked := rfl }
    · exact ⟨id, id⟩
    · exact follows_at hh.stays rfl (.inr rfl) (.inr rfl) (by simp [Point.target])
        (by simp [Point.cell])

/-- **A candidate is decided alike in both**: by the flag of an OFFER of the continuation, or it is
buffered. -/
theorem together_check {c : Candidate} (hm : Mirrors s₀ t f) (hh : Follows s₀ f ⟨req, .check c⟩)
    (hok : t.pc = none ∨ t.remoteDescriptionSet = false ∨ s₀.FlaggedSince t) :
    Together s₀ f (Handler.step firstMediaCodec t ⟨req, .check c⟩ o)
      (Handler.step firstMediaCodec f ⟨req, .check c⟩ o) := by
  by_cases hflag : Event.flagged ∈ f.log
  · obtain ⟨hpc, hfset, htset, -⟩ := hm.after hflag
    obtain ⟨p, hf, ht, -⟩ := hm.found hpc
    have htdirect : ¬ (t.pc = none ∨ t.remoteDescriptionSet = false) := by simp [ht, htset]
    have hfdirect : ¬ (f.pc = none ∨ f.remoteDescriptionSet = false) := by simp [hf, hfset]
    simp only [Handler.step, if_neg htdirect, if_neg hfdirect]
    refine together_some hm.unlock ?_ ?_
    · exact ⟨id, id⟩
    · exact follows_free hh.stays rfl (.inl hpc)
  · obtain ⟨hfset, hpending⟩ := hm.before hflag
    have ht : t.pc = none ∨ t.remoteDescriptionSet = false :=
      hok.imp_right fun h => h.resolve_right fun hs => hflag (hm.flaggedSince.mp hs)
    have hf : f.pc = none ∨ f.remoteDescriptionSet = false := .inr hfset
    have hmore : t.pendingCandidates ++ [c]
        = s₀.pendingCandidates ++ (f.pendingCandidates ++ [c]) := by
      rw [hpending, List.append_assoc]
    have hbuffer : Mirrors s₀
        { t with pendingCandidates := t.pendingCandidates ++ [c], locked := false }
        { f with pendingCandidates := f.pendingCandidates ++ [c], locked := false } :=
      { hm with
        locked := rfl, before := fun _ => ⟨hfset, hmore⟩, after := fun h => absurd h hflag }
    simp only [Handler.step, if_pos ht, if_pos hf]
    exact together_end (hbuffer.emit (.response _ .ack) (by simp)) ⟨id, List.mem_append_left _⟩

/-- **A step of a handler in both sessions.** -/
theorem together_step {h : Handler} (hm : Mirrors s₀ t f) (hh : Follows s₀ f h)
    (hok : h.Unmarked s₀ t) :
    Together s₀ f (h.step firstMediaCodec t o) (h.step firstMediaCodec f o) := by
  cases hc : h.point.isCalm with
  | true => exact together_calm firstMediaCodec o hm hh hc
  | false =>
    obtain ⟨req, point⟩ := h
    cases point with
    | create => exact together_create firstMediaCodec o hm hh
    | assign p => exact together_assign firstMediaCodec o hm hh
    | setters => exact together_setters firstMediaCodec o hm hh
    | lockFlush => exact together_lockFlush firstMediaCodec o hm hh (hok.2 rfl)
    | flush todo => exact together_flush firstMediaCodec o hm hh
    | flushOn p c todo => exact together_flushOn firstMediaCodec o hm hh
    | lockCheck c => exact together_lockCheck firstMediaCodec o hm hh
    | check c => exact together_check firstMediaCodec o hm hh (hok.1 rfl)
    | stop | readPc | nullPc | closePc => cases hh.closing
    | _ => cases hc

end Steps

/-! ## 6. Every continuation -/

/-- The shared fields of both, and the handlers they have in common. -/
def Side (s₀ t f : Shared) (hs : List Handler) : Prop :=
  Mirrors s₀ t f ∧ ∀ h ∈ hs, Follows s₀ f h

/-- **The two sessions side by side.** -/
structure Beside (s₀ t f : Session) : Prop where
  socket : t.socketOpen = true ∧ f.socketOpen = true
  handlers : t.handlers = f.handlers
  side : Side s₀.shared t.shared f.shared t.handlers

/-- A session that was left and a fresh one begin side by side. -/
theorem beside_fresh {s₀ : Session} (h : s₀.Left) : Beside s₀ s₀ (.fresh s₀.shared.nextPc) := by
  refine ⟨⟨h.socketOpen, rfl⟩, h.handlers, ?_, by simp [h.handlers]⟩
  refine ⟨rfl, Nat.le_refl _, h.unlocked, ?_, ?_, ?_, ?_, ?_, lags_fresh h.halted⟩
  · exact fun p hp => ⟨fun hc => Nat.not_lt.mpr hp (h.closed p hc), List.not_mem_nil⟩
  all_goals simp [Session.fresh]

section Runs

variable (firstMediaCodec : Text → MediaKind → Option Codec)

/-- The same handler takes its step in both. -/
theorem side_turn {s₀ t f : Shared} {hs : List Handler} {i : Nat} {o : Outcome}
    (hok : ∀ h ∈ hs[i]?, h.Unmarked s₀ t) (h : Side s₀ t f hs) :
    (turn (Handler.step firstMediaCodec) t hs i o).2
      = (turn (Handler.step firstMediaCodec) f hs i o).2
      ∧ Side s₀ (turn (Handler.step firstMediaCodec) t hs i o).1
        (turn (Handler.step firstMediaCodec) f hs i o).1
        (turn (Handler.step firstMediaCodec) t hs i o).2 := by
  refine turn_lockstep (R := Side s₀) ?_ ?_ h
  · intro t f l l' hp hside
    exact ⟨hside.1, fun h' hh' => hside.2 h' (hp.mem_iff.mpr hh')⟩
  · rintro h' rest hh' ⟨hm, hfollows⟩
    have htogether :=
      together_step firstMediaCodec o hm (hfollows h' List.mem_cons_self) (hok h' hh')
    refine ⟨htogether.same, htogether.mirrors, fun h'' hh'' => ?_⟩
    rw [htogether.same] at hh''
    rcases List.mem_append.mp hh'' with hh'' | hh''
    · exact htogether.follows h'' (Option.mem_toList.mp hh'')
    · exact (hfollows h'' (.tail _ hh'')).later htogether.later

/-- **A step of both sessions**, under the condition. -/
theorem step_beside (s₀ t f : Session) (a : Act) (ha : a.continues = true) (hok : AsFresh s₀ t a)
    (h : Beside s₀ t f) : Beside s₀ (t.step firstMediaCodec a) (f.step firstMediaCodec a) := by
  obtain ⟨⟨ht, hf⟩, hhandlers, hside⟩ := h
  obtain ⟨hm, hfollows⟩ := id hside
  cases a with
  | message req =>
    have hnew : Follows s₀.shared f.shared ⟨some req, .start⟩ := by
      refine follows_free ?_ rfl (.inr rfl)
      intro hleave
      simp only [Option.bind_some] at hleave
      simp [Act.continues, hleave] at ha
    simp only [Session.step, ht, hf, if_true]
    refine ⟨⟨rfl, rfl⟩, by rw [hhandlers], hm, fun h' hh' => ?_⟩
    rcases List.mem_append.mp hh' with hh' | hh'
    · exact hfollows h' hh'
    · rw [List.mem_singleton.mp hh']
      exact hnew
  | socketClosed => cases ha
  | step i o =>
    obtain ⟨hsame, hnext⟩ := side_turn firstMediaCodec (o := o) hok hside
    simp only [Session.step, ← hhandlers]
    exact ⟨⟨ht, hf⟩, hsame, hnext⟩
  | consumer =>
    obtain ⟨hwt, hwf, hlags⟩ := hm.forwarder.turn hok
    have hlogs := hm.write [] List.not_mem_nil
    simp only [Session.step, Shared.consume, hwt, hwf]
    exact ⟨⟨ht, hf⟩, hhandlers, { hlogs with forwarder := hlags },
      fun h' hh' => (hfollows h' hh').later ⟨id, List.mem_append_left _⟩⟩
  | rtp payload pt sequenceNumber timestamp =>
    obtain ⟨hrt, hrf⟩ := hm.forwarder.receive hok sequenceNumber timestamp
    simp only [Session.step, Shared.receive, hrt, hrf]
    exact ⟨⟨ht, hf⟩, hhandlers, hm, hfollows⟩

/-- Where every packet is ignored, none has to be echoed. -/
theorem echoesAll_of_ignored (s₀ : Session) {acts : List Act}
    (hok : Heeds (AsFresh s₀) (Session.step firstMediaCodec) s₀ acts) :
    EchoesAll firstMediaCodec s₀ acts := by
  rintro cs ds payload pt sequenceNumber timestamp rfl - job hjob
  obtain ⟨-, hignored, -⟩ := (heeds_append cs _ s₀).mp hok
  rw [Forwarder.rtpCallback_ignored (Or.imp_right (fun h => ⟨h.1, h.2.1⟩) hignored),
    List.drop_length] at hjob
  cases hjob

end Runs

/-- A call and its end. -/
def firstCall : List Act := wholeOffer 0 ++ wholeLeave

/-- A candidate before the OFFER, one after it, a packet of a third payload type, and turns of the
consumer. -/
def secondCall : List Act :=
  wholeCandidate "early".toList 3 ++ wholeOffer 1 ++ wholeCandidate "late".toList 5
    ++ [.rtp [1] 111 7 9, .consumer, .consumer]

theorem endsWithLeave_firstCall : EndsWithLeave firstCall :=
  ⟨by decide, wholeOffer 0, leaveReq, List.replicate 5 (.step 0 .returns), rfl, rfl, by decide⟩

/-- A forwarder with nothing in hand that has been stopped stays so. -/
theorem step_stopped (firstMediaCodec : Text → MediaKind → Option Codec) (s : Session) (a : Act)
    (h : s.shared.forwarder.Stopped) : (s.step firstMediaCodec a).shared.forwarder.Stopped := by
  cases a with
  | message req | socketClosed =>
    simp only [Session.step]
    split <;> exact h
  | step i o =>
    refine turn_inv (I := fun (s : Shared) _ => s.forwarder.Stopped) (fun _ h => h) ?_ h
    intro t rest _ _ hstopped
    exact step_forwarder firstMediaCodec o (P := Forwarder.Stopped)
      (fun m h => Forwarder.stopped_set m h)
      (fun h => ⟨Forwarder.halted_stop _, h.2⟩) t hstopped
  | consumer =>
    simp only [Session.step, Shared.consume, Forwarder.turn_stopped h]
    exact ⟨h.1, by simp⟩
  | rtp payload pt sequenceNumber timestamp =>
    obtain ⟨jobs, hjobs⟩ :=
      s.shared.forwarder.rtpCallback_queue payload pt sequenceNumber timestamp
    simp only [Session.step, Shared.receive, hjobs]
    exact h

/-- **After a LEAVE no packet is ever written again**, whatever follows: at no point of any
continuation does the consumer have anything to write, unless it had it in hand at the LEAVE. -/
theorem no_echo_after_leave (firstMediaCodec : Text → MediaKind → Option Codec) (first : PcId)
    (hist acts : List Act) (hleave : EndsWithLeave hist)
    (hidle : (run (Session.step firstMediaCodec) (.fresh first) hist).handlers = [])
    (hjob : (run (Session.step firstMediaCodec) (.fresh first)
      hist).shared.forwarder.consumer.isWriting
      = false) :
    (run (Session.step firstMediaCodec) (.fresh first) (hist ++ acts)).shared.forwarder.turn.2
      = none := by
  have hstopped :
      (run (Session.step firstMediaCodec) (.fresh first) hist).shared.forwarder.Stopped := by
    refine ⟨(left_of_leave firstMediaCodec first hleave hidle).halted, fun job hc => ?_⟩
    rw [hc] at hjob
    cases hjob
  rw [run_append,
    Forwarder.turn_stopped (run_inv (I := fun s : Session => s.shared.forwarder.Stopped)
    (step_stopped firstMediaCodec) acts _ hstopped)]

/-- A candidate between the assignment of the second connection and its remote description. -/
def earlyCandidate : List Act :=
  .message offerReq :: List.replicate 3 (.step 0 .returns)
    ++ .message { action := some .candidate, payload := some { candidate := some "c".toList } }
    :: List.replicate 5 (.step 1 .returns)

/-- A whole second call, a packet, and turns of the consumer. -/
def secondEcho : List Act := wholeOffer 0 ++ .rtp [1] 8 7 9 :: List.replicate 3 .consumer

/-- The packet, as it is written to the audio track. -/
def echoed : Event := .wrote ⟨⟨1, 11⟩, [0x80, 8, 0, 7, 0, 0, 0, 9, 0, 0, 0, 11, 1]⟩

end WebrtcBridge.Server
