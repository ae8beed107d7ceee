/-
# The remote track pollers

`register_track` puts a remote track into `REMOTE_TRACKS`.  Each call of
`webrtc_ffi_track_remote_set_callbacks` stores callbacks for the id and then, in a second
statement, spawns a poller if the track is still registered: one poller per CALL, all of them
receiving from the track's one queue.  A poller that takes `OnEnding`, `OnEnded` or `OnError`
leaves its loop and removes the track and the callbacks, in two statements; on `None` it sleeps
1 ms and polls again, whatever happened before.

So an ending event ends ONE poller, and nothing else ever ends one.  The accounting
(`TrackSys.Accounted`): pollers that have taken an ending event and ending events still queued add
up to the ending events sent.  With it, `track_pollers_end_iff`: the `n` pollers of a track end
after the queue has ended exactly if at least `n` ending events were sent.  The Java side makes
one registration per track, `n = 1`; then "the track must end by an explicit ending event".

`pollers_end_iff` puts the two kinds of poller together.
-/
import Mathlib.Data.Finset.Lattice.Fold
import WebrtcBridge.Ffi.Boundary
import WebrtcBridge.Ffi.DataChannelPoller

namespace WebrtcBridge.Ffi

open Lib

/-! ## 1. Events, callbacks and the loop body -/

/-- `RTCTrackEventInit`, as far as the poller reads it. -/
structure TrackInit where
  ssrc : UInt32
  rid : Option Text
  deriving DecidableEq, Repr

/-- An RTP packet, as far as the poller reads it. -/
structure RtpPacket where
  payloadType : UInt8
  sequenceNumber : UInt16
  timestamp : UInt32
  ssrc : UInt32
  payload : List UInt8
  deriving DecidableEq, Repr

/-- `TrackRemoteEvent`. -/
inductive TrackRemoteEvent where
  | onOpen (init : TrackInit)
  | onError
  | onEnding
  | onEnded
  | onMute
  | onUnmute
  | onRtpPacket (pkt : RtpPacket)
  | onRtcpPacket
  deriving DecidableEq, Repr

/-- `TrackEventCallbacks`. -/
structure TrackEventCallbacks (F : Type) where
  onRtp : Option F
  onOpen : Option F
  deriving DecidableEq, Repr

/-- A call into the application, without its target. -/
inductive TrackCall where
  | onOpen (ssrc : UInt32) (rid : Text)
  | onRtp (payload : List UInt8) (payloadType : UInt8) (sequenceNumber : UInt16)
      (timestamp ssrc : UInt32)
  deriving DecidableEq, Repr

/-- What a poller does between two polls.  The two removals are the statements after the loop. -/
inductive TrackOp where
  | call (c : TrackCall)
  | sleep
  | removeTrack
  | removeEntry
  deriving DecidableEq, Repr

/-- `CString::new(rid.unwrap_or_default()).unwrap_or_default()`: a text with a NUL in it is
replaced by the empty one. -/
def ridText (rid : Option Text) : Text :=
  if '\x00' ∈ rid.getD [] then [] else rid.getD []

/-- One turn of the loop; it has no local state. -/
def trackReact : Option TrackRemoteEvent → List TrackOp
  | some (.onOpen init) => [.call (.onOpen init.ssrc (ridText init.rid))]
  | some (.onRtpPacket pkt) =>
    [.call (.onRtp pkt.payload pkt.payloadType pkt.sequenceNumber pkt.timestamp pkt.ssrc)]
  | some .onEnding => [.removeTrack, .removeEntry]
  | some .onEnded => [.removeTrack, .removeEntry]
  | some .onError => [.removeTrack, .removeEntry]
  | none => [.sleep]
  | some .onMute => []
  | some .onUnmute => []
  | some .onRtcpPacket => []

/-- The operation that ends the task. -/
def TrackOp.ends : TrackOp → Bool
  | .removeEntry => true
  | _ => false

/-- An event that makes a poller leave its loop. -/
def TrackRemoteEvent.ending : TrackRemoteEvent → Bool
  | .onEnding => true
  | .onEnded => true
  | .onError => true
  | _ => false

/-- A reaction is nothing, one operation that does not end the task, or the two removals; the
last exactly on an ending event. -/
theorem trackReact_shape (r : Option TrackRemoteEvent) :
    (trackReact r = [.removeTrack, .removeEntry] ∧ ∃ e, r = some e ∧ e.ending = true) ∨
      ((trackReact r = [] ∨ ∃ o, trackReact r = [o] ∧ o ≠ .removeTrack ∧ o ≠ .removeEntry) ∧
        ∀ e, r = some e → e.ending = false) := by
  rcases r with - | (- | - | - | - | - | - | - | -) <;>
    simp [trackReact, TrackRemoteEvent.ending]

/-- **The loop of `spawn_track_poller`.** -/
def trackReactor : Reactor Unit TrackRemoteEvent TrackOp where
  react := fun _ r => ((), trackReact r)
  halts := TrackOp.ends
  halts_last := by
    intro s r os o os' heq ho
    have heq' : trackReact r = os ++ o :: os' := heq
    rcases trackReact_shape r with ⟨htwo, -⟩ | ⟨hnil | ⟨o', hone, -, -⟩, -⟩
    · rw [htwo] at heq'
      match os, heq' with
      | [], heq' =>
        simp only [List.nil_append, List.cons.injEq] at heq'
        rw [← heq'.1] at ho
        cases ho
      | [_], heq' =>
        simp only [List.cons_append, List.nil_append, List.cons.injEq] at heq'
        exact heq'.2.2.symm
      | _ :: _ :: os, heq' => simp at heq'
    · rw [hnil] at heq'
      simp at heq'
    · rw [hone] at heq'
      match os, heq' with
      | [], heq' =>
        simp only [List.nil_append, List.cons.injEq] at heq'
        exact heq'.2.symm
      | _ :: os, heq' => simp at heq'
  none_idle := fun _ _ => rfl

/-- Only an ending event puts an ending operation up. -/
theorem trackReact_ends (r : Option TrackRemoteEvent) :
    (trackReact r).any TrackOp.ends = (match r with | some e => e.ending | none => false) := by
  rcases r with - | (- | - | - | - | - | - | - | -) <;> rfl

theorem trackReact_length (r : Option TrackRemoteEvent) : (trackReact r).length ≤ 2 := by
  rcases r with - | (- | - | - | - | - | - | - | -) <;> simp [trackReact]

/-! ## 2. The system around one track -/

/-- A track with its queue and its pollers.  `calling` counts the `set_callbacks` calls for this
track that have stored their callbacks and not yet reached their second statement. -/
structure TrackSys (F : Type) where
  pollers : List (Loop Unit TrackOp)
  inbox : Inbox TrackRemoteEvent
  remoteTracks : UInt32 → Bool
  callbacks : UInt32 → Option (TrackEventCallbacks F)
  calling : Nat
  sent : List TrackRemoteEvent
  log : List (TrackOp × Option F)

variable {F : Type}

/-- `register_track` has just put the track in; no poller yet. -/
def TrackSys.start (remoteTracks : UInt32 → Bool)
    (callbacks : UInt32 → Option (TrackEventCallbacks F)) : TrackSys F :=
  ⟨[], ⟨[], false⟩, remoteTracks, callbacks, 0, [], []⟩

/-- What can happen. -/
inductive TrackAct (F : Type) where
  | push (e : TrackRemoteEvent)
  | dropSender
  /-- first statement of `webrtc_ffi_track_remote_set_callbacks` -/
  | setCallbacks (id : UInt32) (cbs : TrackEventCallbacks F)
  /-- its second statement, for this track -/
  | spawnIfRegistered
  /-- a step of the `i`-th poller spawned -/
  | poller (i : Nat)

/-- `TRACK_EVENT_CALLBACKS.lock().unwrap().get(&id).and_then(|c| c.on_..)`. -/
def trackCallbackFor (entry : Option (TrackEventCallbacks F)) : TrackOp → Option F
  | .call (.onOpen ..) => entry.bind (·.onOpen)
  | .call (.onRtp ..) => entry.bind (·.onRtp)
  | .sleep => none
  | .removeTrack => none
  | .removeEntry => none

/-- What an operation does to `REMOTE_TRACKS`. -/
def tracksAfter (id : UInt32) (remoteTracks : UInt32 → Bool) : Option TrackOp → UInt32 → Bool
  | some .removeTrack => Function.update remoteTracks id false
  | _ => remoteTracks

/-- What an operation does to `TRACK_EVENT_CALLBACKS`. -/
def trackCallbacksAfter (id : UInt32) (callbacks : UInt32 → Option (TrackEventCallbacks F)) :
    Option TrackOp → UInt32 → Option (TrackEventCallbacks F)
  | some .removeEntry => Function.update callbacks id none
  | _ => callbacks

/-- One step of a poller `t` of the track. -/
def TrackSys.stepPoller (id : UInt32) (s : TrackSys F) (i : Nat) (t : Loop Unit TrackOp) :
    TrackSys F :=
  let r := trackReactor.advance t s.inbox
  { s with
    pollers := s.pollers.set i r.1
    inbox := r.2.1
    remoteTracks := tracksAfter id s.remoteTracks r.2.2
    callbacks := trackCallbacksAfter id s.callbacks r.2.2
    log := s.log ++ r.2.2.toList.map fun o => (o, trackCallbackFor (s.callbacks id) o) }

/-- One action on the track with this `id`. -/
def trackStep (id : UInt32) (s : TrackSys F) : TrackAct F → TrackSys F
  | .push e => if s.inbox.gone then s else { s with inbox := s.inbox.push e, sent := s.sent ++ [e] }
  | .dropSender => { s with inbox := s.inbox.drop }
  | .setCallbacks id' cbs =>
    { s with
      callbacks := Function.update s.callbacks id' (some cbs)
      calling := if id' = id then s.calling + 1 else s.calling }
  | .spawnIfRegistered =>
    if s.calling = 0 then s
    else if s.remoteTracks id then
      { s with pollers := s.pollers ++ [Loop.start ()], calling := s.calling - 1 }
    else { s with calling := s.calling - 1 }
  | .poller i =>
    match s.pollers[i]? with
    | none => s
    | some t => s.stepPoller id i t

/-- The steps of the `i`-th poller. -/
def TrackAct.isPoller (i : Nat) : TrackAct F → Bool
  | .poller j => i == j
  | _ => false

/-! ## 3. Ending events are spent one by one -/

/-- The poller has ended or has an ending operation due. -/
def leaving (t : Loop Unit TrackOp) : Bool := t.halted || t.todo.any TrackOp.ends

/-- **The account**: pollers that are leaving and ending events still queued make up the ending
events sent. -/
def TrackSys.Accounted (s : TrackSys F) : Prop :=
  s.pollers.countP leaving + s.inbox.queue.countP (·.ending) = s.sent.countP (·.ending)

/-- One step of a poller moves an ending event from the queue to the poller, or changes neither
side of the account. -/
theorem advance_account (t : Loop Unit TrackOp) (q : Inbox TrackRemoteEvent) :
    (leaving (trackReactor.advance t q).1).toNat
        + (trackReactor.advance t q).2.1.queue.countP (·.ending)
      = (leaving t).toNat + q.queue.countP (·.ending) := by
  rcases trackReactor.advance_cases t q with ⟨heq, -⟩ | ⟨o, rest, hh, ht, heq⟩ |
      ⟨e, es, hh, ht, hq, heq⟩ | ⟨hh, ht, hq, -, heq⟩ <;> rw [heq]
  · simp [leaving, hh, ht, trackReactor]
  · have hends := trackReact_ends (some e)
    simp only at hends
    cases he : e.ending <;>
      simp [leaving, hh, ht, hq, he, Reactor.receive, trackReactor, hends, Nat.add_comm]
  · simp [leaving, hh, ht, Reactor.receive, trackReactor, trackReact, TrackOp.ends]

theorem countP_set_toNat {α : Type} (p : α → Bool) {l : List α} {i : Nat} {a : α}
    (h : l[i]? = some a) (b : α) :
    (l.set i b).countP p + (p a).toNat = l.countP p + (p b).toNat := by
  obtain ⟨hi, rfl⟩ := List.getElem?_eq_some_iff.mp h
  have hle := List.boole_getElem_le_countP (p := p) hi
  have hset := List.countP_set (p := p) (a := b) hi
  cases hp : p l[i] <;> cases hb : p b <;> simp only [hp, hb] at hle hset ⊢ <;>
    simp only [if_true, if_false, Bool.false_eq_true, Bool.toNat_true, Bool.toNat_false]
      at hle hset ⊢ <;> omega

theorem stepPoller_accounted {id : UInt32} {s : TrackSys F} {i : Nat} {t : Loop Unit TrackOp}
    (hi : s.pollers[i]? = some t) (h : s.Accounted) : (s.stepPoller id i t).Accounted := by
  have hstep := advance_account t s.inbox
  have hset := countP_set_toNat leaving hi (trackReactor.advance t s.inbox).1
  simp only [TrackSys.Accounted, TrackSys.stepPoller] at h ⊢
  omega

theorem trackStep_accounted (id : UInt32) (s : TrackSys F) (a : TrackAct F) (h : s.Accounted) :
    (trackStep id s a).Accounted := by
  cases a with
  | push e =>
    simp only [trackStep]
    split
    · exact h
    · rename_i hg
      simp only [TrackSys.Accounted, Inbox.push, hg, if_false, Bool.false_eq_true,
        List.countP_append] at h ⊢
      omega
  | dropSender | setCallbacks id' cbs => exact h
  | spawnIfRegistered =>
    simp only [trackStep]
    split
    · exact h
    · split
      · simpa [TrackSys.Accounted, leaving, Loop.start] using h
      · exact h
  | poller i =>
    simp only [trackStep]
    split
    · exact h
    · rename_i t ht
      exact stepPoller_accounted ht h

/-! ## 4. The registries when a poller leaves -/

/-- **Where a poller can be**, given whether the track is still registered: in the loop, between
the two removals, or gone. -/
def PollerShape (registered : Bool) (t : Loop Unit TrackOp) : Prop :=
  (t.halted = true ∧ registered = false) ∨
    (t.halted = false ∧
      (t.todo = [.removeTrack, .removeEntry] ∨ (t.todo = [.removeEntry] ∧ registered = false) ∨
        t.todo = [] ∨ ∃ o, t.todo = [o] ∧ o ≠ .removeTrack ∧ o ≠ .removeEntry))

theorem PollerShape.unregistered {registered : Bool} {t : Loop Unit TrackOp}
    (h : PollerShape registered t) : PollerShape false t := by
  rcases h with ⟨hh, -⟩ | ⟨hh, ht | ⟨ht, -⟩ | ht | ht⟩
  · exact Or.inl ⟨hh, rfl⟩
  · exact Or.inr ⟨hh, Or.inl ht⟩
  · exact Or.inr ⟨hh, Or.inr (Or.inl ⟨ht, rfl⟩)⟩
  · exact Or.inr ⟨hh, Or.inr (Or.inr (Or.inl ht))⟩
  · exact Or.inr ⟨hh, Or.inr (Or.inr (Or.inr ht))⟩

theorem PollerShape.receive (registered : Bool) (t : Loop Unit TrackOp)
    (r : Option TrackRemoteEvent) : PollerShape registered (trackReactor.receive t r) := by
  refine Or.inr ⟨rfl, ?_⟩
  rcases trackReact_shape r with ⟨htwo, -⟩ | ⟨hnil | hone, -⟩
  · exact Or.inl htwo
  · exact Or.inr (Or.inr (Or.inl hnil))
  · exact Or.inr (Or.inr (Or.inr hone))

theorem PollerShape.advance {id : UInt32} {remoteTracks : UInt32 → Bool}
    {t : Loop Unit TrackOp} (h : PollerShape (remoteTracks id) t) (q : Inbox TrackRemoteEvent) :
    PollerShape (tracksAfter id remoteTracks (trackReactor.advance t q).2.2 id)
      (trackReactor.advance t q).1 := by
  rcases trackReactor.advance_cases t q with ⟨heq, -⟩ | ⟨o, rest, hh, ht, heq⟩ |
      ⟨e, es, hh, ht, hq, heq⟩ | ⟨hh, ht, hq, -, heq⟩ <;> rw [heq]
  · exact h
  · -- the next operation: only `removeEntry` ends, and by then the track is gone
    rcases h with ⟨hh', -⟩ | ⟨-, ht' | ⟨ht', hreg⟩ | ht' | ⟨o', ht', hne1, hne2⟩⟩
    · rw [hh] at hh'
      cases hh'
    · rw [ht] at ht'
      obtain ⟨rfl, rfl⟩ := List.cons.inj ht'
      exact Or.inr ⟨rfl, Or.inr (Or.inl ⟨rfl, by simp [tracksAfter]⟩)⟩
    · rw [ht] at ht'
      obtain ⟨rfl, rfl⟩ := List.cons.inj ht'
      exact Or.inl ⟨rfl, hreg⟩
    · rw [ht] at ht'
      cases ht'
    · rw [ht] at ht'
      obtain ⟨rfl, rfl⟩ := List.cons.inj ht'
      refine Or.inr ⟨?_, Or.inr (Or.inr (Or.inl rfl))⟩
      cases o <;> simp_all [trackReactor, TrackOp.ends]
  · exact PollerShape.receive _ t (some e)
  · exact PollerShape.receive _ t none

/-- Every poller is in a possible place. -/
def TrackSys.Shaped (id : UInt32) (s : TrackSys F) : Prop :=
  ∀ t ∈ s.pollers, PollerShape (s.remoteTracks id) t

theorem tracksAfter_cases (id : UInt32) (remoteTracks : UInt32 → Bool) (op : Option TrackOp) :
    tracksAfter id remoteTracks op id = false ∨ tracksAfter id remoteTracks op = remoteTracks := by
  rcases op with - | (- | - | - | -) <;> simp [tracksAfter]

theorem trackStep_shaped {id : UInt32} (s : TrackSys F) (a : TrackAct F) (h : s.Shaped id) :
    (trackStep id s a).Shaped id := by
  cases a with
  | push e =>
    simp only [trackStep]
    split <;> exact h
  | dropSender | setCallbacks id' cbs => exact h
  | spawnIfRegistered =>
    simp only [trackStep]
    split
    · exact h
    · split
      · intro t ht
        rcases List.mem_append.mp ht with ht | ht
        · exact h t ht
        · rw [List.mem_singleton.mp ht]
          exact Or.inr ⟨rfl, Or.inr (Or.inr (Or.inl rfl))⟩
      · exact h
  | poller i =>
    simp only [trackStep]
    split
    · exact h
    · rename_i t ht
      intro t' ht'
      rcases List.mem_or_eq_of_mem_set ht' with hold | hnew
      · -- another poller sees at most the track disappear
        have hshape := h t' hold
        rcases tracksAfter_cases id s.remoteTracks (trackReactor.advance t s.inbox).2.2 with
          hfalse | hsame
        · simp only [TrackSys.stepPoller, hfalse]
          exact hshape.unregistered
        · simp only [TrackSys.stepPoller, hsame]
          exact hshape
      · rw [hnew]
        exact (h t (List.mem_of_getElem? ht)).advance s.inbox

/-- A step that leaves its poller running leaves the callbacks alone. -/
theorem stepPoller_callbacks {id : UInt32} {s : TrackSys F} {i : Nat} {t : Loop Unit TrackOp}
    (h : (trackReactor.advance t s.inbox).1.halted = false) :
    (s.stepPoller id i t).callbacks = s.callbacks := by
  simp only [TrackSys.stepPoller]
  cases hop : (trackReactor.advance t s.inbox).2.2 with
  | none => rfl
  | some o =>
    have hends := trackReactor.not_halts_of_advance h hop
    cases o with
    | removeEntry => cases hends
    | call c | sleep | removeTrack => rfl

/-- All pollers of the track have ended (and there was one), the track and its callbacks are out
of both registries. -/
def TrackSys.Released (id : UInt32) (s : TrackSys F) : Prop :=
  (s.pollers ≠ [] ∧ ∀ t ∈ s.pollers, t.halted = true) ∧ s.remoteTracks id = false ∧
    s.callbacks id = none

/-- **The step that ends the last poller leaves both registries clean.** -/
theorem released_of_last {id : UInt32} {s : TrackSys F} {a : TrackAct F} (h : s.Shaped id)
    (hbefore : ¬ (s.pollers ≠ [] ∧ ∀ t ∈ s.pollers, t.halted = true))
    (hafter : (trackStep id s a).pollers ≠ [] ∧
      ∀ t ∈ (trackStep id s a).pollers, t.halted = true) :
    (trackStep id s a).Released id := by
  have hreg : (trackStep id s a).remoteTracks id = false := by
    obtain ⟨t, ht⟩ := List.exists_mem_of_ne_nil _ hafter.1
    rcases trackStep_shaped s a h t ht with ⟨-, hreg⟩ | ⟨hh, -⟩
    · exact hreg
    · rw [hafter.2 t ht] at hh
      cases hh
  refine ⟨hafter, hreg, ?_⟩
  cases a with
  | push e =>
    simp only [trackStep] at hafter
    split at hafter <;> exact absurd hafter hbefore
  | dropSender | setCallbacks id' cbs => exact absurd hafter hbefore
  | spawnIfRegistered =>
    simp only [trackStep] at hafter
    split at hafter
    · exact absurd hafter hbefore
    · split at hafter
      · have := hafter.2 (Loop.start ()) (by simp)
        cases this
      · exact absurd hafter hbefore
  | poller i =>
    simp only [trackStep] at hafter ⊢
    split at hafter
    · exact absurd hafter hbefore
    · rename_i t ht
      obtain ⟨hi, hti⟩ := List.getElem?_eq_some_iff.mp ht
      have hmem : (trackReactor.advance t s.inbox).1 ∈ (s.stepPoller id i t).pollers := by
        simpa [TrackSys.stepPoller] using List.mem_set hi _
      have hhalt := hafter.2 _ hmem
      have hlive : t.halted = false := by
        by_contra hne
        have hhalted : t.halted = true := by simpa using hne
        refine hbefore ⟨List.ne_nil_of_mem (List.mem_of_getElem? ht), ?_⟩
        have hsame : (s.stepPoller id i t).pollers = s.pollers := by
          simp only [TrackSys.stepPoller, trackReactor.advance_of_halted hhalted]
          rw [← hti, List.set_getElem_self]
        rw [hsame] at hafter
        exact hafter.2
      obtain ⟨o, ho, hends⟩ := trackReactor.halts_of_advance hlive hhalt
      have hcb : (s.stepPoller id i t).callbacks = Function.update s.callbacks id none := by
        simp only [TrackSys.stepPoller, ho]
        cases o with
        | removeEntry => rfl
        | call c | sleep | removeTrack => cases hends
      simp only [hcb, Function.update_self]

/-! ## 5. When the pollers end once the queue has ended -/

/-- An action that is a registration for this track. -/
def TrackAct.registers (id : UInt32) : TrackAct F → Bool
  | .setCallbacks id' _ => id' == id
  | _ => false

/-- **The `n` pollers of a track end after the sequence `evs`**: in every run that has sent `evs`,
dropped the sender and spawned `n` pollers, finitely many further steps of each end them all, and
at the moment the last one ended the track and its callbacks were out of the registries. -/
def TrackPollersEnd (F : Type) (id : UInt32) (n : Nat) (evs : List TrackRemoteEvent) : Prop :=
  ∀ (remoteTracks : UInt32 → Bool) (callbacks : UInt32 → Option (TrackEventCallbacks F))
    (as : List (TrackAct F)),
    (run (trackStep id) (.start remoteTracks callbacks) as).sent = evs →
    (run (trackStep id) (.start remoteTracks callbacks) as).inbox.gone = true →
    (run (trackStep id) (.start remoteTracks callbacks) as).pollers.length = n →
    (run (trackStep id) (.start remoteTracks callbacks) as).calling = 0 →
    ∃ k, ∀ bs, (∀ a ∈ bs, a.registers id = false) →
      (∀ i < n, k ≤ turns (TrackAct.isPoller i) bs) →
      (∀ t ∈ (run (trackStep id) (.start remoteTracks callbacks) (as ++ bs)).pollers,
        t.halted = true) ∧
      ∃ cs ds, as ++ bs = cs ++ ds ∧
        (run (trackStep id) (.start remoteTracks callbacks) cs).Released id

/-- The regime after the end of the queue: nothing more is sent and no poller is added. -/
structure TrackSys.Winding (id : UInt32) (n : Nat) (evs : List TrackRemoteEvent)
    (s : TrackSys F) : Prop where
  account : s.Accounted
  sent : s.sent = evs
  gone : s.inbox.gone = true
  pollers : s.pollers.length = n
  calling : s.calling = 0

section Winding

variable {id : UInt32} {n : Nat} {evs : List TrackRemoteEvent} {s : TrackSys F}

theorem trackStep_winding {a : TrackAct F} (ha : a.registers id = false) (h : s.Winding id n evs) :
    (trackStep id s a).Winding id n evs := by
  have hacc := trackStep_accounted id s a h.account
  cases a with
  | push e =>
    simp only [trackStep, h.gone, if_true]
    exact h
  | dropSender => exact ⟨hacc, h.sent, rfl, h.pollers, h.calling⟩
  | setCallbacks id' cbs =>
    have hid : id' ≠ id := by simpa [TrackAct.registers] using ha
    exact ⟨hacc, h.sent, h.gone, h.pollers, by simpa [trackStep, hid] using h.calling⟩
  | spawnIfRegistered =>
    simp only [trackStep, h.calling, if_true]
    exact h
  | poller i =>
    simp only [trackStep] at hacc ⊢
    split
    · exact h
    · rename_i t ht
      rw [ht] at hacc
      exact ⟨hacc, h.sent, (trackReactor.advance_gone t s.inbox).trans h.gone,
        by simpa [TrackSys.stepPoller] using h.pollers, h.calling⟩

/-- Once the queue is drained, enough ending events have put every poller on its way out. -/
theorem Winding.leaving_of_drained (h : s.Winding id n evs) (hn : n ≤ evs.countP (·.ending))
    (hq : s.inbox.queue = []) : ∀ t ∈ s.pollers, leaving t = true := by
  have hacc := h.account
  rw [TrackSys.Accounted, hq, h.sent, List.countP_nil, Nat.add_zero] at hacc
  refine List.countP_eq_length.mp (Nat.le_antisymm List.countP_le_length ?_)
  rw [h.pollers, hacc]
  exact hn

/-- What the `i`-th poller still has before it: its own operations and the queue. -/
def TrackSys.stepsLeft (i : Nat) (s : TrackSys F) : Nat :=
  match s.pollers[i]? with
  | none => 0
  | some t => (if t.halted then 0 else t.todo.length + 1) + 3 * s.inbox.queue.length

/-- The `i`-th poller, if there is one, has ended. -/
def TrackSys.Ended (i : Nat) (s : TrackSys F) : Prop :=
  ∀ t, s.pollers[i]? = some t → t.halted = true

/-- A step of a live poller brings it closer to its end. -/
theorem stepsLeft_poller_lt (h : s.Winding id n evs) (hn : n ≤ evs.countP (·.ending)) {i : Nat}
    (hne : ¬ s.Ended i) :
    (trackStep id s (.poller i)).stepsLeft i < s.stepsLeft i := by
  simp only [TrackSys.Ended, not_forall] at hne
  obtain ⟨t, ht, hlive⟩ := hne
  have hlive' : t.halted = false := by simpa using hlive
  obtain ⟨hi, -⟩ := List.getElem?_eq_some_iff.mp ht
  have hafter : (trackStep id s (.poller i)).stepsLeft i
      = (if (trackReactor.advance t s.inbox).1.halted then 0
          else (trackReactor.advance t s.inbox).1.todo.length + 1)
        + 3 * (trackReactor.advance t s.inbox).2.1.queue.length := by
    simp [trackStep, ht, TrackSys.stepPoller, TrackSys.stepsLeft, List.getElem?_set_self hi]
  have hbefore : s.stepsLeft i = (t.todo.length + 1) + 3 * s.inbox.queue.length := by
    simp [TrackSys.stepsLeft, ht, hlive']
  rw [hafter, hbefore]
  rcases trackReactor.advance_cases t s.inbox with ⟨heq, hidle⟩ | ⟨o, rest, -, hto, heq⟩ |
      ⟨e, es, -, hto, hq, heq⟩ | ⟨-, hto, hq, -, heq⟩
  · exfalso
    rcases hidle with hh | ⟨-, -, hg⟩
    · exact hlive hh
    · rw [h.gone] at hg
      cases hg
  · rw [heq, hto]
    cases ho : trackReactor.halts o <;> simp [List.length_cons]
  · rw [heq, hto, hq]
    have hlen : (trackReact (some e)).length ≤ 2 := trackReact_length (some e)
    simp only [Reactor.receive, trackReactor, List.length_nil, List.length_cons,
      Bool.false_eq_true, if_false]
    omega
  · -- an empty queue leaves no poller in its loop
    exfalso
    have hl := Winding.leaving_of_drained h hn hq t (List.mem_of_getElem? ht)
    simp [leaving, hlive', hto] at hl

theorem trackStep_ended {i : Nat} {a : TrackAct F} (hi : i < s.pollers.length) (h : s.Ended i) :
    (trackStep id s a).Ended i := by
  cases a with
  | push e =>
    simp only [trackStep]
    split <;> exact h
  | dropSender | setCallbacks id' cbs => exact h
  | spawnIfRegistered =>
    simp only [trackStep]
    split
    · exact h
    · split
      · intro t ht
        rw [List.getElem?_append_left hi] at ht
        exact h t ht
      · exact h
  | poller j =>
    simp only [trackStep]
    split
    · exact h
    · rename_i t ht
      intro t' ht'
      by_cases hij : j = i
      · subst hij
        have hhalt := h t ht
        simp only [TrackSys.stepPoller, trackReactor.advance_of_halted hhalt,
          List.getElem?_set_self hi, Option.some.injEq] at ht'
        rw [← ht']
        exact hhalt
      · rw [TrackSys.stepPoller, List.getElem?_set_ne hij] at ht'
        exact h t' ht'

/-- Nobody else takes it further away. -/
theorem stepsLeft_le (h : s.Winding id n evs) {i : Nat} {a : TrackAct F}
    (ha : a.isPoller i = false) : (trackStep id s a).stepsLeft i ≤ s.stepsLeft i := by
  cases a with
  | push e => simp [trackStep, h.gone]
  | dropSender | setCallbacks id' cbs => exact Nat.le_refl _
  | spawnIfRegistered => simp [trackStep, h.calling]
  | poller j =>
    have hij : j ≠ i := by
      rintro rfl
      simp [TrackAct.isPoller] at ha
    simp only [trackStep]
    split
    · exact Nat.le_refl _
    · rename_i t ht
      have hle := trackReactor.advance_queue_length_le t s.inbox
      simp only [TrackSys.stepsLeft, TrackSys.stepPoller, List.getElem?_set_ne hij]
      split <;> omega

/-- **A poller with ending events enough for all ends.** -/
theorem ended_of_turns (h : s.Winding id n evs) (hn : n ≤ evs.countP (·.ending)) {i : Nat}
    (hi : i < n) (bs : List (TrackAct F)) (hbs : ∀ a ∈ bs, a.registers id = false)
    (hturns : s.stepsLeft i ≤ turns (TrackAct.isPoller i) bs) :
    (run (trackStep id) s bs).Ended i := by
  refine fin_of_turns (fun s : TrackSys F => s.Winding id n evs) (TrackSys.Ended i)
    (TrackSys.stepsLeft i) (TrackAct.isPoller i) (fun a => a.registers id = false)
    ?_ ?_ ?_ ?_ ?_ bs s hbs h (Or.inl hturns)
  · intro s a ha hs
    exact trackStep_winding ha hs
  · intro s a _ hturn hs hne
    cases a with
    | poller j =>
      have hij : i = j := by simpa [TrackAct.isPoller] using hturn
      subst hij
      exact stepsLeft_poller_lt hs hn hne
    | push e | dropSender | setCallbacks id' cbs | spawnIfRegistered => cases hturn
  · intro s a _ hturn hs _
    exact stepsLeft_le hs hturn
  · intro s a _ hs hend
    exact trackStep_ended (by rw [hs.pollers]; exact hi) hend
  · intro s _ hz t ht
    cases hh : t.halted with
    | true => rfl
    | false => simp [TrackSys.stepsLeft, ht, hh] at hz

end Winding

section Ends

variable {id : UInt32}

theorem accounted_run (id : UInt32) (remoteTracks : UInt32 → Bool)
    (callbacks : UInt32 → Option (TrackEventCallbacks F)) (as : List (TrackAct F)) :
    (run (trackStep id) (.start remoteTracks callbacks) as).Accounted :=
  run_inv (trackStep_accounted id) as _ rfl

theorem shaped_run (remoteTracks : UInt32 → Bool)
    (callbacks : UInt32 → Option (TrackEventCallbacks F)) (as : List (TrackAct F)) :
    (run (trackStep id) (.start remoteTracks callbacks) as).Shaped id :=
  run_inv trackStep_shaped as _ fun t ht => by cases ht

theorem run_winding {n : Nat} {evs : List TrackRemoteEvent} {s : TrackSys F}
    (h : s.Winding id n evs) {bs : List (TrackAct F)} (hbs : ∀ a ∈ bs, a.registers id = false) :
    (run (trackStep id) s bs).Winding id n evs :=
  run_inv_on (fun s : TrackSys F => s.Winding id n evs) (fun a => a.registers id = false)
    (fun _ _ => trackStep_winding) bs s hbs h

/-- Calling `set_callbacks` `n` times on a registered track spawns `n` pollers. -/
theorem run_registrations (id : UInt32) : ∀ (n : Nat) (s : TrackSys F), s.remoteTracks id = true →
    s.calling = 0 →
    ∃ callbacks, run (trackStep id) s
      (List.replicate n [.setCallbacks id ⟨none, none⟩, .spawnIfRegistered]).flatten
        = { s with
            callbacks := callbacks
            pollers := s.pollers ++ List.replicate n (Loop.start ()) }
  | 0, s, _, _ => ⟨s.callbacks, by simp⟩
  | n + 1, s, hreg, hcalling => by
    have hstep : run (trackStep id) s [.setCallbacks id ⟨none, none⟩, .spawnIfRegistered]
        = { s with
            callbacks := Function.update s.callbacks id (some ⟨none, none⟩)
            pollers := s.pollers ++ [Loop.start ()] } := by
      simp [trackStep, hreg, hcalling]
    obtain ⟨callbacks, h⟩ := run_registrations id n
      { s with
        callbacks := Function.update s.callbacks id (some ⟨none, none⟩)
        pollers := s.pollers ++ [Loop.start ()] } hreg hcalling
    refine ⟨callbacks, ?_⟩
    rw [List.replicate_succ, List.flatten_cons, run_append, hstep, h]
    simp [List.replicate_succ]

theorem run_trackPushes : ∀ (evs : List TrackRemoteEvent) (s : TrackSys F),
    s.inbox.gone = false →
    run (trackStep id) s (evs.map .push ++ [.dropSender])
      = { s with inbox := ⟨s.inbox.queue ++ evs, true⟩, sent := s.sent ++ evs }
  | [], s, _ => by simp [trackStep, Inbox.drop]
  | e :: evs, s, hg => by
    have hstep : trackStep id s (.push e)
        = { s with inbox := ⟨s.inbox.queue ++ [e], false⟩, sent := s.sent ++ [e] } := by
      simp [trackStep, Inbox.push, hg]
    rw [List.map_cons, List.cons_append, run_cons, hstep, run_trackPushes evs _ rfl]
    simp

/-- Register `n` times, send the sequence, drop the sender. -/
def plainSchedule (id : UInt32) (n : Nat) (evs : List TrackRemoteEvent) : List (TrackAct F) :=
  (List.replicate n [.setCallbacks id ⟨none, none⟩, .spawnIfRegistered]).flatten
    ++ (evs.map .push ++ [.dropSender])

theorem plainSchedule_winding (id : UInt32) (n : Nat) (evs : List TrackRemoteEvent) :
    (run (trackStep id) (.start (fun _ => true) fun _ => none)
      (plainSchedule (F := F) id n evs)).Winding id n evs := by
  have hacc := accounted_run id (fun _ => true) (fun _ => none)
    (plainSchedule (F := F) id n evs)
  obtain ⟨callbacks, hregs⟩ := run_registrations id n
    (TrackSys.start (F := F) (fun _ => true) fun _ => none) rfl rfl
  rw [plainSchedule, run_append, hregs, run_trackPushes evs _ rfl] at hacc ⊢
  exact ⟨hacc, by simp [TrackSys.start], rfl, by simp [TrackSys.start], rfl⟩

/-- Every one of the first `n` pollers gets `k` turns. -/
def roundOfTurns (n k : Nat) : List (TrackAct F) :=
  ((List.range n).map fun i => List.replicate k (.poller i)).flatten

theorem turns_roundOfTurns {n i : Nat} (hi : i < n) (k : Nat) :
    k ≤ turns (TrackAct.isPoller (F := F) i) (roundOfTurns n k) := by
  have hsub : (List.replicate k (.poller i)).Sublist (roundOfTurns (F := F) n k) :=
    List.sublist_flatten_of_mem (List.mem_map.mpr ⟨i, List.mem_range.mpr hi, rfl⟩)
  have hle := hsub.countP_le (p := TrackAct.isPoller (F := F) i)
  rwa [← turns, turns_replicate (by simp [TrackAct.isPoller])] at hle

/-- **Each ending event ends one poller, and nothing else ends any.**  The `n + 1` pollers of a
track end after the queue has ended exactly if `OnEnding`, `OnEnded` and `OnError` together were
sent at least `n + 1` times. -/
theorem track_pollers_end_iff (id : UInt32) (n : Nat) (evs : List TrackRemoteEvent) :
    TrackPollersEnd F id (n + 1) evs ↔ n + 1 ≤ evs.countP (·.ending) := by
  constructor
  · intro hends
    have hplain := plainSchedule_winding (F := F) id (n + 1) evs
    obtain ⟨k, hk⟩ := hends _ _ _ hplain.sent hplain.gone hplain.pollers hplain.calling
    have hquiet : ∀ a ∈ roundOfTurns (F := F) (n + 1) k, a.registers id = false := by
      intro a ha
      obtain ⟨l, hl, ha⟩ := List.mem_flatten.mp ha
      obtain ⟨i, -, rfl⟩ := List.mem_map.mp hl
      rw [List.eq_of_mem_replicate ha]
      rfl
    obtain ⟨hhalt, -⟩ := hk (roundOfTurns (n + 1) k) hquiet fun i hi => turns_roundOfTurns hi k
    have hwind := run_winding hplain hquiet
    rw [← run_append] at hwind
    have hleaving := List.countP_eq_length.mpr fun t ht => by
      show leaving t = true
      rw [leaving, hhalt t ht, Bool.true_or]
    have hacc := hwind.account
    rw [TrackSys.Accounted, hleaving, hwind.pollers, hwind.sent] at hacc
    omega
  · intro hn remoteTracks callbacks as hsent hgone hlen hcalling
    have hwind : (run (trackStep id) (.start remoteTracks callbacks) as).Winding id (n + 1) evs :=
      ⟨accounted_run id _ _ _, hsent, hgone, hlen, hcalling⟩
    -- the largest number of steps any of them needs
    refine ⟨(Finset.range (n + 1)).sup fun i =>
      (run (trackStep id) (.start remoteTracks callbacks) as).stepsLeft i, ?_⟩
    intro bs hbs hturns
    have hhalt : ∀ t ∈ (run (trackStep id) (.start remoteTracks callbacks) (as ++ bs)).pollers,
        t.halted = true := by
      intro t ht
      rw [run_append] at ht
      obtain ⟨i, hi, hti⟩ := List.mem_iff_getElem.mp ht
      have hi' : i < n + 1 := by rwa [(run_winding hwind hbs).pollers] at hi
      have hle : (run (trackStep id) (.start remoteTracks callbacks) as).stepsLeft i
          ≤ turns (TrackAct.isPoller i) bs :=
        Nat.le_trans (Finset.le_sup
          (f := fun i => (run (trackStep id) (.start remoteTracks callbacks) as).stepsLeft i)
          (Finset.mem_range.mpr hi')) (hturns i hi')
      refine ended_of_turns hwind hn hi' bs hbs hle t ?_
      rw [List.getElem?_eq_getElem hi, hti]
    have hsome : (run (trackStep id) (.start remoteTracks callbacks) (as ++ bs)).pollers ≠ [] := by
      have hlen' := (run_winding hwind hbs).pollers
      rw [← run_append] at hlen'
      intro hnil
      rw [hnil] at hlen'
      cases hlen'
    refine ⟨hhalt, ?_⟩
    obtain ⟨cs, a, ds, heq, hbefore, hafter⟩ :=
      exists_moment (trackStep id)
        (fun s : TrackSys F => s.pollers ≠ [] ∧ ∀ t ∈ s.pollers, t.halted = true) (as ++ bs)
        (.start remoteTracks callbacks) (fun h => h.1 rfl) ⟨hsome, hhalt⟩
    refine ⟨cs ++ [a], ds, by rw [heq]; simp, ?_⟩
    rw [run_append, run_cons, run_nil]
    exact released_of_last (shaped_run _ _ _) hbefore hafter

end Ends

/-! ## 6. What a poller calls -/

/-- The call among the operations. -/
def TrackOp.call? : TrackOp → Option TrackCall
  | .call c => some c
  | _ => none

/-- The call an event stands for. -/
def TrackRemoteEvent.call? : TrackRemoteEvent → Option TrackCall
  | .onOpen init => some (.onOpen init.ssrc (ridText init.rid))
  | .onRtpPacket pkt =>
    some (.onRtp pkt.payload pkt.payloadType pkt.sequenceNumber pkt.timestamp pkt.ssrc)
  | _ => none

/-- **What the application should be told of a track**: every `OnOpen` and every packet before the
first ending event. -/
def trackTold (evs : List TrackRemoteEvent) : List TrackCall :=
  (evs.takeWhile (!·.ending)).filterMap (·.call?)

section Calls

variable {evs done : List TrackRemoteEvent} {performed : List TrackOp} {t : Loop Unit TrackOp}
  {q : Inbox TrackRemoteEvent} {k : Nat}

/-- A reaction makes the call of its event. -/
theorem trackReact_calls (e : TrackRemoteEvent) :
    (trackReact (some e)).filterMap TrackOp.call? = e.call?.toList := by
  cases e <;> rfl

theorem ops_track (es : List TrackRemoteEvent) :
    (trackReactor.ops () (es.map some)).filterMap TrackOp.call? = es.filterMap (·.call?) ∧
      (trackReactor.ops () (es.map some)).any trackReactor.halts = es.any (·.ending) := by
  induction es with
  | nil => exact ⟨rfl, rfl⟩
  | cons e es ih =>
    have hops : trackReactor.ops () ((e :: es).map some)
        = trackReact (some e) ++ trackReactor.ops () (es.map some) := rfl
    have hends : (trackReact (some e)).any trackReactor.halts = e.ending := trackReact_ends (some e)
    rw [hops, List.filterMap_append, trackReact_calls, ih.1, List.any_append, hends, ih.2]
    refine ⟨?_, rfl⟩
    cases hcall : e.call? with
    | none => rw [List.filterMap_cons_none hcall, Option.toList_none, List.nil_append]
    | some c => rw [List.filterMap_cons_some hcall, Option.toList_some, List.singleton_append]

theorem trackTold_eq (h : evs.any (·.ending) = false) :
    trackTold evs = evs.filterMap (·.call?) := by
  have hall : evs.takeWhile (!·.ending) = evs := by
    refine List.takeWhile_eq_self_iff.mpr ?_
    intro e he
    simpa using List.any_eq_false.mp h e he
  rw [trackTold, hall]

/-- An ending event is the last thing received. -/
theorem ending_last (h : trackReactor.History () evs performed t q done k)
    (hd : done.any (·.ending) = true) :
    ∃ pre e, done = pre ++ [e] ∧ k = 0 ∧ pre.any (·.ending) = false ∧ e.ending = true := by
  rcases List.eq_nil_or_concat (Reactor.received done k) with hnil | ⟨rs, r, hrs⟩
  · have hdone : done = [] := by simpa [Reactor.received] using (List.append_eq_nil_iff.mp hnil).1
    rw [hdone] at hd
    cases hd
  · rw [List.concat_eq_append] at hrs
    have hearly := h.earlier rs r hrs
    rcases Nat.eq_zero_or_pos k with rfl | hk
    · rcases List.eq_nil_or_concat done with rfl | ⟨pre, e, rfl⟩
      · cases hd
      · rw [List.concat_eq_append] at hd hrs ⊢
        have hpre : rs = pre.map some := by
          have heq : pre.map some ++ [some e] = rs ++ [r] := by simpa [Reactor.received] using hrs
          exact (List.append_inj' heq rfl).1.symm
        rw [hpre, (ops_track pre).2] at hearly
        refine ⟨pre, e, rfl, rfl, hearly, ?_⟩
        simpa [hearly] using hd
    · -- a `None` came after it
      obtain ⟨j, rfl⟩ : ∃ j, k = j + 1 := ⟨k - 1, by omega⟩
      have heq : (done.map some ++ List.replicate j none) ++ [none] = rs ++ [r] := by
        simpa [Reactor.received, List.replicate_succ'] using hrs
      rw [← (List.append_inj' heq rfl).1, Reactor.ops_append, List.any_append, (ops_track done).2,
        hd] at hearly
      cases hearly

/-- **At rest a poller that had the queue for itself has made every call.** -/
theorem rested_trackCalls (h : trackReactor.History () evs performed t q done k)
    (hr : trackReactor.Rested t q) : performed.filterMap TrackOp.call? = trackTold evs := by
  cases hh : t.halted with
  | true =>
    have hends := h.halted
    rw [hh, h.performed_eq hh] at hends
    have hd : done.any (·.ending) = true := by
      have hnone := trackReactor.replicate_none_idle (s := ()) rfl k
      rw [Reactor.received, Reactor.ops_append, List.any_append, (ops_track done).2, hnone.1,
        Bool.or_false] at hends
      exact hends.symm
    obtain ⟨pre, e, rfl, rfl, hpre, he⟩ := ending_last h hd
    have hrec : Reactor.received (pre ++ [e]) 0 = (pre ++ [e]).map some := by
      simp [Reactor.received]
    have hcall : e.call? = none := by
      cases e with
      | onOpen | onRtpPacket => cases he
      | _ => rfl
    have hwhile : (pre ++ [e] ++ q.queue).takeWhile (!·.ending) = pre := by
      rw [List.append_assoc, List.takeWhile_append_of_pos]
      · simp [he]
      · intro e' he'
        simpa using List.any_eq_false.mp hpre e' he'
    rw [h.performed_eq hh, hrec, (ops_track _).1, h.sent, trackTold, hwhile, List.filterMap_append,
      List.filterMap_cons_none hcall, List.filterMap_nil, List.append_nil]
  | false =>
    obtain ⟨hdoomed, hcalls⟩ := h.rested TrackOp.call? (fun _ _ => rfl) hr hh
    rw [Reactor.doomed, (ops_track evs).2, Bool.or_eq_false_iff] at hdoomed
    rw [hcalls, (ops_track evs).1, trackTold_eq hdoomed.1]

end Calls

/-! ## 7. Both kinds of poller -/

/-- **When pollers end.**  Once the sending side of its queue is gone, a data channel's poller
ends and gives its registry entry back exactly if the channel was opened or closed by an event,
and the pollers of a remote track do so exactly if there was an ending event for each of them. -/
theorem pollers_end_iff :
    (∀ (id : UInt16) (evs : List DataChannelEvent),
      ChannelPollerEnds F id evs ↔ ∃ e ∈ evs, e.opens = true ∨ e = .onClose) ∧
    (∀ (id : UInt32) (n : Nat) (evs : List TrackRemoteEvent),
      TrackPollersEnd F id (n + 1) evs ↔ n + 1 ≤ evs.countP (·.ending)) :=
  ⟨channel_poller_ends_iff, track_pollers_end_iff⟩

/-- Pollers left alone with a queue that ended empty: neither kind ends. -/
theorem pollers_never_end :
    ¬ ChannelPollerEnds Unit 1 [] ∧ ¬ TrackPollersEnd Unit 1 1 [] := by
  refine ⟨fun h => ?_, fun h => ?_⟩
  · obtain ⟨e, he, -⟩ := (channel_poller_ends_iff 1 []).mp h
    cases he
  · have := (track_pollers_end_iff 1 0 []).mp h
    simp at this

end WebrtcBridge.Ffi
