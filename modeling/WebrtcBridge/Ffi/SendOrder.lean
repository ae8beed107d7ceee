/-
# In which order detached send tasks reach the engine

`webrtc_ffi_data_channel_send_text` and `webrtc_ffi_data_channel_send_bytes` spawn one task
each on the multi-threaded `PC_RUNTIME` and return.  Nothing orders those tasks: tokio may
start them in any order, so the order of hand-over to `dc.send_text` / `dc.send` is the
SCHEDULER's, not the caller's.

The system below is one thread sending on one channel.  Its actions are the thread's next call
and "the runtime runs the `i`-th task that is still waiting".  What survives every schedule is
the MULTISET of messages (`handed_perm`): nothing is lost or duplicated.  The ORDER survives
every schedule only if there is nothing to tell apart, that is if all messages sent are equal
(`ordered_sends_iff`); with two different messages some schedule hands them over out of order.
A caller that sends only when every earlier task has run would keep the order, but the API
offers no way to wait for that.
-/
import Mathlib.Data.List.Perm.Basic
import WebrtcBridge.Lib.Runs
import WebrtcBridge.Ffi.Boundary

namespace WebrtcBridge.Ffi

open Lib

/-! ## 1. The system: one sending thread and the runtime -/

/-- One call by the application thread, with its argument. -/
inductive SendCall where
  | text (s : Text)
  | bytes (data : List UInt8)
  deriving DecidableEq, Repr

/-- The native call it makes on channel `id`: Java passes non-null pointers. -/
def SendCall.op (id : UInt16) : SendCall → Op
  | .text s => .sendText id (some s)
  | .bytes b => .sendBytes id (some b)

/-- The message the engine is meant to receive for it. -/
def SendCall.message : SendCall → Message
  | .text s => .text (readStr (some s))
  | .bytes b => .binary b

/-- Tasks spawned and not yet run, oldest first, and the messages handed over so far. -/
structure SendState where
  pending : List Task
  handed : List Message

/-- Nothing sent yet. -/
def SendState.init : SendState := ⟨[], []⟩

/-- The thread makes a call, or a worker of `PC_RUNTIME` runs the `i`-th waiting task up to
its call of `dc.send_text` / `dc.send`. -/
inductive SendAct where
  | call (c : SendCall)
  | runTask (i : Nat)
  deriving DecidableEq, Repr

/-- The message a task hands over; an ICE task hands over none. -/
def Task.message? : Task → Option Message
  | .addIceCandidate _ => none
  | .send _ m => some m

/-- One action. -/
def sendStep (peer : Peer) (id : UInt16) (s : SendState) : SendAct → SendState
  | .call c => { s with pending := s.pending ++ ((c.op id).ffi (some peer)).2.toList }
  | .runTask i =>
    match s.pending[i]? with
    | none => s
    | some t => ⟨s.pending.eraseIdx i, s.handed ++ t.message?.toList⟩

/-- The calls of a schedule, in the order the thread made them. -/
def callsOf : List SendAct → List SendCall
  | [] => []
  | .call c :: as => c :: callsOf as
  | .runTask _ :: as => callsOf as

@[simp] theorem callsOf_append (as bs : List SendAct) :
    callsOf (as ++ bs) = callsOf as ++ callsOf bs := by
  induction as with
  | nil => rfl
  | cons a as ih => cases a <;> simp [callsOf, ih]

@[simp] theorem callsOf_map_call (cs : List SendCall) : callsOf (cs.map .call) = cs := by
  induction cs with
  | nil => rfl
  | cons c cs ih => simp [callsOf, ih]

@[simp] theorem callsOf_runTask (n i : Nat) : callsOf (List.replicate n (.runTask i)) = [] := by
  induction n with
  | zero => rfl
  | succ n ih => simp [List.replicate_succ, callsOf, ih]

/-! ## 2. One step on a channel the peer holds -/

section OnChannel

variable {peer : Peer} {id : UInt16} {dc : Channel}

theorem call_spawns (hdc : peer.dataChannels id = some dc) (c : SendCall) :
    ((c.op id).ffi (some peer)).2 = some (.send dc c.message) := by
  cases c <;>
    simp [SendCall.op, Op.ffi, webrtcFfiDataChannelSendText, webrtcFfiDataChannelSendBytes, hdc,
      SendCall.message]

theorem sendStep_call (hdc : peer.dataChannels id = some dc) (s : SendState) (c : SendCall) :
    sendStep peer id s (.call c) = ⟨s.pending ++ [.send dc c.message], s.handed⟩ := by
  simp [sendStep, call_spawns hdc]

/-- Making all calls before any task runs queues their tasks in call order. -/
theorem run_calls (hdc : peer.dataChannels id = some dc) :
    ∀ (cs : List SendCall) (s : SendState),
      run (sendStep peer id) s (cs.map .call)
        = ⟨s.pending ++ cs.map (fun c => .send dc c.message), s.handed⟩
  | [], s => by simp
  | c :: cs, s => by
    rw [List.map_cons, run_cons, sendStep_call hdc, run_calls hdc cs]
    simp

/-- Running the oldest task again and again hands the rest over in spawn order. -/
theorem run_oldest :
    ∀ (ms : List Message) (handed : List Message),
      run (sendStep peer id) ⟨ms.map (.send dc), handed⟩
        (List.replicate ms.length (.runTask 0)) = ⟨[], handed ++ ms⟩
  | [], handed => by simp
  | m :: ms, handed => by
    rw [List.length_cons, List.replicate_succ, run_cons]
    have hstep : sendStep peer id ⟨(m :: ms).map (.send dc), handed⟩ (.runTask 0)
        = ⟨ms.map (.send dc), handed ++ [m]⟩ := rfl
    rw [hstep, run_oldest ms]
    simp

/-- **Any waiting message can come first.**  After all calls are made, a schedule may run the
`i`-th task before all others. -/
theorem exists_schedule_first (peer : Peer) (hdc : peer.dataChannels id = some dc)
    (cs : List SendCall) {x : Message} (hx : x ∈ cs.map SendCall.message) :
    ∃ as, callsOf as = cs ∧ (run (sendStep peer id) .init as).pending = [] ∧
      ∃ rest, (run (sendStep peer id) .init as).handed = x :: rest := by
  obtain ⟨i, hi, hxi⟩ := List.mem_iff_getElem.mp hx
  have hi' : i < cs.length := by simpa using hi
  -- every call first, then the task of `x`, then whatever is left, oldest first
  refine ⟨cs.map .call ++ ([.runTask i] ++ List.replicate (cs.length - 1) (.runTask 0)),
    by simp [callsOf], ?_⟩
  have hq : run (sendStep peer id) .init (cs.map .call)
      = ⟨(cs.map SendCall.message).map (.send dc), []⟩ := by
    rw [run_calls hdc]
    simp [SendState.init]
  have hget : ((cs.map SendCall.message).map (Task.send dc))[i]? = some (.send dc x) := by
    rw [List.getElem?_map, List.getElem?_eq_getElem hi, hxi]
    rfl
  have hone : sendStep peer id ⟨(cs.map SendCall.message).map (.send dc), []⟩ (.runTask i)
      = ⟨((cs.map SendCall.message).eraseIdx i).map (.send dc), [x]⟩ := by
    simp only [sendStep, hget, Task.message?, Option.toList, List.nil_append,
      List.eraseIdx_map]
  have hlen : ((cs.map SendCall.message).eraseIdx i).length = cs.length - 1 := by
    rw [List.length_eraseIdx_of_lt hi, List.length_map]
  have hall : run (sendStep peer id) .init
      (cs.map .call ++ ([.runTask i] ++ List.replicate (cs.length - 1) (.runTask 0)))
        = ⟨[], [x] ++ (cs.map SendCall.message).eraseIdx i⟩ := by
    rw [run_append, hq, List.singleton_append, run_cons, hone, ← hlen]
    exact run_oldest _ _
  rw [hall]
  exact ⟨rfl, _, rfl⟩

/-! ## 3. What every schedule keeps: the multiset -/

/-- Messages of the waiting tasks. -/
def SendState.waiting (s : SendState) : List Message := s.pending.filterMap Task.message?

theorem sendStep_perm (hdc : peer.dataChannels id = some dc) (s : SendState) (a : SendAct) :
    ((sendStep peer id s a).handed ++ (sendStep peer id s a).waiting).Perm
      (s.handed ++ s.waiting ++ (callsOf [a]).map SendCall.message) := by
  cases a with
  | call c =>
    rw [sendStep_call hdc]
    simp [SendState.waiting, callsOf, Task.message?]
  | runTask i =>
    simp only [sendStep, callsOf, List.map_nil, List.append_nil]
    cases ht : s.pending[i]? with
    | none => exact List.Perm.refl _
    | some t =>
      obtain ⟨hi, hti⟩ := List.getElem?_eq_some_iff.mp ht
      have hmove : s.pending.Perm (t :: s.pending.eraseIdx i) := by
        have h := (List.getElem_cons_eraseIdx_perm hi).symm
        rwa [hti] at h
      have hw : s.waiting.Perm (t.message?.toList ++ (s.pending.eraseIdx i).filterMap
          Task.message?) := by
        refine (hmove.filterMap Task.message?).trans ?_
        cases hm : t.message? <;> simp [hm]
      simp only [SendState.waiting, List.append_assoc]
      exact (hw.append_left s.handed).symm

/-- **Nothing is lost and nothing is sent twice.**  Whatever the schedule, the messages handed
over together with those still waiting are exactly the messages of the calls made. -/
theorem handed_perm (peer : Peer) (hdc : peer.dataChannels id = some dc) :
    ∀ (as : List SendAct) (s : SendState),
      ((run (sendStep peer id) s as).handed ++ (run (sendStep peer id) s as).waiting).Perm
        (s.handed ++ s.waiting ++ (callsOf as).map SendCall.message)
  | [], s => by simp [callsOf]
  | a :: as, s => by
    rw [run_cons]
    refine (handed_perm peer hdc as (sendStep peer id s a)).trans ?_
    refine ((sendStep_perm hdc s a).append_right _).trans ?_
    cases a <;> simp [callsOf]

/-! ## 4. When the order survives every schedule -/

theorem eq_of_perm_of_all_eq {α : Type} {l l' : List α} (hp : l.Perm l')
    (hall : ∀ a ∈ l', ∀ b ∈ l', a = b) : l = l' := by
  cases l' with
  | nil => exact hp.eq_nil
  | cons x t =>
    have h' : x :: t = List.replicate (x :: t).length x :=
      List.eq_replicate_of_mem fun b hb => hall b hb x (by simp)
    have h : l = List.replicate l.length x :=
      List.eq_replicate_of_mem fun b hb => hall b (hp.mem_iff.mp hb) x (by simp)
    rw [h, h', hp.length_eq]

/-- **The order of hand-over is the call order on every schedule exactly when all messages
sent are equal**, in particular when at most one call is made.  The channel being `ordered`
makes no difference: the reordering happens before the channel is reached. -/
theorem ordered_sends_iff (peer : Peer) (id : UInt16) (dc : Channel)
    (hdc : peer.dataChannels id = some dc) (_hord : dc.ordered = true) (cs : List SendCall) :
    (∀ as, callsOf as = cs → (run (sendStep peer id) .init as).pending = [] →
      (run (sendStep peer id) .init as).handed = cs.map SendCall.message) ↔
    ∀ a ∈ cs, ∀ b ∈ cs, a.message = b.message := by
  constructor
  · intro h a ha b hb
    -- schedule `a` first, then `b` first: both orders would have to be the call order
    obtain ⟨as, hca, hpa, ra, hra⟩ :=
      exists_schedule_first peer hdc cs (List.mem_map_of_mem ha)
    obtain ⟨bs, hcb, hpb, rb, hrb⟩ :=
      exists_schedule_first peer hdc cs (List.mem_map_of_mem hb)
    have h1 := h as hca hpa
    have h2 := h bs hcb hpb
    rw [hra] at h1
    rw [hrb, ← h1] at h2
    exact (List.cons.inj h2).1.symm
  · intro hall as hcs hp
    have hperm := handed_perm peer hdc as .init
    rw [SendState.waiting, hp, hcs] at hperm
    simp only [SendState.init, SendState.waiting, List.filterMap_nil, List.append_nil,
      List.nil_append] at hperm
    refine eq_of_perm_of_all_eq hperm ?_
    intro x hx y hy
    obtain ⟨a, ha, rfl⟩ := List.mem_map.mp hx
    obtain ⟨b, hb, rfl⟩ := List.mem_map.mp hy
    exact hall a ha b hb

end OnChannel

/-- A peer with one ordered channel, id 1. -/
def oneChannelPeer : Peer where
  dataChannels := fun id => if id = 1 then some ⟨0, 1, true⟩ else none

/-- Two different texts: with the second task run first, the engine gets them swapped. -/
theorem sends_reordered :
    ¬ ∀ as : List SendAct, callsOf as = [.text ['a'], .text ['b']] →
      (run (sendStep oneChannelPeer 1) .init as).pending = [] →
      (run (sendStep oneChannelPeer 1) .init as).handed = [.text ['a'], .text ['b']] := by
  intro h
  have hswap := h [.call (.text ['a']), .call (.text ['b']), .runTask 1, .runTask 0] rfl rfl
  have hgot : (run (sendStep oneChannelPeer 1) .init
      [.call (.text ['a']), .call (.text ['b']), .runTask 1, .runTask 0]).handed
        = [.text ['b'], .text ['a']] := rfl
  rw [hgot] at hswap
  exact absurd hswap (by decide)

/-- The equivalence at one call, where every schedule keeps the order. -/
theorem ordered_sends_single :
    oneChannelPeer.dataChannels 1 = some ⟨0, 1, true⟩ ∧
      ∀ as, callsOf as = [.text ['a']] →
        (run (sendStep oneChannelPeer 1) .init as).pending = [] →
        (run (sendStep oneChannelPeer 1) .init as).handed = [.text ['a']] :=
  ⟨rfl, (ordered_sends_iff oneChannelPeer 1 ⟨0, 1, true⟩ rfl rfl [.text ['a']]).mpr
    (by decide)⟩

end WebrtcBridge.Ffi
