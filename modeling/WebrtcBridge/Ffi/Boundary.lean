/-
# The calls that hand work to the runtime and return at once

Three functions of `rust-webrtc-ffi/src/lib.rs` do not wait for the engine:
`webrtc_ffi_add_ice_candidate`, `webrtc_ffi_data_channel_send_text` and
`webrtc_ffi_data_channel_send_bytes`.  Each checks its arguments, SPAWNS the engine call on
`PC_RUNTIME` as a detached task whose result is thrown away (`let _ = ...await`), and returns.
The module header of `lib.rs` promises the opposite ("every FFI call blocks on the async
result"), and the two send functions are documented as "Returns 0 on success".

The model keeps the two halves apart.  `Op.ffi` is the call: a return code and the task it
spawned, if any.  `Task.outcome` is what the engine answers when that task is finally run, in
the engine state of THAT moment.  The file settles how much of the engine's answer the return
code carries: `truthful_iff`.
-/
import Mathlib.Data.List.Basic
import Mathlib.Data.Option.Basic

namespace WebrtcBridge.Ffi

/-! ## 1. Strings across the C ABI -/

/-- Text, as Unicode scalar values: a Rust `str`, or a Java `String` without lone surrogates. -/
abbrev Text := List Char

/-- A `*const c_char`: null, or the characters `arena.allocateFrom` wrote before the
terminator.  A NUL inside the text is part of the memory, so it is kept here. -/
abbrev CStr := Option Text

/-- `read_str`: null reads as the empty string, and a C string ends at its first NUL. -/
def readStr : CStr → Text
  | none => []
  | some s => s.takeWhile (· ≠ '\x00')

/-! ## 2. The engine, as far as the three calls reach it -/

/-- A message handed to a data channel: `dc.send_text(..)` or `dc.send(..)`. -/
inductive Message where
  | text (s : Text)
  | binary (data : List UInt8)
  deriving DecidableEq, Repr

/-- `Arc<dyn DataChannel>`: which object it is, the id it carries, and whether the channel was
created ordered. -/
structure Channel where
  obj : Nat
  id : UInt16
  ordered : Bool
  deriving DecidableEq, Repr

/-- `RTCIceCandidateInit`; `username_fragment` and `url` are always `None` here. -/
structure IceCandidateInit where
  candidate : Text
  sdpMid : Option Text
  sdpMlineIndex : Option UInt16
  deriving DecidableEq, Repr

/-- Why the engine refuses. -/
inductive EngineError where
  | noRemoteDescription
  | invalidCandidate
  | driverGone
  | dataChannelClosed
  deriving DecidableEq, Repr

/-- The engine at one moment, as far as one of the three can be refused.  The parser of candidates
is a parameter.  Nothing else refuses: the ICE agent takes or passes over whatever was parsed, and
`handle_write` puts a message of a channel that is still there into a queue without a bound. -/
structure Engine where
  /-- `core.remote_description().is_some()` -/
  remoteDescription : Bool
  /-- `core.data_channels.contains_key(&id)` -/
  channels : UInt16 → Bool
  /-- `unmarshal_candidate`; of a candidate only whether it is a passive TCP one matters here. -/
  unmarshalCandidate : Text → Option Bool
  /-- The receiver of `driver_event_tx` is still there. -/
  driver : Bool

/-- `candidate.strip_prefix("candidate:")`, or the text itself. -/
def candidateValue (s : Text) : Text :=
  if "candidate:".toList.isPrefixOf s then s.drop 10 else s

/-- `RTCPeerConnection::add_remote_candidate`: an empty value means end of candidates. -/
def Engine.addRemoteCandidate (e : Engine) (c : IceCandidateInit) : Except EngineError Unit :=
  if e.remoteDescription = false then .error .noRemoteDescription
  else if candidateValue c.candidate ≠ [] ∧
      e.unmarshalCandidate (candidateValue c.candidate) = none then
    .error .invalidCandidate
  else .ok ()

/-- `PeerConnectionImpl::add_ice_candidate`: the core first, then the driver is told about a
passive TCP candidate. -/
def Engine.addIceCandidate (e : Engine) (c : IceCandidateInit) : Except EngineError Unit := do
  e.addRemoteCandidate c
  if e.unmarshalCandidate (candidateValue c.candidate) = some true ∧ e.driver = false then
    .error .driverGone
  else .ok ()

/-- `DataChannelImpl::send` and `send_text`: the core must still know the id.  It forgets the id
when the channel's stream is closed, while the bridge keeps the channel object. -/
def Engine.send (e : Engine) (id : UInt16) : Except EngineError Unit :=
  if e.channels id = false then .error .dataChannelClosed else .ok ()

/-! ## 3. The calls -/

/-- What the three functions spawn on `PC_RUNTIME`. -/
inductive Task where
  | addIceCandidate (init : IceCandidateInit)
  | send (dc : Channel) (m : Message)
  deriving DecidableEq, Repr

/-- What the engine answers when the task runs in state `e`. -/
def Task.outcome (e : Engine) : Task → Except EngineError Unit
  | .addIceCandidate init => e.addIceCandidate init
  | .send dc _ => e.send dc.id

/-- The part of a live `Peer` the calls read: its `data_channels` map. -/
structure Peer where
  dataChannels : UInt16 → Option Channel

/-- The return code of a call and the task it spawned. -/
abbrev CallResult := Int × Option Task

/-- `webrtc_ffi_add_ice_candidate`.  A null handle is `none`. -/
def webrtcFfiAddIceCandidate (peer : Option Peer) (candidate sdpMid : CStr)
    (sdpMlineIndex : Int) : CallResult :=
  match peer with
  | none => (-1, none)
  | some _ =>
    (0, some (.addIceCandidate
      { candidate := readStr candidate
        sdpMid := if (readStr sdpMid).isEmpty then none else some (readStr sdpMid)
        sdpMlineIndex :=
          if sdpMlineIndex < 0 then none else some (UInt16.ofNat sdpMlineIndex.toNat) }))

/-- `webrtc_ffi_data_channel_send_text`. -/
def webrtcFfiDataChannelSendText (peer : Option Peer) (id : UInt16) (text : CStr) :
    CallResult :=
  match peer with
  | none => (-1, none)
  | some p =>
    match p.dataChannels id with
    | none => (-2, none)
    | some dc => (0, some (.send dc (.text (readStr text))))

/-- `webrtc_ffi_data_channel_send_bytes`.  The data pointer is null-checked with the handle. -/
def webrtcFfiDataChannelSendBytes (peer : Option Peer) (id : UInt16)
    (data : Option (List UInt8)) : CallResult :=
  match peer, data with
  | none, _ => (-1, none)
  | some _, none => (-1, none)
  | some p, some bytes =>
    match p.dataChannels id with
    | none => (-2, none)
    | some dc => (0, some (.send dc (.binary bytes)))

/-- One call of any of the three functions, with its arguments. -/
inductive Op where
  | addIceCandidate (candidate sdpMid : CStr) (sdpMlineIndex : Int)
  | sendText (id : UInt16) (text : CStr)
  | sendBytes (id : UInt16) (data : Option (List UInt8))
  deriving DecidableEq, Repr

/-- The native side of the call. -/
def Op.ffi (peer : Option Peer) : Op → CallResult
  | .addIceCandidate c mid i => webrtcFfiAddIceCandidate peer c mid i
  | .sendText id t => webrtcFfiDataChannelSendText peer id t
  | .sendBytes id d => webrtcFfiDataChannelSendBytes peer id d

/-- How the Java wrapper ends. -/
inductive JavaResult where
  | returns
  | throws
  deriving DecidableEq, Repr

/-- The Java wrapper (`addIceCandidate`, `sendDataChannelText`, `sendDataChannelBytes`):
`checkClosed` first, then `IllegalStateException` on any non-zero code. -/
def Op.java (closed : Bool) (peer : Option Peer) (op : Op) : JavaResult × Option Task :=
  if closed then (.throws, none)
  else if (op.ffi peer).1 ≠ 0 then (.throws, (op.ffi peer).2)
  else (.returns, (op.ffi peer).2)

/-! ## 4. What the return code says about the engine's answer -/

/-- The law the return codes are documented to obey, for the engine state `e` in which the
spawned task is run: 0, and a normal return of the wrapper, only if the engine accepts; an
engine error always as a non-zero code and an exception. -/
def Truthful (peer : Option Peer) (op : Op) (e : Engine) : Prop :=
  ((op.ffi peer).1 = 0 → ∃ t, (op.ffi peer).2 = some t ∧ t.outcome e = .ok ()) ∧
  (∀ t err, (op.ffi peer).2 = some t → t.outcome e = .error err → (op.ffi peer).1 ≠ 0) ∧
  (∀ closed, (op.java closed peer).1 = .returns →
    ∃ t, (op.java closed peer).2 = some t ∧ t.outcome e = .ok ()) ∧
  (∀ closed t err, (op.java closed peer).2 = some t → t.outcome e = .error err →
    (op.java closed peer).1 = .throws)

/-- The engine takes the candidate: a remote description is set, the text is empty or can be
parsed, and the driver is there if it has to be told. -/
def TakesCandidate (e : Engine) (candidate : Text) : Prop :=
  e.remoteDescription = true ∧
    (candidateValue candidate = [] ∨ e.unmarshalCandidate (candidateValue candidate) ≠ none) ∧
    (e.unmarshalCandidate (candidateValue candidate) = some true → e.driver = true)

/-- **The exact condition.**  Either the call is turned down before anything is spawned (a null
handle, a null data pointer, an id that `data_channels` does not hold), or the engine, at the
moment the task runs, is in a state that takes the operation. -/
def RefusedOrTaken (peer : Option Peer) (op : Op) (e : Engine) : Prop :=
  match peer, op with
  | none, _ => True
  | some _, .addIceCandidate c _ _ => TakesCandidate e (readStr c)
  | some p, .sendText id _ =>
    ∀ dc, p.dataChannels id = some dc → e.channels dc.id = true
  | some p, .sendBytes id d =>
    ∀ dc, d ≠ none → p.dataChannels id = some dc → e.channels dc.id = true

theorem addIceCandidate_ok_iff (e : Engine) (c : IceCandidateInit) :
    e.addIceCandidate c = .ok () ↔ TakesCandidate e c.candidate := by
  unfold Engine.addIceCandidate Engine.addRemoteCandidate TakesCandidate
  cases hr : e.remoteDescription with
  | false => simp [bind, Except.bind]
  | true =>
    by_cases hv : candidateValue c.candidate = []
    · cases hd : e.driver <;> simp [bind, Except.bind, hv]
    · cases hu : e.unmarshalCandidate (candidateValue c.candidate) <;>
        cases hd : e.driver <;> simp [bind, Except.bind, hv]

theorem send_ok_iff (e : Engine) (id : UInt16) : e.send id = .ok () ↔ e.channels id = true := by
  unfold Engine.send
  cases e.channels id <;> simp

/-- A call either spawns nothing and returns a negative code, or spawns one task and returns
0: the return code is fixed before the engine is asked. -/
theorem ffi_cases (peer : Option Peer) (op : Op) :
    ((op.ffi peer).1 ≠ 0 ∧ (op.ffi peer).2 = none) ∨
      ∃ t, op.ffi peer = (0, some t) := by
  cases op with
  | addIceCandidate c mid i =>
    cases peer with
    | none => exact Or.inl ⟨by simp [Op.ffi, webrtcFfiAddIceCandidate], rfl⟩
    | some p => exact Or.inr ⟨_, rfl⟩
  | sendText id t =>
    cases peer with
    | none => exact Or.inl ⟨by simp [Op.ffi, webrtcFfiDataChannelSendText], rfl⟩
    | some p =>
      cases hdc : p.dataChannels id with
      | none => exact Or.inl (by simp [Op.ffi, webrtcFfiDataChannelSendText, hdc])
      | some dc => exact Or.inr ⟨_, by simp [Op.ffi, webrtcFfiDataChannelSendText, hdc]; rfl⟩
  | sendBytes id d =>
    cases peer with
    | none => exact Or.inl ⟨by simp [Op.ffi, webrtcFfiDataChannelSendBytes], rfl⟩
    | some p =>
      cases d with
      | none => exact Or.inl ⟨by simp [Op.ffi, webrtcFfiDataChannelSendBytes], rfl⟩
      | some bytes =>
        cases hdc : p.dataChannels id with
        | none => exact Or.inl (by simp [Op.ffi, webrtcFfiDataChannelSendBytes, hdc])
        | some dc =>
          exact Or.inr ⟨_, by simp [Op.ffi, webrtcFfiDataChannelSendBytes, hdc]; rfl⟩

/-- The condition, read off the call's own result: nothing was spawned, or the task that was
spawned is one the engine takes. -/
theorem refusedOrTaken_iff (peer : Option Peer) (op : Op) (e : Engine) :
    RefusedOrTaken peer op e ↔ ∀ t, (op.ffi peer).2 = some t → t.outcome e = .ok () := by
  cases peer with
  | none =>
    have hnone : (op.ffi none).2 = none := by cases op <;> rfl
    simp [RefusedOrTaken, hnone]
  | some p =>
    cases op with
    | addIceCandidate c mid i =>
      simp [RefusedOrTaken, Op.ffi, webrtcFfiAddIceCandidate, Task.outcome,
        addIceCandidate_ok_iff]
    | sendText id t =>
      cases hdc : p.dataChannels id with
      | none => simp [RefusedOrTaken, Op.ffi, webrtcFfiDataChannelSendText, hdc]
      | some dc =>
        simp [RefusedOrTaken, Op.ffi, webrtcFfiDataChannelSendText, hdc, Task.outcome,
          send_ok_iff]
    | sendBytes id d =>
      cases d with
      | none => simp [RefusedOrTaken, Op.ffi, webrtcFfiDataChannelSendBytes]
      | some bytes =>
        cases hdc : p.dataChannels id with
        | none => simp [RefusedOrTaken, Op.ffi, webrtcFfiDataChannelSendBytes, hdc]
        | some dc =>
          simp [RefusedOrTaken, Op.ffi, webrtcFfiDataChannelSendBytes, hdc, Task.outcome,
            send_ok_iff]

/-- **The return code is truthful exactly when it did not matter.**  For every peer, every
call and every engine state in which the spawned task may run, the documented law holds if and
only if the call was turned down before spawning or the engine happens to accept: an engine
error is never reported. -/
theorem truthful_iff (peer : Option Peer) (op : Op) (e : Engine) :
    Truthful peer op e ↔ RefusedOrTaken peer op e := by
  rw [refusedOrTaken_iff]
  rcases ffi_cases peer op with ⟨hrc, hnone⟩ | ⟨t, ht⟩
  · -- refused: the code is negative and there is no task whose answer could be lost
    refine iff_of_true ⟨fun h => absurd h hrc, ?_, ?_, ?_⟩ ?_
    · intro t err h
      rw [hnone] at h
      cases h
    · intro closed h
      cases closed <;> simp [Op.java, hrc] at h
    · intro closed t err h
      cases closed <;> simp [Op.java, hrc]
    · intro t h
      rw [hnone] at h
      cases h
  · -- spawned: the code is already 0, whatever the engine will say
    constructor
    · rintro ⟨h, -⟩ t' ht'
      obtain ⟨t₀, ht₀, hok⟩ := h (by rw [ht])
      rw [ht₀] at ht'
      cases ht'
      exact hok
    · intro h
      have hok : t.outcome e = .ok () := h t (by rw [ht])
      refine ⟨fun _ => ⟨t, by rw [ht], hok⟩, ?_, ?_, ?_⟩
      · intro t' err h1 h2
        rw [ht] at h1
        cases h1
        rw [hok] at h2
        cases h2
      · intro closed hret
        cases closed with
        | true => simp [Op.java] at hret
        | false => exact ⟨t, by simp [Op.java, ht], hok⟩
      · intro closed t' err h1 h2
        cases closed with
        | true => simp [Op.java] at h1
        | false =>
          simp only [Op.java, ht, Bool.false_eq_true, if_false, ne_eq, not_true_eq_false,
            Option.some.injEq] at h1
          subst h1
          rw [hok] at h2
          cases h2

/-- An engine before any remote description, whose channels are all closed. -/
def earlyEngine : Engine where
  remoteDescription := false
  channels := fun _ => false
  unmarshalCandidate := fun _ => none
  driver := true

/-- A peer that still holds channel 1. -/
def earlyPeer : Peer where
  dataChannels := fun id => if id = 1 then some ⟨0, 1, true⟩ else none

/-- All three calls return 0 and the wrapper returns normally although the engine refuses:
a candidate before the remote description, and both sends on a closed channel. -/
theorem not_truthful_early :
    ¬ Truthful (some earlyPeer) (.addIceCandidate (some "candidate:x".toList) none (-1))
        earlyEngine ∧
      ¬ Truthful (some earlyPeer) (.sendText 1 (some "hi".toList)) earlyEngine ∧
      ¬ Truthful (some earlyPeer) (.sendBytes 1 (some [7])) earlyEngine := by
  refine ⟨?_, ?_, ?_⟩
  · rintro ⟨h, -⟩
    obtain ⟨t, ht, hok⟩ := h rfl
    cases ht
    simp [Task.outcome, Engine.addIceCandidate, Engine.addRemoteCandidate, earlyEngine, bind,
      Except.bind] at hok
  · rintro ⟨h, -⟩
    obtain ⟨t, ht, hok⟩ := h rfl
    cases ht
    simp [Task.outcome, Engine.send, earlyEngine] at hok
  · rintro ⟨h, -⟩
    obtain ⟨t, ht, hok⟩ := h rfl
    cases ht
    simp [Task.outcome, Engine.send, earlyEngine] at hok

end WebrtcBridge.Ffi
