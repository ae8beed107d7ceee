/-
# Who may still use a native handle

`Configuration`, `PeerConnection` and `SessionDescription` each wrap one native allocation and
pass it to `webrtc_ffi_*`.  Their guards differ:

* `Configuration` has a `closed` flag that every setter and `close()` test, but
  `PeerConnection.create` fetches the handle through the package-private `handle()`, which
  tests nothing.  `create` frees the configuration, so a second `create` with the same object
  hands freed memory to `webrtc_ffi_peer_create`;
* `PeerConnection` has a `closed` flag tested by every operation and by `close()`;
  `StatsReport.fetch(pc)` goes around it through `handle()`;
* `SessionDescription` has NO flag at all: `close()` twice frees twice, and `getSdp`,
  `getSdpType` or `set*Description` after `close()` read freed memory.

The model is the log of native calls that a sequence of public calls produces.
`native_ownership_iff` says for which sequences that log is safe: exactly those that never take
one of the three unguarded paths with an object already released.
-/
import WebrtcBridge.Lib.Runs

namespace WebrtcBridge.Java

open Lib

/-! ## 1. Native calls and when a log of them is safe -/

/-- A native allocation.  Every successful `create` wraps a fresh one, so it is named by its
class and by the number of the object that wraps it. -/
inductive Handle where
  | config (i : Nat)
  | peer (i : Nat)
  | desc (i : Nat)
  deriving DecidableEq, Repr

/-- The setters of `Configuration`: all of them test `closed` and then pass the handle on. -/
inductive ConfigSetter where
  | addIceServer | setTransport | setPortRange | setAllocatorFlags | setRtcpForwarder | setCodecs
  deriving DecidableEq, Repr

/-- The operations of `PeerConnection` that test `closed` and pass only their own handle on. -/
inductive PeerMethod where
  | addTransceiver | addTransceiverFromKind | addTransceiverFromKindWithEncoding | getStats
  | pollRtcp | addIceCandidate | createDataChannel | setDataChannelCallbacks
  | sendDataChannelText | sendDataChannelBytes | addTrack | removeTrack | getSenders
  deriving DecidableEq, Repr

/-- `setLocalDescription` or `setRemoteDescription`. -/
inductive Side where
  | localSide | remoteSide
  deriving DecidableEq, Repr

/-- A call of a `webrtc_ffi_*` function, with the handles it is given. -/
inductive NativeCall where
  | configSet (m : ConfigSetter) (cfg : Handle)
  | configFree (cfg : Handle)
  | peerCreate (cfg : Handle)
  | peerMethod (m : PeerMethod) (peer : Handle)
  | createOffer (peer : Handle)
  | createAnswer (peer : Handle)
  | setDescription (side : Side) (peer desc : Handle)
  | getStats (peer : Handle)
  | peerClose (peer : Handle)
  | descriptionSdp (desc : Handle)
  | descriptionType (desc : Handle)
  | descriptionFree (desc : Handle)
  deriving DecidableEq, Repr

/-- The handles passed. -/
def NativeCall.args : NativeCall → List Handle
  | .configSet _ h | .configFree h | .peerCreate h | .peerMethod _ h | .createOffer h
  | .createAnswer h | .getStats h | .peerClose h | .descriptionSdp h | .descriptionType h
  | .descriptionFree h => [h]
  | .setDescription _ p d => [p, d]

/-- The handle the call frees: `config_free`, `peer_close` and `description_free`. -/
def NativeCall.frees : NativeCall → List Handle
  | .configFree h | .peerClose h | .descriptionFree h => [h]
  | _ => []

/-- Handles freed by a log. -/
def freed (log : List NativeCall) : List Handle := log.flatMap NativeCall.frees

@[simp] theorem freed_append (l l' : List NativeCall) : freed (l ++ l') = freed l ++ freed l' := by
  simp [freed]

/-- No call of the log is given a handle that is in `gone` or that an earlier call freed.  A
second free of a handle is such a call too. -/
def SafeAfter : List Handle → List NativeCall → Prop
  | _, [] => True
  | gone, c :: cs => (∀ h ∈ c.args, h ∉ gone) ∧ SafeAfter (gone ++ c.frees) cs

/-- No handle is passed on after it was freed, and none is freed twice. -/
def Safe (log : List NativeCall) : Prop := SafeAfter [] log

instance decidableSafeAfter : ∀ (gone : List Handle) (log : List NativeCall),
    Decidable (SafeAfter gone log)
  | _, [] => .isTrue trivial
  | gone, c :: cs =>
    have := decidableSafeAfter (gone ++ c.frees) cs
    inferInstanceAs (Decidable (_ ∧ _))

instance (log : List NativeCall) : Decidable (Safe log) :=
  inferInstanceAs (Decidable (SafeAfter [] log))

theorem safeAfter_append : ∀ (l l' : List NativeCall) (gone : List Handle),
    SafeAfter gone (l ++ l') ↔ SafeAfter gone l ∧ SafeAfter (gone ++ freed l) l'
  | [], l', gone => by simp [SafeAfter, freed]
  | c :: l, l', gone => by
    have hf : freed (c :: l) = c.frees ++ freed l := rfl
    rw [List.cons_append, SafeAfter, SafeAfter, safeAfter_append l l', hf, and_assoc,
      List.append_assoc]

theorem safe_append (l l' : List NativeCall) :
    Safe (l ++ l') ↔ Safe l ∧ SafeAfter (freed l) l' := by
  rw [Safe, safeAfter_append, List.nil_append]
  rfl

/-! ## 2. The public calls -/

/-- A public call.  Objects are named by the order in which their class created them; a call on
an object that does not exist cannot be written in Java and does nothing here.  The `Bool`s are
the parts the caller does not control (whether a native constructor returns non-null) or that
only matter for an early exception (`observer` is null). -/
inductive Call where
  | configurationCreate
  | configurationSet (m : ConfigSetter) (cfg : Nat)
  | configurationClose (cfg : Nat)
  | peerConnectionCreate (cfg : Nat) (observerNull nativeOk : Bool)
  | peerMethod (m : PeerMethod) (pc : Nat)
  | createOffer (pc : Nat) (nativeOk : Bool)
  | createAnswer (pc : Nat) (nativeOk : Bool)
  | setDescription (side : Side) (pc desc : Nat)
  | peerConnectionClose (pc : Nat)
  | statsFetch (pc : Nat)
  | descriptionCreate (nativeOk : Bool)
  | getSdp (desc : Nat)
  | getSdpType (desc : Nat)
  | descriptionClose (desc : Nat)
  deriving DecidableEq, Repr

/-- The Java objects, with the `closed` flag of those that have one, and the native log.  A
`SessionDescription` has no state besides its final handle, so only their number is kept. -/
structure Objects where
  configurations : List Bool
  peerConnections : List Bool
  descriptions : Nat
  native : List NativeCall
  deriving DecidableEq, Repr

/-- No object yet. -/
def Objects.init : Objects := ⟨[], [], 0, []⟩

/-- Append native calls to the log. -/
def Objects.log (s : Objects) (cs : List NativeCall) : Objects :=
  { s with native := s.native ++ cs }

/-- `Configuration.close()` as `PeerConnection.create` and applications call it. -/
def Objects.closeConfiguration (s : Objects) (i : Nat) : Objects :=
  match s.configurations[i]? with
  | some false =>
    { s with
      configurations := s.configurations.set i true
      native := s.native ++ [.configFree (.config i)] }
  | _ => s

/-- `if (!closed) ...` followed by a plain native call on the peer handle. -/
def Objects.onOpenPeer (s : Objects) (pc : Nat) (f : Handle → NativeCall) : Objects :=
  match s.peerConnections[pc]? with
  | some false => s.log [f (.peer pc)]
  | _ => s

/-- A description returned by the native side is wrapped in a new object. -/
def Objects.wrapDescription (s : Objects) (pc : Nat) (f : Handle → NativeCall)
    (nativeOk : Bool) : Objects :=
  match s.peerConnections[pc]? with
  | some false =>
    { s with
      descriptions := if nativeOk then s.descriptions + 1 else s.descriptions
      native := s.native ++ [f (.peer pc)] }
  | _ => s

/-- A method of `SessionDescription`: the handle is never null, so the guard always passes. -/
def Objects.onDescription (s : Objects) (d : Nat) (f : Handle → NativeCall) : Objects :=
  if d < s.descriptions then s.log [f (.desc d)] else s

/-- One public call.  An exception is a step that leaves the log alone. -/
def call (s : Objects) : Call → Objects
  | .configurationCreate => { s with configurations := s.configurations ++ [false] }
  | .configurationSet m i =>
    match s.configurations[i]? with
    | some false => s.log [.configSet m (.config i)]
    | _ => s
  | .configurationClose i => s.closeConfiguration i
  | .peerConnectionCreate i observerNull nativeOk =>
    -- `requireNonNull(observer)` comes before `config.handle()`; the latter tests nothing
    if observerNull || (s.configurations[i]?).isNone then s
    else
      let s := (s.log [.peerCreate (.config i)]).closeConfiguration i
      if nativeOk then { s with peerConnections := s.peerConnections ++ [false] } else s
  | .peerMethod m pc => s.onOpenPeer pc (.peerMethod m)
  | .createOffer pc ok => s.wrapDescription pc .createOffer ok
  | .createAnswer pc ok => s.wrapDescription pc .createAnswer ok
  | .setDescription side pc d =>
    if d < s.descriptions then s.onOpenPeer pc (.setDescription side · (.desc d)) else s
  | .peerConnectionClose pc =>
    match s.peerConnections[pc]? with
    | some false =>
      { s with
        peerConnections := s.peerConnections.set pc true
        native := s.native ++ [.peerClose (.peer pc)] }
    | _ => s
  | .statsFetch pc =>
    if pc < s.peerConnections.length then s.log [.getStats (.peer pc)] else s
  | .descriptionCreate ok =>
    { s with descriptions := if ok then s.descriptions + 1 else s.descriptions }
  | .getSdp d => s.onDescription d .descriptionSdp
  | .getSdpType d => s.onDescription d .descriptionType
  | .descriptionClose d => s.onDescription d .descriptionFree

/-! ## 3. The flags record exactly what was freed -/

/-- What the flags and counters say about the log: a handle is freed exactly when its object's
flag is set, and no handle of an object that does not exist yet was ever freed. -/
structure Tracks (s : Objects) : Prop where
  config : ∀ i, Handle.config i ∈ freed s.native ↔ s.configurations[i]? = some true
  peer : ∀ i, Handle.peer i ∈ freed s.native ↔ s.peerConnections[i]? = some true
  desc : ∀ i, Handle.desc i ∈ freed s.native → i < s.descriptions

theorem tracks_init : Tracks .init where
  config := by simp [Objects.init, freed]
  peer := by simp [Objects.init, freed]
  desc := by simp [Objects.init, freed]

/-- A native call that frees nothing keeps the correspondence. -/
theorem Tracks.log {s : Objects} (h : Tracks s) {c : NativeCall} (hc : c.frees = []) :
    Tracks (s.log [c]) := by
  have hf : freed (s.native ++ [c]) = freed s.native := by simp [freed, hc]
  refine ⟨?_, ?_, ?_⟩ <;> simp only [Objects.log, hf]
  · exact h.config
  · exact h.peer
  · exact h.desc

theorem Tracks.closeConfiguration {s : Objects} (h : Tracks s) (i : Nat) :
    Tracks (s.closeConfiguration i) := by
  unfold Objects.closeConfiguration
  split
  · rename_i hi
    have hlt : i < s.configurations.length := (List.getElem?_eq_some_iff.mp hi).1
    refine ⟨fun j => ?_, fun j => ?_, fun j hj => ?_⟩
    · have hj := h.config j
      simp only [freed_append, List.mem_append, hj]
      by_cases hji : j = i
      · subst hji
        simp [freed, NativeCall.frees, hlt]
      · simp [freed, NativeCall.frees, List.getElem?_set_ne (Ne.symm hji), hji]
    · simpa [freed, NativeCall.frees] using h.peer j
    · exact h.desc j (by simpa [freed, NativeCall.frees] using hj)
  · exact h

theorem Tracks.addConfiguration {s : Objects} (h : Tracks s) :
    Tracks { s with configurations := s.configurations ++ [false] } := by
  refine ⟨fun i => ?_, h.peer, h.desc⟩
  rw [h.config i, List.getElem?_append]
  split
  · rfl
  · rename_i hge
    have hnone : s.configurations[i]? = none := List.getElem?_eq_none (by omega)
    simp only [hnone]
    cases hj : i - s.configurations.length <;> simp

theorem Tracks.addPeer {s : Objects} (h : Tracks s) :
    Tracks { s with peerConnections := s.peerConnections ++ [false] } := by
  refine ⟨h.config, fun i => ?_, h.desc⟩
  rw [h.peer i, List.getElem?_append]
  split
  · rfl
  · rename_i hge
    have hnone : s.peerConnections[i]? = none := List.getElem?_eq_none (by omega)
    simp only [hnone]
    cases hj : i - s.peerConnections.length <;> simp

theorem Tracks.moreDescriptions {s : Objects} (h : Tracks s) {n : Nat}
    (hn : s.descriptions ≤ n) : Tracks { s with descriptions := n } :=
  ⟨h.config, h.peer, fun i hi => Nat.lt_of_lt_of_le (h.desc i hi) hn⟩

theorem Tracks.onOpenPeer {s : Objects} (h : Tracks s) (pc : Nat) {f : Handle → NativeCall}
    (hf : ∀ p, (f p).frees = []) : Tracks (s.onOpenPeer pc f) := by
  unfold Objects.onOpenPeer
  split
  · exact h.log (hf _)
  · exact h

theorem Tracks.wrapDescription {s : Objects} (h : Tracks s) (pc : Nat)
    {f : Handle → NativeCall} (hf : ∀ p, (f p).frees = []) (ok : Bool) :
    Tracks (s.wrapDescription pc f ok) := by
  unfold Objects.wrapDescription
  split
  · refine (h.log (hf (.peer pc))).moreDescriptions ?_
    show s.descriptions ≤ _
    split <;> omega
  · exact h

/-- `PeerConnection.close` on an open peer. -/
theorem Tracks.closePeer {s : Objects} (h : Tracks s) {pc : Nat}
    (hi : s.peerConnections[pc]? = some false) :
    Tracks
      { s with
        peerConnections := s.peerConnections.set pc true
        native := s.native ++ [.peerClose (.peer pc)] } := by
  have hlt : pc < s.peerConnections.length := (List.getElem?_eq_some_iff.mp hi).1
  refine ⟨fun j => ?_, fun j => ?_, fun j hj => ?_⟩
  · simpa [freed, NativeCall.frees] using h.config j
  · have hj := h.peer j
    simp only [freed_append, List.mem_append, hj]
    by_cases hji : j = pc
    · subst hji
      simp [freed, NativeCall.frees, hlt]
    · simp [freed, NativeCall.frees, List.getElem?_set_ne (Ne.symm hji), hji]
  · exact h.desc j (by simpa [freed, NativeCall.frees] using hj)

/-- `SessionDescription.close`, which frees the handle whether it was freed before or not. -/
theorem Tracks.freeDescription {s : Objects} (h : Tracks s) {d : Nat} (hd : d < s.descriptions) :
    Tracks (s.log [.descriptionFree (.desc d)]) := by
  refine ⟨fun j => ?_, fun j => ?_, fun j hj => ?_⟩
  · simpa [Objects.log, freed, NativeCall.frees] using h.config j
  · simpa [Objects.log, freed, NativeCall.frees] using h.peer j
  · simp only [Objects.log, freed_append, List.mem_append] at hj
    rcases hj with hj | hj
    · exact h.desc j hj
    · have hjd : j = d := by simpa [freed, NativeCall.frees] using hj
      exact hjd ▸ hd

/-- **Every public call keeps the correspondence.** -/
theorem Tracks.call {s : Objects} (h : Tracks s) (c : Call) : Tracks (call s c) := by
  cases c with
  | configurationCreate => exact h.addConfiguration
  | configurationSet m i =>
    simp only [Java.call]
    split
    · exact h.log rfl
    · exact h
  | configurationClose i => exact h.closeConfiguration i
  | peerConnectionCreate i obs ok =>
    simp only [Java.call]
    split
    · exact h
    · have h' := (h.log (c := .peerCreate (.config i)) rfl).closeConfiguration i
      split
      · exact h'.addPeer
      · exact h'
  | peerMethod m pc => exact h.onOpenPeer pc fun _ => rfl
  | createOffer pc ok => exact h.wrapDescription pc (fun _ => rfl) ok
  | createAnswer pc ok => exact h.wrapDescription pc (fun _ => rfl) ok
  | setDescription side pc d =>
    simp only [Java.call]
    split
    · exact h.onOpenPeer pc fun _ => rfl
    · exact h
  | peerConnectionClose pc =>
    simp only [Java.call]
    split
    · exact h.closePeer ‹_›
    · exact h
  | statsFetch pc =>
    simp only [Java.call]
    split
    · exact h.log rfl
    · exact h
  | descriptionCreate ok =>
    refine h.moreDescriptions ?_
    split <;> omega
  | getSdp d | getSdpType d =>
    simp only [Java.call, Objects.onDescription]
    split
    · exact h.log rfl
    · exact h
  | descriptionClose d =>
    simp only [Java.call, Objects.onDescription]
    split
    · exact h.freeDescription ‹_›
    · exact h

/-! ## 4. Which calls are safe -/

/-- **The exact condition on a call**, in the state before it: the three unguarded paths are
not taken with an object already released.  `create` needs an unconsumed configuration,
`StatsReport.fetch` an open peer, and everything that reads or frees a description one that
`close()` has not freed yet (unless a closed peer throws first). -/
def NotReleased (s : Objects) : Call → Prop
  | .peerConnectionCreate i observerNull _ =>
    observerNull = false → s.configurations[i]? ≠ some true
  | .setDescription _ pc d => s.peerConnections[pc]? = some false → .desc d ∉ freed s.native
  | .statsFetch pc => s.peerConnections[pc]? ≠ some true
  | .getSdp d | .getSdpType d | .descriptionClose d => .desc d ∉ freed s.native
  | _ => True

theorem safe_log_iff {s : Objects} (hs : Safe s.native) (c : NativeCall) :
    Safe (s.log [c]).native ↔ ∀ h ∈ c.args, h ∉ freed s.native := by
  simp [Objects.log, safe_append, hs, SafeAfter]

/-- A call on an open peer through the flag is always safe. -/
theorem Tracks.peer_not_freed {s : Objects} (h : Tracks s) {pc : Nat}
    (hpc : s.peerConnections[pc]? = some false) : Handle.peer pc ∉ freed s.native := by
  rw [h.peer pc, hpc]
  simp

theorem Tracks.config_not_freed {s : Objects} (h : Tracks s) {i : Nat}
    (hi : s.configurations[i]? = some false) : Handle.config i ∉ freed s.native := by
  rw [h.config i, hi]
  simp

theorem safe_closeConfiguration {s : Objects} (h : Tracks s) (hs : Safe s.native) (i : Nat) :
    Safe (s.closeConfiguration i).native := by
  unfold Objects.closeConfiguration
  split
  · rename_i hi
    rw [safe_append]
    exact ⟨hs, by simpa [SafeAfter, NativeCall.args] using h.config_not_freed hi⟩
  · exact hs

theorem safe_onOpenPeer {s : Objects} (h : Tracks s) (hs : Safe s.native) (pc : Nat)
    {f : Handle → NativeCall} (hf : ∀ p, (f p).args = [p]) :
    Safe (s.onOpenPeer pc f).native := by
  unfold Objects.onOpenPeer
  split
  · rename_i hpc
    rw [safe_log_iff hs, hf]
    simpa using h.peer_not_freed hpc
  · exact hs

theorem safe_wrapDescription {s : Objects} (h : Tracks s) (hs : Safe s.native) (pc : Nat)
    {f : Handle → NativeCall} (hf : ∀ p, (f p).args = [p]) (ok : Bool) :
    Safe (s.wrapDescription pc f ok).native := by
  unfold Objects.wrapDescription
  split
  · rename_i hpc
    show Safe (s.log [f (.peer pc)]).native
    rw [safe_log_iff hs, hf]
    simpa using h.peer_not_freed hpc
  · exact hs

theorem safe_onDescription_iff {s : Objects} (h : Tracks s) (hs : Safe s.native) (d : Nat)
    {f : Handle → NativeCall} (hf : ∀ p, (f p).args = [p]) :
    Safe (s.onDescription d f).native ↔ .desc d ∉ freed s.native := by
  unfold Objects.onDescription
  split
  · rw [safe_log_iff hs, hf]
    simp
  · rename_i hd
    exact iff_of_true hs fun hmem => hd (h.desc d hmem)

/-- `PeerConnection.create` passes the handle of the configuration on without looking whether it is
closed. -/
theorem safe_create_iff {s : Objects} (h : Tracks s) (hs : Safe s.native) (i : Nat)
    (observerNull ok : Bool) :
    Safe (call s (.peerConnectionCreate i observerNull ok)).native
      ↔ NotReleased s (.peerConnectionCreate i observerNull ok) := by
  cases observerNull with
  | true => exact iff_of_true (by simpa [call] using hs) (by simp [NotReleased])
  | false =>
    have hpeers : ∀ s' : Objects,
        (if ok = true then { s' with peerConnections := s'.peerConnections ++ [false] }
          else s').native = s'.native := by
      intro s'
      split <;> rfl
    cases hi : s.configurations[i]? with
    | none => exact iff_of_true (by simpa [call, hi] using hs) (by simp [NotReleased, hi])
    | some closed =>
      simp only [call, hi, Bool.false_or, Option.isNone_some, Bool.false_eq_true, if_false, hpeers]
      cases closed with
      | true =>
        -- the configuration was consumed before: its freed handle is passed on
        refine iff_of_false ?_ (by simp [NotReleased, hi])
        have hstay : (s.log [.peerCreate (.config i)]).closeConfiguration i
            = s.log [.peerCreate (.config i)] := by
          simp [Objects.closeConfiguration, Objects.log, hi]
        rw [hstay, safe_log_iff hs]
        simp [NativeCall.args, (h.config i).mpr hi]
      | false =>
        refine iff_of_true ?_ (by simp [NotReleased, hi])
        refine safe_closeConfiguration (h.log rfl) ?_ i
        rw [safe_log_iff hs]
        simpa [NativeCall.args] using h.config_not_freed hi

/-- **One public call keeps the log safe exactly when it heeds the condition.** -/
theorem safe_call_iff {s : Objects} (h : Tracks s) (hs : Safe s.native) (c : Call) :
    Safe (call s c).native ↔ NotReleased s c := by
  cases c with
  | configurationCreate => exact iff_of_true hs trivial
  | configurationSet m i =>
    refine iff_of_true ?_ trivial
    simp only [call]
    split
    · rename_i hi
      rw [safe_log_iff hs]
      simpa [NativeCall.args] using h.config_not_freed hi
    · exact hs
  | configurationClose i => exact iff_of_true (safe_closeConfiguration h hs i) trivial
  | peerConnectionCreate i obs ok => exact safe_create_iff h hs i obs ok
  | peerMethod m pc => exact iff_of_true (safe_onOpenPeer h hs pc fun _ => rfl) trivial
  | createOffer pc ok =>
    exact iff_of_true (safe_wrapDescription h hs pc (fun _ => rfl) ok) trivial
  | createAnswer pc ok =>
    exact iff_of_true (safe_wrapDescription h hs pc (fun _ => rfl) ok) trivial
  | setDescription side pc d =>
    simp only [call, NotReleased, Objects.onOpenPeer]
    split
    · split
      · rename_i hpc
        rw [safe_log_iff hs]
        simp [NativeCall.args, h.peer_not_freed hpc, hpc]
      · rename_i hpc
        exact iff_of_true hs fun hopen => absurd hopen hpc
    · rename_i hd
      exact iff_of_true hs fun _ hmem => hd (h.desc d hmem)
  | peerConnectionClose pc =>
    refine iff_of_true ?_ trivial
    simp only [call]
    split
    · rename_i hpc
      rw [safe_append]
      exact ⟨hs, by simpa [SafeAfter, NativeCall.args] using h.peer_not_freed hpc⟩
    · exact hs
  | statsFetch pc =>
    simp only [call, NotReleased]
    split
    · rw [safe_log_iff hs]
      simp [NativeCall.args, h.peer pc]
    · rename_i hpc
      have hnone : s.peerConnections[pc]? = none := List.getElem?_eq_none (by omega)
      exact iff_of_true hs (by simp [hnone])
  | descriptionCreate ok => exact iff_of_true hs trivial
  | getSdp d => exact safe_onDescription_iff h hs d fun _ => rfl
  | getSdpType d => exact safe_onDescription_iff h hs d fun _ => rfl
  | descriptionClose d => exact safe_onDescription_iff h hs d fun _ => rfl

/-! ## 5. Whole call sequences -/

/-- The log only grows, so an unsafe log stays unsafe. -/
theorem call_native (s : Objects) (c : Call) :
    ∃ more, (call s c).native = s.native ++ more := by
  have hclose : ∀ (t : Objects) (i : Nat),
      ∃ more, (t.closeConfiguration i).native = t.native ++ more := by
    intro t i
    unfold Objects.closeConfiguration
    split
    · exact ⟨_, rfl⟩
    · exact ⟨[], by simp⟩
  have hself : ∃ more, s.native = s.native ++ more := ⟨[], by simp⟩
  cases c with
  | peerConnectionCreate i obs ok =>
    simp only [call]
    split
    · exact hself
    · obtain ⟨more, hm⟩ := hclose (s.log [.peerCreate (.config i)]) i
      refine ⟨[.peerCreate (.config i)] ++ more, ?_⟩
      rw [← List.append_assoc]
      split <;> exact hm
  | configurationClose i => exact hclose s i
  | configurationCreate | descriptionCreate ok => exact hself
  | setDescription side pc d =>
    simp only [call, Objects.onOpenPeer]
    split
    · split
      · exact ⟨_, rfl⟩
      · exact hself
    · exact hself
  | configurationSet m i | peerMethod m pc | createOffer pc ok | createAnswer pc ok
  | peerConnectionClose pc | statsFetch pc | getSdp d | getSdpType d | descriptionClose d =>
    simp only [call, Objects.onOpenPeer, Objects.wrapDescription, Objects.onDescription]
    split
    · exact ⟨_, rfl⟩
    · exact hself

theorem unsafe_stays : ∀ (cs : List Call) (s : Objects), ¬ Safe s.native →
    ¬ Safe (run call s cs).native
  | [], _, h => h
  | c :: cs, s, h => by
    refine unsafe_stays cs (call s c) ?_
    obtain ⟨more, hm⟩ := call_native s c
    rw [hm, safe_append]
    exact fun hsafe => h hsafe.1

theorem safe_run_iff : ∀ (cs : List Call) (s : Objects), Tracks s → Safe s.native →
    (Safe (run call s cs).native ↔ Heeds NotReleased call s cs)
  | [], _, _, hs => iff_of_true hs trivial
  | c :: cs, s, ht, hs => by
    rw [run_cons, Heeds, ← safe_call_iff ht hs c]
    by_cases hc : Safe (call s c).native
    · simp only [hc, true_and]
      exact safe_run_iff cs (call s c) (ht.call c) hc
    · simp only [hc, false_and, iff_false]
      exact unsafe_stays cs _ hc

/-- **Native ownership.**  For every sequence of public calls, no native handle is used or
freed after it was freed if and only if no call of the sequence takes an unguarded path with a
released object. -/
theorem native_ownership_iff (cs : List Call) :
    Safe (run call .init cs).native ↔ Heeds NotReleased call .init cs :=
  safe_run_iff cs .init tracks_init trivial

/-- Reusing a configuration that `create` consumed, as the data-channel guide does, and closing
a description twice: freed handles reach the native side. -/
theorem native_handle_reused :
    ¬ Safe (run call .init [.configurationCreate, .peerConnectionCreate 0 false true,
        .peerConnectionCreate 0 false true]).native ∧
      ¬ Safe (run call .init [.descriptionCreate true, .descriptionClose 0,
        .descriptionClose 0]).native := by
  decide

end WebrtcBridge.Java
