/-
# Which poller belongs to which channel

A peer keeps two maps keyed by the `u16` id of a channel: `data_channels` (id to channel object)
and `dc_callbacks` (id to callbacks).  Two paths write the first map and spawn a poller,
independently of each other and without looking at what is there:

* `webrtc_ffi_create_data_channel`, with the object the engine's `create_data_channel` returned;
* `Forwarder::on_data_channel`, with a FRESH object, which the engine's driver raises whenever a
  channel opens, locally created ones included.

Ids come back: a closed channel's id is free for the next one, and the engine never removes its
sender from `data_channel_events_tx`.

The system below has the engine's tables, the two maps, and one HANDLE per object on its way
through insert, spawn and poll.  A channel is counted by its creation (locally, or by the remote
peer); a registration is for the channel that has the id at that moment.

`identity_of_free_ids`: as long as a channel object only ever arrives for an id that no live
handle holds, and a new channel only for an id without callbacks of an earlier one, every id has
at most one poller, the stored object is the one it drains, and callbacks are touched by their
own channel's poller only.  Neither path checks that, and opening a locally created channel
breaks it at once, as does creating a channel on an id whose old poller has not yet seen its
`OnClose` (`identity_broken`).
-/
import WebrtcBridge.Ffi.DataChannelPoller

namespace WebrtcBridge.Ffi

open Lib

/-! ## 1. The system -/

/-- How far the object of a handle has come. -/
inductive Stage where
  /-- about to be put into `data_channels` -/
  | insert
  /-- about to get its poller -/
  | spawn
  | polling (task : Loop Bool PollerOp)
  deriving DecidableEq, Repr

/-- A channel object in the hands of the bridge; `chan` is the channel it belongs to. -/
structure ChannelHandle where
  obj : Nat
  id : UInt16
  chan : Nat
  stage : Stage
  deriving DecidableEq, Repr

/-- Its poller runs. -/
def ChannelHandle.polls (h : ChannelHandle) : Bool :=
  match h.stage with
  | .polling t => !t.halted
  | _ => false

/-- Its poller runs or will be spawned. -/
def ChannelHandle.live (h : ChannelHandle) : Bool :=
  match h.stage with
  | .polling t => !t.halted
  | _ => true

/-- The peer and the engine's tables.  Objects and channels are numbered as they come.  `current`
is the channel that had an id last; a callback entry keeps the channel it was registered for, and
`touched` lists who called or removed an entry (the poller's channel) and for which channel that
entry had been registered. -/
structure PeerSys (F : Type) where
  /-- `core.data_channels` -/
  core : UInt16 → Bool
  current : UInt16 → Option Nat
  channels : Nat
  objects : Nat
  /-- `data_channel_events_tx`: the object whose queue gets the id's events -/
  eventsTx : UInt16 → Option Nat
  inboxes : Nat → Inbox DataChannelEvent
  dataChannels : UInt16 → Option Nat
  dcCallbacks : UInt16 → Option (Option Nat × DataChannelCallbacks F)
  handles : List ChannelHandle
  touched : List (Nat × Option Nat)

variable {F : Type}

/-- A new peer. -/
def PeerSys.init : PeerSys F :=
  ⟨fun _ => false, fun _ => none, 0, 0, fun _ => none, fun _ => ⟨[], false⟩, fun _ => none,
    fun _ => none, [], []⟩

/-- What can happen. -/
inductive PeerAct (F : Type) where
  /-- the engine's `create_data_channel`, called by `webrtc_ffi_create_data_channel` -/
  | create (id : UInt16)
  /-- the remote peer opens a channel: the core takes it and raises `OnOpen` -/
  | remoteOpen (id : UInt16)
  /-- a channel the core has opens, and the driver raises `OnOpen` -/
  | localOpen (id : UInt16)
  /-- the driver sends an event to the id's queue -/
  | emit (id : UInt16) (e : DataChannelEvent)
  /-- the stream is closed: the core drops the channel and the driver sends `OnClose` -/
  | close (id : UInt16)
  /-- `webrtc_ffi_data_channel_set_callbacks` -/
  | register (id : UInt16) (cbs : DataChannelCallbacks F)
  /-- the next statement of the `k`-th handle, or the next step of its poller -/
  | advance (k : Nat)

/-- A channel comes into being under an id the core has free. -/
def PeerSys.newChannel (s : PeerSys F) (id : UInt16) : PeerSys F :=
  { s with
    core := Function.update s.core id true
    current := Function.update s.current id (some s.channels)
    channels := s.channels + 1 }

/-- A new object for the channel that has the id goes to the bridge. -/
def PeerSys.newHandle (s : PeerSys F) (id : UInt16) : PeerSys F :=
  { s with
    objects := s.objects + 1
    handles := s.handles ++ [⟨s.objects, id, (s.current id).getD 0, .insert⟩] }

/-- The last sender of an object's queue goes away. -/
def PeerSys.dropSender (s : PeerSys F) : Option Nat → PeerSys F
  | none => s
  | some obj => { s with inboxes := Function.update s.inboxes obj (s.inboxes obj).drop }

/-- The id's events go to the next object from now on. -/
def PeerSys.keepSender (s : PeerSys F) (id : UInt16) : PeerSys F :=
  { s with eventsTx := Function.update s.eventsTx id (some s.objects) }

/-- `create_data_channel` of the engine: the new sender REPLACES the id's old one. -/
def PeerSys.createObject (s : PeerSys F) (id : UInt16) : PeerSys F :=
  ((s.dropSender (s.eventsTx id)).keepSender id).newHandle id

/-- The driver on `OnOpen`: the new sender is kept only if the id has none, else it is dropped
at once; the fresh object goes to `on_data_channel` either way. -/
def PeerSys.openObject (s : PeerSys F) (id : UInt16) : PeerSys F :=
  match s.eventsTx id with
  | none => (s.keepSender id).newHandle id
  | some _ => (s.dropSender (some s.objects)).newHandle id

/-- The driver sends an event to the id's queue. -/
def PeerSys.emit (s : PeerSys F) (id : UInt16) (e : DataChannelEvent) : PeerSys F :=
  match s.eventsTx id with
  | none => s
  | some obj => { s with inboxes := Function.update s.inboxes obj ((s.inboxes obj).push e) }

/-- The core drops a channel. -/
def PeerSys.dropChannel (s : PeerSys F) (id : UInt16) : PeerSys F :=
  { s with core := Function.update s.core id false }

/-- What the operation of a poller of channel `chan` does to the id's callback entry: who touched
which entry, and the entry after it. -/
def touch (chan : Nat) (entry : Option (Option Nat × DataChannelCallbacks F)) :
    Option PollerOp →
      List (Nat × Option Nat) × Option (Option Nat × DataChannelCallbacks F)
  | some (.call c) =>
    match callbackFor (entry.map Prod.snd) (.call c) with
    | some _ => (entry.toList.map fun e => (chan, e.1), entry)
    | none => ([], entry)
  | some .removeEntry => (entry.toList.map fun e => (chan, e.1), none)
  | some .sleep => ([], entry)
  | none => ([], entry)

/-- One step of the poller of a handle. -/
def PeerSys.stepPoller (s : PeerSys F) (k : Nat) (h : ChannelHandle) (t : Loop Bool PollerOp) :
    PeerSys F :=
  let r := pollerReactor.advance t (s.inboxes h.obj)
  { s with
    handles := s.handles.set k { h with stage := .polling r.1 }
    inboxes := Function.update s.inboxes h.obj r.2.1
    dcCallbacks := Function.update s.dcCallbacks h.id (touch h.chan (s.dcCallbacks h.id) r.2.2).2
    touched := s.touched ++ (touch h.chan (s.dcCallbacks h.id) r.2.2).1 }

/-- The next statement of a handle. -/
def PeerSys.advanceHandle (s : PeerSys F) (k : Nat) (h : ChannelHandle) : PeerSys F :=
  match h.stage with
  | .insert =>
    { s with
      dataChannels := Function.update s.dataChannels h.id (some h.obj)
      handles := s.handles.set k { h with stage := .spawn } }
  | .spawn => { s with handles := s.handles.set k { h with stage := .polling (Loop.start false) } }
  | .polling t => s.stepPoller k h t

/-- One action. -/
def peerStep (s : PeerSys F) : PeerAct F → PeerSys F
  | .create id => if s.core id then s else (s.newChannel id).createObject id
  | .remoteOpen id => if s.core id then s else (s.newChannel id).openObject id
  | .localOpen id => if s.core id then s.openObject id else s
  | .emit id e => s.emit id e
  | .close id =>
    if s.core id then (s.dropChannel id).emit id .onClose else s
  | .register id cbs =>
    { s with dcCallbacks := Function.update s.dcCallbacks id (some (s.current id, cbs)) }
  | .advance k =>
    match s.handles[k]? with
    | none => s
    | some h => s.advanceHandle k h

/-! ## 2. The property and the condition -/

/-- **Channel identity**: at most one live poller per id, the object stored under an id is the one
its poller drains, and every entry that was called or removed belonged to the channel of the
poller that did it. -/
structure Identified (s : PeerSys F) : Prop where
  onePoller : ∀ (i j : Nat) (p q : ChannelHandle), s.handles[i]? = some p →
    s.handles[j]? = some q → p.polls = true → q.polls = true → p.id = q.id → i = j
  stored : ∀ p ∈ s.handles, p.polls = true → s.dataChannels p.id = some p.obj
  own : ∀ x ∈ s.touched, ∀ c, x.2 = some c → x.1 = c

/-- No poller of this id runs or is on its way. -/
def NobodyHolds (s : PeerSys F) (id : UInt16) : Prop :=
  ∀ p ∈ s.handles, p.live = true → p.id ≠ id

/-- The id has no callbacks that were registered for an earlier channel. -/
def NoOldCallbacks (s : PeerSys F) (id : UInt16) : Prop :=
  (s.dcCallbacks id).all (·.1.isNone) = true

/-- **The condition on a step**: an object arrives only for an id nobody holds, and a new channel
moreover only for an id without old callbacks. -/
def IdIsFree (s : PeerSys F) : PeerAct F → Prop
  | .create id => NobodyHolds s id ∧ NoOldCallbacks s id
  | .remoteOpen id => NobodyHolds s id ∧ NoOldCallbacks s id
  | .localOpen id => NobodyHolds s id
  | _ => True

instance (s : PeerSys F) (id : UInt16) : Decidable (NobodyHolds s id) :=
  inferInstanceAs (Decidable (∀ p ∈ s.handles, _))

instance (s : PeerSys F) (id : UInt16) : Decidable (NoOldCallbacks s id) :=
  inferInstanceAs (Decidable (_ = true))

instance (s : PeerSys F) : ∀ a, Decidable (IdIsFree s a)
  | .create id => inferInstanceAs (Decidable (NobodyHolds s id ∧ NoOldCallbacks s id))
  | .remoteOpen id => inferInstanceAs (Decidable (NobodyHolds s id ∧ NoOldCallbacks s id))
  | .localOpen id => inferInstanceAs (Decidable (NobodyHolds s id))
  | .emit .. => .isTrue trivial
  | .close .. => .isTrue trivial
  | .register .. => .isTrue trivial
  | .advance .. => .isTrue trivial

/-! ## 3. The invariant -/

/-- **What free ids keep true.**  Live handles have different ids, a handle past its insertion is
the stored one, every live handle belongs to the channel that has its id, and so does every
callback entry. -/
structure Keyed (s : PeerSys F) : Prop where
  distinct : ∀ (i j : Nat) (p q : ChannelHandle), s.handles[i]? = some p →
    s.handles[j]? = some q → p.live = true → q.live = true → p.id = q.id → i = j
  stored : ∀ p ∈ s.handles, p.live = true → p.stage ≠ .insert →
    s.dataChannels p.id = some p.obj
  belongs : ∀ p ∈ s.handles, p.live = true → s.current p.id = some p.chan
  entries : ∀ id c cbs, s.dcCallbacks id = some (some c, cbs) → s.current id = some c
  own : ∀ x ∈ s.touched, ∀ c, x.2 = some c → x.1 = c
  /-- a channel the core has is the current one of its id -/
  known : ∀ id, s.core id = true → (s.current id).isSome = true

theorem live_of_polls {h : ChannelHandle} (hp : h.polls = true) :
    h.live = true ∧ h.stage ≠ .insert := by
  cases hs : h.stage <;> simp_all [ChannelHandle.polls, ChannelHandle.live]

theorem Keyed.identified {s : PeerSys F} (h : Keyed s) : Identified s where
  onePoller := fun i j p q hi hj hp hq hid =>
    h.distinct i j p q hi hj (live_of_polls hp).1 (live_of_polls hq).1 hid
  stored := fun p hp hpolls => h.stored p hp (live_of_polls hpolls).1 (live_of_polls hpolls).2
  own := h.own

theorem keyed_init : Keyed (PeerSys.init (F := F)) where
  distinct := fun i j p q hi => by simp [PeerSys.init] at hi
  stored := fun p hp => by cases hp
  belongs := fun p hp => by cases hp
  entries := fun id c cbs h => by cases h
  own := fun x hx => by cases hx
  known := fun id h => by cases h

/-- The invariant speaks about handles, maps and the account of touched entries only. -/
theorem Keyed.congr {s s' : PeerSys F} (h : Keyed s) (hh : s'.handles = s.handles)
    (hd : s'.dataChannels = s.dataChannels) (hc : s'.current = s.current)
    (he : s'.dcCallbacks = s.dcCallbacks) (ht : s'.touched = s.touched)
    (hk : ∀ id, s'.core id = true → s.core id = true) : Keyed s' where
  distinct := by rw [hh]; exact h.distinct
  stored := by rw [hh, hd]; exact h.stored
  belongs := by rw [hh, hc]; exact h.belongs
  entries := by rw [he, hc]; exact h.entries
  own := by rw [ht]; exact h.own
  known := fun id hid => by rw [hc]; exact h.known id (hk id hid)

theorem Keyed.emit {s : PeerSys F} (h : Keyed s) (id : UInt16) (e : DataChannelEvent) :
    Keyed (s.emit id e) := by
  unfold PeerSys.emit
  split
  · exact h
  · exact h.congr rfl rfl rfl rfl rfl fun _ hk => hk

theorem Keyed.dropSender {s : PeerSys F} (h : Keyed s) (obj : Option Nat) :
    Keyed (s.dropSender obj) := by
  cases obj with
  | none => exact h
  | some obj => exact h.congr rfl rfl rfl rfl rfl fun _ hk => hk

theorem Keyed.keepSender {s : PeerSys F} (h : Keyed s) (id : UInt16) : Keyed (s.keepSender id) :=
  h.congr rfl rfl rfl rfl rfl fun _ hk => hk

theorem Keyed.dropChannel {s : PeerSys F} (h : Keyed s) (id : UInt16) :
    Keyed (s.dropChannel id) := by
  refine h.congr rfl rfl rfl rfl rfl fun id' hk => ?_
  by_cases hid : id' = id
  · subst hid
    simp [PeerSys.dropChannel] at hk
  · simpa [PeerSys.dropChannel, Function.update_of_ne hid] using hk

@[simp] theorem dropSender_handles (s : PeerSys F) (obj : Option Nat) :
    (s.dropSender obj).handles = s.handles := by cases obj <;> rfl

@[simp] theorem dropSender_current (s : PeerSys F) (obj : Option Nat) :
    (s.dropSender obj).current = s.current := by cases obj <;> rfl

theorem Keyed.newChannel {s : PeerSys F} (h : Keyed s) {id : UInt16} (hfree : NobodyHolds s id)
    (hold : NoOldCallbacks s id) : Keyed (s.newChannel id) where
  distinct := h.distinct
  stored := h.stored
  belongs := by
    intro p hp hlive
    have hne : p.id ≠ id := hfree p hp hlive
    simpa [PeerSys.newChannel, Function.update_of_ne hne] using h.belongs p hp hlive
  entries := by
    intro id' c cbs he
    by_cases hid : id' = id
    · subst hid
      have he' : s.dcCallbacks id' = some (some c, cbs) := he
      simp [NoOldCallbacks, he'] at hold
    · simpa [PeerSys.newChannel, Function.update_of_ne hid] using h.entries id' c cbs he
  own := h.own
  known := by
    intro id' hk
    by_cases hid : id' = id
    · subst hid
      simp [PeerSys.newChannel]
    · simp only [PeerSys.newChannel, Function.update_of_ne hid] at hk ⊢
      exact h.known id' hk

theorem Keyed.newHandle {s : PeerSys F} (h : Keyed s) {id : UInt16} (hfree : NobodyHolds s id)
    (hcur : (s.current id).isSome = true) : Keyed (s.newHandle id) where
  distinct := by
    -- the new handle is the last one, and nobody else holds its id
    have hlast : ∀ i p, (s.newHandle id).handles[i]? = some p → p.live = true →
        (s.handles[i]? = some p ∧ p.id ≠ id) ∨ (i = s.handles.length ∧ p.id = id) := by
      intro i p hi hlive
      rcases Nat.lt_or_ge i s.handles.length with hlt | hge
      · rw [PeerSys.newHandle, List.getElem?_append_left hlt] at hi
        exact Or.inl ⟨hi, hfree p (List.mem_of_getElem? hi) hlive⟩
      · rw [PeerSys.newHandle, List.getElem?_append_right hge] at hi
        have hzero : i - s.handles.length = 0 := by
          by_contra hne
          simp [hne] at hi
        rw [hzero] at hi
        cases hi
        exact Or.inr ⟨by omega, rfl⟩
    intro i j p q hi hj hp hq hid
    rcases hlast i p hi hp with ⟨hi', hpid⟩ | ⟨hi', hpid⟩ <;>
      rcases hlast j q hj hq with ⟨hj', hqid⟩ | ⟨hj', hqid⟩
    · exact h.distinct i j p q hi' hj' hp hq hid
    · exact absurd (hid.trans hqid) hpid
    · exact absurd (hid.symm.trans hpid) hqid
    · rw [hi', hj']
  stored := by
    intro p hp hlive hstage
    rcases List.mem_append.mp hp with hp | hp
    · exact h.stored p hp hlive hstage
    · rw [List.mem_singleton.mp hp] at hstage
      exact absurd rfl hstage
  belongs := by
    intro p hp hlive
    rcases List.mem_append.mp hp with hp | hp
    · exact h.belongs p hp hlive
    · rw [List.mem_singleton.mp hp]
      obtain ⟨c, hc⟩ := Option.isSome_iff_exists.mp hcur
      simp [PeerSys.newHandle, hc]
  entries := h.entries
  own := h.own
  known := h.known

theorem Keyed.createObject {s : PeerSys F} (h : Keyed s) {id : UInt16} (hfree : NobodyHolds s id)
    (hcur : (s.current id).isSome = true) : Keyed (s.createObject id) := by
  refine ((h.dropSender (s.eventsTx id)).keepSender id).newHandle ?_ ?_
  · intro p hp
    exact hfree p (by simpa [PeerSys.keepSender] using hp)
  · simpa [PeerSys.keepSender] using hcur

theorem Keyed.openObject {s : PeerSys F} (h : Keyed s) {id : UInt16} (hfree : NobodyHolds s id)
    (hcur : (s.current id).isSome = true) : Keyed (s.openObject id) := by
  unfold PeerSys.openObject
  split
  · exact (h.keepSender id).newHandle hfree hcur
  · exact (h.dropSender _).newHandle (fun p hp => hfree p (by simpa using hp))
      (by simpa using hcur)

/-! ## 4. A handle's next statement -/

/-- Moving the `k`-th handle to another stage without reviving it: what is left to show is that
the maps still fit. -/
theorem Keyed.setStage {s s' : PeerSys F} (h : Keyed s) {k : Nat} {p : ChannelHandle}
    (hk : s.handles[k]? = some p) (st : Stage)
    (hlive : ({ p with stage := st } : ChannelHandle).live = true → p.live = true)
    (hh : s'.handles = s.handles.set k { p with stage := st })
    (hc : s'.current = s.current) (hcore : s'.core = s.core)
    (hstored : ∀ q ∈ s'.handles, q.live = true → q.stage ≠ .insert →
      s'.dataChannels q.id = some q.obj)
    (hentries : ∀ id c cbs, s'.dcCallbacks id = some (some c, cbs) →
      s.dcCallbacks id = some (some c, cbs))
    (hown : ∀ x ∈ s'.touched, ∀ c, x.2 = some c → x.1 = c) : Keyed s' where
  distinct := by
    -- index by index the new list has the same ids, and lives only where the old one does
    have hold : ∀ (i : Nat) (q : ChannelHandle), s'.handles[i]? = some q → q.live = true →
        ∃ q₀, s.handles[i]? = some q₀ ∧ q₀.live = true ∧ q₀.id = q.id := by
      intro i q hi hq
      rw [hh] at hi
      by_cases hik : k = i
      · subst hik
        obtain ⟨hlt, -⟩ := List.getElem?_eq_some_iff.mp hk
        rw [List.getElem?_set_self hlt] at hi
        cases hi
        exact ⟨p, hk, hlive hq, rfl⟩
      · rw [List.getElem?_set_ne hik] at hi
        exact ⟨q, hi, hq, rfl⟩
    intro i j q r hi hj hq hr hqr
    obtain ⟨q₀, hi₀, hq₀, hqid⟩ := hold i q hi hq
    obtain ⟨r₀, hj₀, hr₀, hrid⟩ := hold j r hj hr
    exact h.distinct i j q₀ r₀ hi₀ hj₀ hq₀ hr₀ (by rw [hqid, hrid, hqr])
  stored := hstored
  belongs := by
    intro q hq hl
    rw [hh] at hq
    rw [hc]
    rcases List.mem_or_eq_of_mem_set hq with hq | rfl
    · exact h.belongs q hq hl
    · exact h.belongs p (List.mem_of_getElem? hk) (hlive hl)
  entries := fun id c cbs he => by rw [hc]; exact h.entries id c cbs (hentries id c cbs he)
  own := hown
  known := by rw [hc, hcore]; exact h.known

/-- Two live handles of one id are the same handle. -/
theorem Keyed.unique {s : PeerSys F} (h : Keyed s) {k : Nat} {p q : ChannelHandle}
    (hk : s.handles[k]? = some p) (hp : p.live = true) (hq : q ∈ s.handles) (hl : q.live = true)
    (hid : q.id = p.id) : q = p := by
  obtain ⟨j, hj, hqj⟩ := List.mem_iff_getElem.mp hq
  have hj' : s.handles[j]? = some q := by rw [List.getElem?_eq_getElem hj, hqj]
  have hjk := h.distinct j k q p hj' hk hl hp hid
  subst hjk
  rw [hj'] at hk
  exact Option.some.inj hk

theorem Keyed.insertObject {s : PeerSys F} (h : Keyed s) {k : Nat} {p : ChannelHandle}
    (hk : s.handles[k]? = some p) (hstage : p.stage = .insert) :
    Keyed { s with
      dataChannels := Function.update s.dataChannels p.id (some p.obj)
      handles := s.handles.set k { p with stage := .spawn } } := by
  have hlive : p.live = true := by simp [ChannelHandle.live, hstage]
  refine h.setStage hk .spawn (fun _ => hlive) rfl rfl rfl ?_ (fun _ _ _ he => he) h.own
  intro q hq hl hs
  rcases List.mem_or_eq_of_mem_set hq with hq | rfl
  · -- another live handle has another id
    by_cases hid : q.id = p.id
    · rw [h.unique hk hlive hq hl hid] at hs
      exact absurd hstage hs
    · simpa [Function.update_of_ne hid] using h.stored q hq hl hs
  · simp

theorem Keyed.spawnPoller {s : PeerSys F} (h : Keyed s) {k : Nat} {p : ChannelHandle}
    (hk : s.handles[k]? = some p) (hstage : p.stage = .spawn) :
    Keyed { s with
      handles := s.handles.set k { p with stage := .polling (Loop.start false) } } := by
  have hlive : p.live = true := by simp [ChannelHandle.live, hstage]
  refine h.setStage hk (.polling (Loop.start false)) (fun _ => hlive) rfl rfl rfl ?_
    (fun _ _ _ he => he) h.own
  intro q hq hl hs
  rcases List.mem_or_eq_of_mem_set hq with hq | rfl
  · exact h.stored q hq hl hs
  · exact h.stored p (List.mem_of_getElem? hk) hlive (by simp [hstage])

/-- What a poller touches is the entry of its id, and it leaves that entry or nothing. -/
theorem touch_spec (chan : Nat) (entry : Option (Option Nat × DataChannelCallbacks F))
    (op : Option PollerOp) :
    (∀ x ∈ (touch chan entry op).1, x.1 = chan ∧ ∃ cbs, entry = some (x.2, cbs)) ∧
      ((touch chan entry op).2 = entry ∨ (touch chan entry op).2 = none) := by
  have hentry : ∀ x ∈ entry.toList.map (fun e => (chan, e.1)),
      x.1 = chan ∧ ∃ cbs, entry = some (x.2, cbs) := by
    intro x hx
    obtain ⟨e, he, rfl⟩ := List.mem_map.mp hx
    exact ⟨rfl, e.2, by simpa using he⟩
  rcases op with - | (c | - | -)
  · simp [touch]
  · simp only [touch]
    split
    · exact ⟨hentry, Or.inl rfl⟩
    · simp
  · simp [touch]
  · exact ⟨hentry, Or.inr rfl⟩

/-- **A poller's step**: its handle is the only live one of its id, so the entry it touches is its
own channel's. -/
theorem Keyed.stepPoller {s : PeerSys F} (h : Keyed s) {k : Nat} {p : ChannelHandle}
    {t : Loop Bool PollerOp} (hk : s.handles[k]? = some p) (hstage : p.stage = .polling t) :
    Keyed (s.stepPoller k p t) := by
  obtain ⟨htouch, hleft⟩ := touch_spec p.chan (s.dcCallbacks p.id)
    (pollerReactor.advance t (s.inboxes p.obj)).2.2
  have halive : ({ p with stage := .polling (pollerReactor.advance t (s.inboxes p.obj)).1 } :
      ChannelHandle).live = true → p.live = true := by
    intro hl
    simp only [ChannelHandle.live, hstage, Bool.not_eq_true'] at hl ⊢
    by_contra hne
    rw [pollerReactor.advance_of_halted (by simpa using hne)] at hl
    exact hne hl
  refine h.setStage hk _ halive rfl rfl rfl ?_ ?_ ?_
  · intro q hq hl hs
    rcases List.mem_or_eq_of_mem_set hq with hq | rfl
    · exact h.stored q hq hl hs
    · exact h.stored p (List.mem_of_getElem? hk) (halive hl) (by simp [hstage])
  · intro id c cbs he
    by_cases hid : id = p.id
    · subst hid
      rcases hleft with hsame | hnone
      · simpa [PeerSys.stepPoller, hsame] using he
      · simp [PeerSys.stepPoller, hnone] at he
    · simpa [PeerSys.stepPoller, Function.update_of_ne hid] using he
  · intro x hx c hc
    rcases List.mem_append.mp hx with hx | hx
    · exact h.own x hx c hc
    · obtain ⟨hchan, cbs, hentry⟩ := htouch x hx
      rw [hc] at hentry
      -- only a live poller performs operations
      have hlive : p.live = true := by
        simp only [ChannelHandle.live, hstage, Bool.not_eq_true']
        by_contra hne
        rw [pollerReactor.advance_of_halted (by simpa using hne)] at hx
        simp [touch] at hx
      have hcur := h.entries p.id c cbs hentry
      rw [h.belongs p (List.mem_of_getElem? hk) hlive] at hcur
      rw [hchan]
      exact Option.some.inj hcur

theorem Keyed.advanceHandle {s : PeerSys F} (h : Keyed s) {k : Nat} {p : ChannelHandle}
    (hk : s.handles[k]? = some p) : Keyed (s.advanceHandle k p) := by
  unfold PeerSys.advanceHandle
  split
  · exact h.insertObject hk ‹_›
  · exact h.spawnPoller hk ‹_›
  · exact h.stepPoller hk ‹_›

/-! ## 5. Every run -/

/-- **Steps on free ids keep the invariant.** -/
theorem peerStep_keyed (s : PeerSys F) (a : PeerAct F) (hok : IdIsFree s a) (h : Keyed s) :
    Keyed (peerStep s a) := by
  cases a with
  | create id =>
    simp only [peerStep]
    split
    · exact h
    · exact (h.newChannel hok.1 hok.2).createObject hok.1 (by simp [PeerSys.newChannel])
  | remoteOpen id =>
    simp only [peerStep]
    split
    · exact h
    · exact (h.newChannel hok.1 hok.2).openObject hok.1 (by simp [PeerSys.newChannel])
  | localOpen id =>
    simp only [peerStep]
    split
    · rename_i hcore
      exact h.openObject hok (h.known id hcore)
    · exact h
  | emit id e => exact h.emit id e
  | close id =>
    simp only [peerStep]
    split
    · exact (h.dropChannel id).emit id .onClose
    · exact h
  | register id cbs =>
    refine ⟨h.distinct, h.stored, h.belongs, ?_, h.own, h.known⟩
    intro id' c cbs' he
    by_cases hid : id' = id
    · subst hid
      simp only [peerStep, Function.update_self, Option.some.injEq, Prod.mk.injEq] at he
      exact he.1
    · simp only [peerStep, Function.update_of_ne hid] at he
      exact h.entries id' c cbs' he
  | advance k =>
    simp only [peerStep]
    split
    · exact h
    · rename_i p hp
      exact h.advanceHandle hp

/-- **Channel identity.**  In every run of a peer in which objects arrive only for free ids, in
every state it passes through, each id has at most one live poller, the stored object is the one
that poller drains, and callbacks are called and removed by their own channel's poller only. -/
theorem identity_of_free_ids (as : List (PeerAct F)) (hfree : Heeds IdIsFree peerStep .init as) :
    Always Identified peerStep .init as :=
  (always_of_heeds peerStep_keyed as .init keyed_init hfree).mono fun _ => Keyed.identified

/-- A channel's whole life, then another one under the same id: every object finds its id free. -/
def oneAfterTheOther : List (PeerAct Nat) :=
  [.create 1, .advance 0, .advance 0, .register 1 ⟨some 0, some 1, some 2⟩, .close 1,
    .advance 0, .advance 0, .advance 0, .create 1, .advance 1, .advance 1]

theorem identity_oneAfterTheOther :
    Heeds IdIsFree peerStep .init oneAfterTheOther ∧
      Always Identified peerStep .init oneAfterTheOther :=
  ⟨by decide, identity_of_free_ids oneAfterTheOther (by decide)⟩

/-- Two runs that break identity.  A locally created channel opens: the driver's fresh object gets
a second poller and replaces the stored object.  And an id is used again before the old poller has
seen its `OnClose`: the old poller then calls the new channel's `on_close`. -/
theorem identity_broken :
    ¬ Always Identified peerStep (PeerSys.init (F := Nat))
        [.create 1, .advance 0, .advance 0, .localOpen 1, .advance 1, .advance 1] ∧
      ¬ Always Identified peerStep (PeerSys.init (F := Nat))
        [.create 1, .advance 0, .advance 0, .close 1, .create 1, .advance 1, .advance 1,
          .register 1 ⟨some 0, some 1, some 2⟩, .advance 0, .advance 0] := by
  constructor
  · intro h
    have htwo := (h.last _ _).onePoller 0 1 _ _ rfl rfl rfl rfl rfl
    cases htwo
  · intro h
    have hown := (h.last _ _).own (0, some 1) (by decide) 1 rfl
    cases hown

end WebrtcBridge.Ffi
