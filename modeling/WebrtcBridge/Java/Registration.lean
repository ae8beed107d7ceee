/-
# Events between a poller's start and a registration

A data channel's poller is spawned INSIDE `webrtc_ffi_create_data_channel`, before the
application can know the id, let alone call `setDataChannelCallbacks`.  An event the poller takes
in between finds no callback and is discarded without trace.  The remote track path is written
the other way round, the native callbacks are stored first and the poller is spawned after, but
the callbacks stored are two static upcall stubs, which look the `TrackRemote` up in `TRACKS` and
then read a plain field:

    register:  TRACKS.computeIfAbsent(id, .. set_callbacks(id, ON_RTP, ON_OPEN); return track)
    onTrack:   TrackRemote.get(id).setOpenCallback(..); .setRtpCallback(..)

so the same gap is open there between the native spawn and the moment the field written by the
application becomes visible to the poller's thread.  Fields are unsynchronised: a write is seen
some time after it was made, or never.

Both halves are settled run by run.  Once the registration is complete and the engine is quiet, the
poller comes to rest after finitely many turns, and then the registered callbacks have been told all
that was sent EXACTLY IF no call was made inside the gap (`channel_delivered_iff`,
`track_delivered_iff`, together `registration_loses_nothing_iff`).
-/
import Mathlib.Algebra.Ring.Nat
import WebrtcBridge.Ffi.TrackPoller

namespace WebrtcBridge.Java

open Lib Ffi

/-! ## 1. Data channels -/

/-- The calls that reached somebody are all the calls, each at the one it is for, exactly if every
call reached the one it is for. -/
theorem reached_eq_iff {κ F : Type} (t : κ → F) (l : List (κ × Option F)) :
    (l.filterMap fun x => x.2.map (x.1, ·)) = (l.map Prod.fst).map (fun c => (c, t c)) ↔
      ∀ x ∈ l, x.2 = some (t x.1) := by
  induction l with
  | nil => simp
  | cons x l ih =>
    obtain ⟨c, f⟩ := x
    cases f with
    | none =>
      -- one is missing
      refine iff_of_false ?_ ?_
      · intro h
        have hlen := congrArg List.length h
        have hle := List.length_filterMap_le (fun x : κ × Option F => x.2.map (x.1, ·)) l
        simp only [List.filterMap_cons, Option.map_none, List.map_cons, List.length_cons,
          List.length_map] at hlen
        omega
      · intro h
        have hlost := h (c, none) List.mem_cons_self
        cases hlost
    | some f =>
      simp only [List.filterMap_cons, Option.map_some, List.map_cons, List.cons.injEq,
        Prod.mk.injEq, true_and, ih, List.forall_mem_cons, Option.some.injEq]

section Channel

variable {F : Type} {id : UInt16} {m o c : F}

/-- A registration for this channel. -/
def registersChannel (id : UInt16) : ChannelAct F → Bool
  | .setCallbacks id' _ => id' == id
  | _ => false

/-- **Everything sent is delivered to `m`, `o` and `c`**: when the engine does nothing more and the
poller has had enough turns, the application has been told all it should be told of the events
sent, by calls of these three callbacks. -/
def ChannelDelivered (id : UInt16) (m o c : F) (s : ChannelSys F) : Prop :=
  ∃ n, ∀ bs : List (ChannelAct F),
    (∀ a ∈ bs, a.isEngine = false ∧ registersChannel id a = false) →
    n ≤ turns ChannelAct.isPoller bs →
    (run (channelStep id) s bs).calls
      = (told s.inbox.gone s.sent).map fun call => (call, receiver m o c call)

/-- The condition on a step: a poller about to make a call finds in the registry the callback that
is registered for it.  Before the registration of a fresh id it finds nothing. -/
def FindsChannel (id : UInt16) (m o c : F) (s : ChannelSys F) : ChannelAct F → Prop
  | .poller => ∀ call rest, s.task.halted = false → s.task.todo = .call call :: rest →
      callbackFor (s.callbacks id) (.call call) = some (receiver m o c call)
  | _ => True

/-- The calls the poller made, each with the callback it found. -/
def attempts (s : ChannelSys F) : List (ChannelCall × Option F) :=
  s.log.filterMap fun x => x.1.call?.map (·, x.2)

theorem calls_eq_attempts (s : ChannelSys F) :
    s.calls = (attempts s).filterMap fun x => x.2.map (x.1, ·) := by
  rw [ChannelSys.calls, attempts, List.filterMap_filterMap]
  refine List.filterMap_congr ?_
  rintro ⟨op, f⟩ -
  cases op <;> cases f <;> rfl

theorem attempts_fst (s : ChannelSys F) :
    (attempts s).map Prod.fst = s.performed.filterMap PollerOp.call? := by
  rw [attempts, ChannelSys.performed, List.map_filterMap, List.filterMap_map]
  refine List.filterMap_congr ?_
  rintro ⟨op, f⟩ -
  cases op <;> rfl

/-- An entry of the log went where it should. -/
def Reached (t : ChannelCall → F) (x : PollerOp × Option F) : Prop :=
  ∀ call, x.1 = .call call → x.2 = some (t call)

theorem attempts_reached_iff (t : ChannelCall → F) (s : ChannelSys F) :
    (∀ x ∈ attempts s, x.2 = some (t x.1)) ↔ ∀ x ∈ s.log, Reached t x := by
  constructor
  · rintro h ⟨op, f⟩ hx call rfl
    exact h (call, f) (List.mem_filterMap.mpr ⟨_, hx, rfl⟩)
  · rintro h ⟨call, f⟩ hx
    obtain ⟨⟨op, f'⟩, hmem, heq⟩ := List.mem_filterMap.mp hx
    cases op with
    | sleep | removeEntry => cases heq
    | call call' =>
      cases heq
      exact h _ hmem call rfl

/-- What a step adds to the log. -/
def channelLogged (id : UInt16) (s : ChannelSys F) : ChannelAct F → List (PollerOp × Option F)
  | .poller => (pollerReactor.advance s.task s.inbox).2.2.toList.map fun o =>
      (o, callbackFor (s.callbacks id) o)
  | _ => []

theorem channelStep_log (id : UInt16) (s : ChannelSys F) (a : ChannelAct F) :
    (channelStep id s a).log = s.log ++ channelLogged id s a := by
  cases a with
  | push e =>
    simp only [channelStep, channelLogged, List.append_nil]
    split <;> rfl
  | dropSender | setCallbacks id' cbs => simp [channelStep, channelLogged]
  | poller => rfl

/-- What a step adds went where it should exactly if the step meets the condition. -/
theorem channelLogged_good_iff (s : ChannelSys F) (a : ChannelAct F) :
    (∀ x ∈ channelLogged id s a, Reached (receiver m o c) x) ↔ FindsChannel id m o c s a := by
  cases a with
  | push e | dropSender | setCallbacks id' cbs => simp [channelLogged, FindsChannel]
  | poller =>
    simp only [channelLogged, FindsChannel]
    rcases pollerReactor.advance_cases s.task s.inbox with ⟨heq, hidle⟩ | ⟨op, rest, hh, ht, heq⟩ |
        ⟨e, es, hh, ht, hq, heq⟩ | ⟨hh, ht, hq, -, heq⟩
    · rw [heq]
      rcases hidle with hh | ⟨ht, -, -⟩ <;> simp [*]
    · rw [heq]
      constructor
      · intro h call rest' _ ht'
        rw [ht] at ht'
        obtain ⟨rfl, rfl⟩ := List.cons.inj ht'
        exact h (.call call, callbackFor (s.callbacks id) (.call call)) (by simp) call rfl
      · intro h x hx call hcall
        simp only [Option.toList_some, List.map_cons, List.map_nil, List.mem_singleton] at hx
        subst hx
        have hop : op = .call call := hcall
        subst hop
        exact h call rest hh ht
    · rw [heq]
      simp [ht]
    · rw [heq]
      simp [ht]

/-- After the registration the entry stays what was registered until the task ends. -/
theorem entry_stays (id : UInt16) (cbs : DataChannelCallbacks F) (s : ChannelSys F)
    (a : ChannelAct F) (ha : registersChannel id a = false)
    (h : s.task.halted = false → s.callbacks id = some cbs) :
    (channelStep id s a).task.halted = false → (channelStep id s a).callbacks id = some cbs := by
  intro hh
  have hlive : s.task.halted = false := by
    by_contra hne
    rw [channelStep_halted (by simpa using hne)] at hh
    cases hh
  cases a with
  | push e =>
    simp only [channelStep]
    split <;> exact h hlive
  | dropSender => exact h hlive
  | setCallbacks id' cbs' =>
    have hid : id ≠ id' := by
      intro heq
      simp [registersChannel, heq] at ha
    simpa [channelStep, Function.update_of_ne hid] using h hlive
  | poller =>
    rw [channelStep_poller_callbacks hh]
    exact h hlive

/-- So every later step meets the condition. -/
theorem finds_after (id : UInt16) (m o c : F) :
    ∀ (as : List (ChannelAct F)) (s : ChannelSys F), (∀ a ∈ as, registersChannel id a = false) →
      (s.task.halted = false → s.callbacks id = some ⟨some m, some o, some c⟩) →
      Heeds (FindsChannel id m o c) (channelStep id) s as
  | [], _, _, _ => trivial
  | a :: as, s, has, h => by
    refine ⟨?_, finds_after id m o c as _ (fun b hb => has b (List.mem_cons_of_mem a hb))
      (entry_stays id _ s a (has a List.mem_cons_self) h)⟩
    cases a with
    | poller =>
      intro call rest hh _
      rw [h hh]
      cases call <;> rfl
    | push e | dropSender | setCallbacks id' cbs' => trivial

/-- Without the engine nothing is sent and no sender goes away. -/
theorem run_without_engine (id : UInt16) (s : ChannelSys F) {bs : List (ChannelAct F)}
    (hbs : ∀ a ∈ bs, a.isEngine = false) :
    (run (channelStep id) s bs).sent = s.sent ∧
      (run (channelStep id) s bs).inbox.gone = s.inbox.gone := by
  refine run_inv_on
    (fun s' : ChannelSys F => s'.sent = s.sent ∧ s'.inbox.gone = s.inbox.gone)
    (fun a => a.isEngine = false) ?_ bs s hbs ⟨rfl, rfl⟩
  intro s' a ha h
  cases a with
  | push e | dropSender => cases ha
  | setCallbacks id' cbs => exact h
  | poller => exact ⟨h.1, (channelStep_poller_gone s').trans h.2⟩

/-- **Every call reached its callback exactly if the poller made none before the registration** (or
found the very callbacks already there).  `pre` is what happens between the spawn of the poller and
the registration, `post` what happens after it. -/
theorem channel_reached_iff (id : UInt16) (m o c : F)
    (callbacks : UInt16 → Option (DataChannelCallbacks F)) (pre post : List (ChannelAct F))
    (hpost : ∀ a ∈ post, registersChannel id a = false) :
    (∀ x ∈ (run (channelStep id) (.start callbacks)
        (pre ++ .setCallbacks id ⟨some m, some o, some c⟩ :: post)).log,
      Reached (receiver m o c) x) ↔
      Heeds (FindsChannel id m o c) (channelStep id) (.start callbacks) pre := by
  rw [log_good_iff (channelStep id) ChannelSys.log (channelLogged id) (Reached (receiver m o c))
    (fun _ => True) (FindsChannel id m o c) (channelStep_log id) (fun _ _ _ => trivial)
    (fun s a _ => channelLogged_good_iff s a) _ (.start callbacks) trivial, heeds_append]
  constructor
  · rintro ⟨-, hpre, -⟩
    exact hpre
  · intro hpre
    refine ⟨fun x hx => (by cases hx), hpre, trivial, finds_after id m o c post _ hpost fun _ => ?_⟩
    simp [channelStep]

/-- **Data channels: everything sent is delivered exactly if the poller makes no call before the
registration.** -/
theorem channel_delivered_iff (id : UInt16) (m o c : F)
    (callbacks : UInt16 → Option (DataChannelCallbacks F)) (pre post : List (ChannelAct F))
    (hpost : ∀ a ∈ post, registersChannel id a = false)
    (hord : EngineOrder (run (channelStep id) (.start callbacks)
      (pre ++ .setCallbacks id ⟨some m, some o, some c⟩ :: post)).sent) :
    ChannelDelivered id m o c (run (channelStep id) (.start callbacks)
        (pre ++ .setCallbacks id ⟨some m, some o, some c⟩ :: post)) ↔
      Heeds (FindsChannel id m o c) (channelStep id) (.start callbacks) pre := by
  have hlog := fun bs : List (ChannelAct F) => channel_reached_iff id m o c callbacks pre
    (post ++ bs)
  simp only [← List.cons_append, ← List.append_assoc, run_append (s := ChannelSys.start callbacks)]
    at hlog
  have hhist := hist_run id callbacks (pre ++ .setCallbacks id ⟨some m, some o, some c⟩ :: post)
  simp only [run_append (s := ChannelSys.start callbacks)] at hhist hord ⊢
  generalize run (channelStep id) (run (channelStep id) (.start callbacks) pre)
    (.setCallbacks id ⟨some m, some o, some c⟩ :: post) = s at *
  -- at rest the poller has made all the calls, and the question is where they went
  have hrest : ∀ bs : List (ChannelAct F),
      (∀ a ∈ bs, a.isEngine = false ∧ registersChannel id a = false) →
      s.stepsLeft ≤ turns ChannelAct.isPoller bs →
      ((run (channelStep id) s bs).calls
          = (told s.inbox.gone s.sent).map (fun call => (call, receiver m o c call)) ↔
        Heeds (FindsChannel id m o c) (channelStep id) (.start callbacks) pre) := by
    intro bs hbs hturns
    have hquiet : ∀ a ∈ bs, a.isEngine = false := fun a ha => (hbs a ha).1
    obtain ⟨hsent, hgone⟩ := run_without_engine id s hquiet
    obtain ⟨done, k, hist⟩ := run_inv (channelStep_hist id) bs s hhist
    have hcalls := rested_calls hist (hsent ▸ hord) (rested_of_turns s bs hquiet hturns)
    rw [hsent, hgone, ← attempts_fst] at hcalls
    rw [calls_eq_attempts, ← hcalls, reached_eq_iff, attempts_reached_iff]
    refine hlog bs ?_
    intro a ha
    rcases List.mem_append.mp ha with ha | ha
    · exact hpost a ha
    · exact (hbs a ha).2
  constructor
  · rintro ⟨n, hn⟩
    have hturns : turns ChannelAct.isPoller
        (List.replicate (max n s.stepsLeft) (ChannelAct.poller (F := F))) = max n s.stepsLeft :=
      turns_replicate rfl _
    have hpolls : ∀ a ∈ List.replicate (max n s.stepsLeft) (ChannelAct.poller (F := F)),
        a.isEngine = false ∧ registersChannel id a = false := by
      intro a ha
      rw [List.eq_of_mem_replicate ha]
      exact ⟨rfl, rfl⟩
    refine (hrest _ hpolls ?_).mp (hn _ hpolls ?_) <;> rw [hturns]
    · exact Nat.le_max_right _ _
    · exact Nat.le_max_left _ _
  · intro hpre
    exact ⟨s.stepsLeft, fun bs hbs hturns => (hrest bs hbs hturns).mpr hpre⟩

end Channel

/-! ## 2. Remote tracks -/

/-- The two static upcall stubs of `TrackRemote`. -/
inductive Stub where
  | onRtp
  | onOpen
  deriving DecidableEq, Repr

/-- The statements of `PeerConnection.trackCb` and of the application's `onTrack`, in the order
they are run: `TrackRemote.register` makes the native call (two statements there) inside
`computeIfAbsent`, which publishes the object in `TRACKS` when it is done. -/
inductive AppStep (G : Type) where
  | storeStubs
  | spawnPoller
  | publishTrack
  | setOpenCallback (f : G)
  | setRtpCallback (g : G)

/-- One track as the bridge sees it: the native part, `TRACKS`, the two fields as the application
wrote them and as the poller's thread reads them, the rest of the application's statements, and
the calls made so far with the application callback that received each. -/
structure TrackFeed (G : Type) where
  native : TrackSys Stub
  tracks : Bool
  openCallback : Option G
  rtpCallback : Option G
  openSeen : Option G
  rtpSeen : Option G
  program : List (AppStep G)
  upcalls : List (TrackCall × Option G)

/-- What can happen.  `seeOpen` / `seeRtp`: the field's current value becomes visible to the
poller's thread. -/
inductive FeedAct where
  | push (e : TrackRemoteEvent)
  | dropSender
  | app
  | seeOpen
  | seeRtp
  | poller (i : Nat)
  deriving DecidableEq, Repr

section Track

variable {G : Type}

/-- `trackCb` with an `onTrack` that sets both callbacks, in one order or the other. -/
def trackCb (rtpFirst : Bool) (f g : G) : List (AppStep G) :=
  [.storeStubs, .spawnPoller, .publishTrack] ++
    if rtpFirst then [.setRtpCallback g, .setOpenCallback f]
    else [.setOpenCallback f, .setRtpCallback g]

/-- `register_track` has just put the track in and `trackCb` is about to run. -/
def TrackFeed.start (remoteTracks : UInt32 → Bool)
    (callbacks : UInt32 → Option (TrackEventCallbacks Stub)) (rtpFirst : Bool) (f g : G) :
    TrackFeed G :=
  ⟨TrackSys.start remoteTracks callbacks, false, none, none, none, none, trackCb rtpFirst f g, []⟩

/-- `ON_RTP_FUNC` and `ON_OPEN_FUNC`: the application callback they end up calling. -/
def TrackFeed.onStub (s : TrackFeed G) : Stub → Option G
  | .onRtp => if s.tracks then s.rtpSeen else none
  | .onOpen => if s.tracks then s.openSeen else none

/-- What the Java side makes of an operation the native poller performed. -/
def TrackFeed.upcall (s : TrackFeed G) : TrackOp × Option Stub → Option (TrackCall × Option G)
  | (.call c, some stub) => some (c, s.onStub stub)
  | (.call c, none) => some (c, none)
  | _ => none

/-- The calls one native action makes. -/
def TrackFeed.upcallsOf (id : UInt32) (s : TrackFeed G) (a : TrackAct Stub) :
    List (TrackCall × Option G) :=
  ((trackStep id s.native a).log.drop s.native.log.length).filterMap s.upcall

/-- The next statement of the application's thread. -/
def TrackFeed.runApp (id : UInt32) (s : TrackFeed G) : AppStep G → TrackFeed G
  | .storeStubs =>
    { s with native := trackStep id s.native (.setCallbacks id ⟨some .onRtp, some .onOpen⟩) }
  | .spawnPoller => { s with native := trackStep id s.native .spawnIfRegistered }
  | .publishTrack => { s with tracks := true }
  | .setOpenCallback f => { s with openCallback := some f }
  | .setRtpCallback g => { s with rtpCallback := some g }

/-- One action on the track with this `id`. -/
def feedStep (id : UInt32) (s : TrackFeed G) : FeedAct → TrackFeed G
  | .push e => { s with native := trackStep id s.native (.push e) }
  | .dropSender => { s with native := trackStep id s.native .dropSender }
  | .app =>
    match s.program with
    | [] => s
    | st :: rest => { s.runApp id st with program := rest }
  | .seeOpen => { s with openSeen := s.openCallback }
  | .seeRtp => { s with rtpSeen := s.rtpCallback }
  | .poller i =>
    { s with
      native := trackStep id s.native (.poller i)
      upcalls := s.upcalls ++ s.upcallsOf id (.poller i) }

/-- The callback the application registered for a call. -/
def registeredFor (f g : G) : TrackCall → G
  | .onOpen .. => f
  | .onRtp .. => g

/-- What the poller's thread sees of the field for a call. -/
def TrackFeed.seenFor (s : TrackFeed G) : TrackCall → Option G
  | .onOpen .. => s.openSeen
  | .onRtp .. => s.rtpSeen

/-- The calls that reached an application callback, each with that callback. -/
def TrackFeed.reached (s : TrackFeed G) : List (TrackCall × G) :=
  s.upcalls.filterMap fun x => x.2.map (x.1, ·)

/-- What the engine does. -/
def FeedAct.isEngine : FeedAct → Bool
  | .push _ => true
  | .dropSender => true
  | _ => false

/-- **Everything sent is delivered to `f` and `g`**: when the engine does nothing more and the
poller has had enough turns, the application has been told all it should be told of the events sent,
by calls of these two callbacks. -/
def TrackDelivered (id : UInt32) (f g : G) (s : TrackFeed G) : Prop :=
  ∃ n, ∀ bs : List FeedAct, (∀ a ∈ bs, a.isEngine = false) → n ≤ turns (· == .poller 0) bs →
    (run (feedStep id) s bs).reached
      = (trackTold s.native.sent).map fun c => (c, registeredFor f g c)

/-- `onTrack` has returned, and what it wrote is visible to the poller's thread. -/
structure TrackFeed.Registered (f g : G) (s : TrackFeed G) : Prop where
  program : s.program = []
  tracks : s.tracks = true
  openCallback : s.openCallback = some f
  openSeen : s.openSeen = some f
  rtpCallback : s.rtpCallback = some g
  rtpSeen : s.rtpSeen = some g

/-- The condition on a step: a poller about to make a call finds the track published and the
field visible. -/
def FindsTrack (f g : G) (s : TrackFeed G) : FeedAct → Prop
  | .poller i => ∀ t c rest, s.native.pollers[i]? = some t → t.halted = false →
      t.todo = .call c :: rest → s.tracks = true ∧ s.seenFor c = some (registeredFor f g c)
  | _ => True

/-- A statement that no longer touches the native side. -/
def AppStep.javaOnly : AppStep G → Bool
  | .storeStubs => false
  | .spawnPoller => false
  | _ => true

/-- The entry `register` stores. -/
def stubs : TrackEventCallbacks Stub := ⟨some .onRtp, some .onOpen⟩

/-- Before the spawn: there is no poller, and nothing has been taken or called. -/
structure TrackFeed.Unspawned (id : UInt32) (s : TrackFeed G) : Prop where
  pollers : s.native.pollers = []
  registered : s.native.remoteTracks id = true
  sent : s.native.inbox.queue = s.native.sent
  upcalls : s.upcalls = []

/-- After it: one poller, whose entry is there while it lives, and whose history accounts for the
calls. -/
structure TrackFeed.Spawned (id : UInt32) (s : TrackFeed G) (t : Loop Unit TrackOp) : Prop where
  pollers : s.native.pollers = [t]
  entry : t.halted = false → s.native.callbacks id = some stubs
  program : ∀ st ∈ s.program, st.javaOnly = true
  hist : ∃ performed done k,
    trackReactor.History () s.native.sent performed t s.native.inbox done k ∧
      s.upcalls.map Prod.fst = performed.filterMap TrackOp.call?

/-- **Where the application's thread is, and what that means natively.** -/
def TrackFeed.Phase (id : UInt32) (s : TrackFeed G) : Prop :=
  (s.Unspawned id ∧ s.native.calling = 0 ∧
      ∃ rest, s.program = .storeStubs :: .spawnPoller :: rest ∧ ∀ st ∈ rest, st.javaOnly = true) ∨
  (s.Unspawned id ∧ s.native.calling = 1 ∧ s.native.callbacks id = some stubs ∧
      ∃ rest, s.program = .spawnPoller :: rest ∧ ∀ st ∈ rest, st.javaOnly = true) ∨
  ∃ t, s.Spawned id t

theorem phase_start (id : UInt32) {remoteTracks : UInt32 → Bool} (htrack : remoteTracks id = true)
    (callbacks : UInt32 → Option (TrackEventCallbacks Stub)) (rtpFirst : Bool) (f g : G) :
    (TrackFeed.start remoteTracks callbacks rtpFirst f g).Phase id := by
  refine Or.inl ⟨⟨rfl, htrack, rfl, rfl⟩, rfl, _, rfl, ?_⟩
  cases rtpFirst <;> simp [AppStep.javaOnly]

/-- Only the Java fields change. -/
theorem phase_congr {id : UInt32} {s s' : TrackFeed G} (h : s.Phase id)
    (hn : s'.native = s.native) (hu : s'.upcalls = s.upcalls) (hp : s'.program = s.program) :
    s'.Phase id := by
  obtain ⟨native, tracks, openC, rtpC, openS, rtpS, program, upcalls⟩ := s
  obtain ⟨native', tracks', openC', rtpC', openS', rtpS', program', upcalls'⟩ := s'
  obtain rfl : native' = native := hn
  obtain rfl : upcalls' = upcalls := hu
  obtain rfl : program' = program := hp
  rcases h with ⟨h, hc, hrest⟩ | ⟨h, hc, he, hrest⟩ | ⟨t, h⟩
  · exact Or.inl ⟨⟨h.pollers, h.registered, h.sent, h.upcalls⟩, hc, hrest⟩
  · exact Or.inr (Or.inl ⟨⟨h.pollers, h.registered, h.sent, h.upcalls⟩, hc, he, hrest⟩)
  · exact Or.inr (Or.inr ⟨t, h.pollers, h.entry, h.program, h.hist⟩)

/-- The engine sends, or drops its sender. -/
theorem phase_engine {id : UInt32} {s : TrackFeed G} (h : s.Phase id) {q : Inbox TrackRemoteEvent}
    {sent : List TrackRemoteEvent}
    (hqueue : s.native.inbox.queue = s.native.sent → q.queue = sent)
    (hhist : ∀ {performed t done k},
      trackReactor.History () s.native.sent performed t s.native.inbox done k →
        trackReactor.History () sent performed t q done k) :
    ({ s with native := { s.native with inbox := q, sent := sent } } : TrackFeed G).Phase id := by
  rcases h with ⟨h, hc, hrest⟩ | ⟨h, hc, he, hrest⟩ | ⟨t, h⟩
  · exact Or.inl ⟨⟨h.pollers, h.registered, hqueue h.sent, h.upcalls⟩, hc, hrest⟩
  · exact Or.inr (Or.inl ⟨⟨h.pollers, h.registered, hqueue h.sent, h.upcalls⟩, hc, he, hrest⟩)
  · obtain ⟨performed, done, k, hist, hcalls⟩ := h.hist
    exact Or.inr (Or.inr ⟨t, h.pollers, h.entry, h.program, performed, done, k, hhist hist, hcalls⟩)

/-- A Java statement leaves the native side alone. -/
theorem runApp_native (id : UInt32) (s : TrackFeed G) {st : AppStep G} (h : st.javaOnly = true) :
    (s.runApp id st).native = s.native ∧ (s.runApp id st).upcalls = s.upcalls := by
  cases st with
  | storeStubs | spawnPoller => cases h
  | publishTrack | setOpenCallback | setRtpCallback => exact ⟨rfl, rfl⟩

/-- The application's next statement. -/
theorem phase_app {id : UInt32} {s : TrackFeed G} (h : s.Phase id) :
    (feedStep id s .app).Phase id := by
  rcases h with ⟨h, hc, rest, hprog, hrest⟩ | ⟨h, hc, he, rest, hprog, hrest⟩ | ⟨t, h⟩
  · -- the stubs are stored
    refine Or.inr (Or.inl ?_)
    simp only [feedStep, hprog, TrackFeed.runApp, trackStep]
    refine ⟨⟨h.pollers, h.registered, h.sent, h.upcalls⟩, ?_, ?_, rest, rfl, hrest⟩
    · simp [hc]
    · simp [stubs]
  · -- the poller is spawned
    refine Or.inr (Or.inr ⟨Loop.start (), ?_⟩)
    have hspawn : trackStep id s.native .spawnIfRegistered
        = { s.native with pollers := [Loop.start ()], calling := 0 } := by
      simp [trackStep, hc, h.registered, h.pollers]
    simp only [feedStep, hprog, TrackFeed.runApp, hspawn]
    refine ⟨rfl, fun _ => he, hrest, [], [], 0, ?_, ?_⟩
    · simp only [← h.sent]
      exact Reactor.History.start _ () _
    · simp [h.upcalls]
  · -- only Java statements are left
    cases hprog : s.program with
    | nil =>
      have hself : feedStep id s .app = s := by simp [feedStep, hprog]
      rw [hself]
      exact Or.inr (Or.inr ⟨t, h⟩)
    | cons st rest =>
      have hjava := h.program
      rw [hprog] at hjava
      obtain ⟨hnative, hupcalls⟩ := runApp_native id s (hjava st List.mem_cons_self)
      refine Or.inr (Or.inr ⟨t, ?_⟩)
      simp only [feedStep, hprog]
      refine ⟨?_, ?_, fun st' h' => hjava st' (List.mem_cons_of_mem st h'), ?_⟩
      · simpa only [hnative] using h.pollers
      · simpa only [hnative] using h.entry
      · simpa only [hnative, hupcalls] using h.hist

/-- The calls of a poller's step. -/
theorem upcallsOf_poller (id : UInt32) (s : TrackFeed G) (i : Nat) {t : Loop Unit TrackOp}
    (ht : s.native.pollers[i]? = some t) :
    s.upcallsOf id (.poller i)
      = ((trackReactor.advance t s.native.inbox).2.2.toList.map fun o =>
          (o, trackCallbackFor (s.native.callbacks id) o)).filterMap s.upcall := by
  simp [TrackFeed.upcallsOf, trackStep, ht, TrackSys.stepPoller]

/-- With the stubs stored, a call goes to what the poller's thread sees of the field, if the
track is published. -/
theorem upcall_stubs (s : TrackFeed G) (c : TrackCall) :
    s.upcall (.call c, trackCallbackFor (some stubs) (.call c))
      = some (c, if s.tracks then s.seenFor c else none) := by
  cases c <;> rfl

/-- Every call of the poller is an entry, wherever it goes. -/
theorem upcall_fst (s : TrackFeed G) (o : TrackOp) (stub : Option Stub) :
    (s.upcall (o, stub)).map Prod.fst = o.call? := by
  cases o <;> cases stub <;> rfl

theorem phase_poller {id : UInt32} {s : TrackFeed G} (h : s.Phase id) (i : Nat) :
    (feedStep id s (.poller i)).Phase id := by
  cases ht : s.native.pollers[i]? with
  | none =>
    have hnative : trackStep id s.native (.poller i) = s.native := by simp [trackStep, ht]
    refine phase_congr h ?_ ?_ rfl <;> simp [feedStep, TrackFeed.upcallsOf, hnative]
  | some t =>
    have hmem := List.mem_of_getElem? ht
    rcases h with ⟨h, -⟩ | ⟨h, -⟩ | ⟨t', h⟩
    · rw [h.pollers] at hmem
      cases hmem
    · rw [h.pollers] at hmem
      cases hmem
    · -- it is the one poller
      obtain rfl : t = t' := by
        rw [h.pollers] at hmem
        exact List.mem_singleton.mp hmem
      obtain rfl : i = 0 := by
        obtain ⟨hi, -⟩ := List.getElem?_eq_some_iff.mp ht
        simpa [h.pollers] using hi
      obtain ⟨performed, done, k, hist, hcalls⟩ := h.hist
      obtain ⟨done', k', hist'⟩ := hist.advance
      have hnative : trackStep id s.native (.poller 0) = s.native.stepPoller id 0 t := by
        simp [trackStep, ht]
      refine Or.inr (Or.inr ⟨(trackReactor.advance t s.native.inbox).1, ?_, ?_, h.program,
        performed ++ (trackReactor.advance t s.native.inbox).2.2.toList, done', k', ?_, ?_⟩)
      · simp [feedStep, hnative, TrackSys.stepPoller, h.pollers]
      · intro hlive
        simp only [feedStep, hnative]
        rw [stepPoller_callbacks hlive]
        refine h.entry ?_
        by_contra hhalted
        rw [trackReactor.advance_of_halted (by simpa using hhalted)] at hlive
        exact hhalted hlive
      · simp only [feedStep, hnative]
        exact hist'
      · simp only [feedStep]
        rw [List.map_append, hcalls, upcallsOf_poller id s 0 ht, List.filterMap_append,
          List.map_filterMap, List.filterMap_map]
        refine congrArg _ (List.filterMap_congr ?_)
        intro o _
        exact upcall_fst s o _

/-- **Every action keeps the phase.** -/
theorem feedStep_phase (id : UInt32) (s : TrackFeed G) (a : FeedAct) (h : s.Phase id) :
    (feedStep id s a).Phase id := by
  cases a with
  | push e =>
    cases hg : s.native.inbox.gone with
    | true => simpa [feedStep, trackStep, hg] using h
    | false =>
      have hstep : feedStep id s (.push e) = { s with native := { s.native with
          inbox := s.native.inbox.push e, sent := s.native.sent ++ [e] } } := by
        simp [feedStep, trackStep, hg]
      rw [hstep]
      refine phase_engine h ?_ fun hist => hist.push hg e
      intro hqueue
      simp [Inbox.push, hg, hqueue]
  | dropSender => exact phase_engine h (fun hqueue => hqueue) fun hist => hist.drop
  | seeOpen | seeRtp => exact phase_congr h rfl rfl rfl
  | app => exact phase_app h
  | poller i => exact phase_poller h i

/-- What a step adds. -/
def feedLogged (id : UInt32) (s : TrackFeed G) : FeedAct → List (TrackCall × Option G)
  | .poller i => s.upcallsOf id (.poller i)
  | _ => []

theorem feedStep_upcalls (id : UInt32) (s : TrackFeed G) (a : FeedAct) :
    (feedStep id s a).upcalls = s.upcalls ++ feedLogged id s a := by
  cases a with
  | app =>
    simp only [feedStep, feedLogged, List.append_nil]
    split
    · rfl
    · rename_i st rest _
      cases st <;> rfl
  | push e | dropSender | seeOpen | seeRtp => simp [feedStep, feedLogged]
  | poller i => rfl

theorem findsTrack_poller_iff {f g : G} {s : TrackFeed G} {i : Nat} {t : Loop Unit TrackOp}
    (ht : s.native.pollers[i]? = some t) :
    FindsTrack f g s (.poller i) ↔ ∀ c rest, t.halted = false → t.todo = .call c :: rest →
      s.tracks = true ∧ s.seenFor c = some (registeredFor f g c) := by
  constructor
  · intro h c rest
    exact h t c rest ht
  · intro h t' c rest ht'
    rw [ht] at ht'
    obtain rfl := Option.some.inj ht'
    exact h c rest

/-- What a step adds went to the registered callbacks exactly if the step meets the condition. -/
theorem feedLogged_good_iff (id : UInt32) (f g : G) (s : TrackFeed G) (a : FeedAct)
    (h : s.Phase id) :
    (∀ x ∈ feedLogged id s a, x.2 = some (registeredFor f g x.1)) ↔ FindsTrack f g s a := by
  cases a with
  | app | push e | dropSender | seeOpen | seeRtp => simp [feedLogged, FindsTrack]
  | poller i =>
    cases ht : s.native.pollers[i]? with
    | none =>
      have hnone : s.upcallsOf id (.poller i) = [] := by
        simp [TrackFeed.upcallsOf, trackStep, ht]
      simp [feedLogged, FindsTrack, hnone, ht]
    | some t =>
      rw [findsTrack_poller_iff ht, feedLogged, upcallsOf_poller id s i ht]
      rcases trackReactor.advance_cases t s.native.inbox with ⟨heq, hidle⟩ |
          ⟨o, rest, hh, hto, heq⟩ | ⟨e, es, hh, hto, hq, heq⟩ | ⟨hh, hto, hq, -, heq⟩
      · rw [heq]
        rcases hidle with hh | ⟨hto, -, -⟩ <;> simp [*]
      · rw [heq]
        -- a live poller has its entry
        have hentry : s.native.callbacks id = some stubs := by
          have hmem := List.mem_of_getElem? ht
          rcases h with ⟨h, -⟩ | ⟨h, -⟩ | ⟨t', h⟩
          · rw [h.pollers] at hmem
            cases hmem
          · rw [h.pollers] at hmem
            cases hmem
          · rw [h.pollers] at hmem
            obtain rfl := List.mem_singleton.mp hmem
            exact h.entry hh
        rw [hentry]
        cases o with
        | call c =>
          simp only [Option.toList_some, List.map_cons, List.map_nil, List.filterMap_cons,
            upcall_stubs, List.filterMap_nil, List.mem_singleton, forall_eq]
          constructor
          · intro hx c' rest' _ hto'
            rw [hto] at hto'
            obtain ⟨hc, -⟩ := List.cons.inj hto'
            obtain rfl := TrackOp.call.inj hc
            cases htr : s.tracks with
            | true => exact ⟨rfl, by simpa [htr] using hx⟩
            | false => simp [htr] at hx
          · intro hx
            obtain ⟨htr, hseen⟩ := hx c rest hh hto
            simp [htr, hseen]
        | sleep | removeTrack | removeEntry => simp [TrackFeed.upcall, hto]
      · rw [heq]
        simp [hto]
      · rw [heq]
        simp [hto]

/-- Once `onTrack` has returned there is a poller. -/
theorem spawned_of_phase {id : UInt32} {s : TrackFeed G} (h : s.Phase id) (hp : s.program = []) :
    ∃ t, s.Spawned id t := by
  rcases h with ⟨-, -, rest, hprog, -⟩ | ⟨-, -, -, rest, hprog, -⟩ | h
  · rw [hp] at hprog
    cases hprog
  · rw [hp] at hprog
    cases hprog
  · exact h

/-- Nothing undoes the registration. -/
theorem feedStep_registered {id : UInt32} {f g : G} (s : TrackFeed G) (a : FeedAct)
    (h : s.Registered f g) : (feedStep id s a).Registered f g := by
  have hopen : s.openCallback = some f := h.openCallback
  have hrtp : s.rtpCallback = some g := h.rtpCallback
  cases a with
  | app =>
    have hself : feedStep id s .app = s := by simp [feedStep, h.program]
    rw [hself]
    exact h
  | seeOpen => exact ⟨h.program, h.tracks, hopen, hopen, hrtp, h.rtpSeen⟩
  | seeRtp => exact ⟨h.program, h.tracks, hopen, h.openSeen, hrtp, hrtp⟩
  | push | dropSender | poller => exact ⟨h.program, h.tracks, hopen, h.openSeen, hrtp, h.rtpSeen⟩

/-- After it every step meets the condition. -/
theorem finds_registered {id : UInt32} {f g : G} :
    ∀ (bs : List FeedAct) (s : TrackFeed G), s.Registered f g →
      Heeds (FindsTrack f g) (feedStep id) s bs
  | [], _, _ => trivial
  | a :: bs, s, h => by
    refine ⟨?_, finds_registered bs _ (feedStep_registered s a h)⟩
    cases a with
    | poller i =>
      intro t c rest _ _ _
      refine ⟨h.tracks, ?_⟩
      cases c with
      | onOpen => exact h.openSeen
      | onRtp => exact h.rtpSeen
    | push | dropSender | app | seeOpen | seeRtp => trivial

/-- The one poller is at rest. -/
def TrackFeed.Rested (s : TrackFeed G) : Prop :=
  ∀ t ∈ s.native.pollers, trackReactor.Rested t s.native.inbox

/-- How many steps it can still take. -/
def TrackFeed.stepsLeft (s : TrackFeed G) : Nat :=
  (s.native.pollers.map fun t => trackReactor.potential 2 t s.native.inbox).sum

/-- The step of the one poller. -/
theorem feedStep_poller (id : UInt32) {s : TrackFeed G} {t : Loop Unit TrackOp}
    (h : s.native.pollers = [t]) :
    (feedStep id s (.poller 0)).native.pollers = [(trackReactor.advance t s.native.inbox).1] ∧
      (feedStep id s (.poller 0)).native.inbox = (trackReactor.advance t s.native.inbox).2.1 := by
  simp [feedStep, trackStep, TrackSys.stepPoller, h]

/-- The other actions without the engine leave it alone. -/
theorem feedStep_aside {id : UInt32} {s : TrackFeed G} {t : Loop Unit TrackOp}
    (hpollers : s.native.pollers = [t]) (hprogram : s.program = []) {a : FeedAct}
    (ha : a.isEngine = false) (hne : a ≠ .poller 0) :
    (feedStep id s a).native = s.native := by
  cases a with
  | push e | dropSender => cases ha
  | app => simp [feedStep, hprogram]
  | seeOpen | seeRtp => rfl
  | poller i =>
    have hi : i ≠ 0 := fun hi => hne (hi ▸ rfl)
    have hnone : s.native.pollers[i]? = none := by simp [hpollers, hi]
    simp [feedStep, trackStep, hnone]

/-- **The poller comes to rest** while the engine does nothing. -/
theorem feed_rested_of_turns {id : UInt32} {s : TrackFeed G} (hphase : s.Phase id)
    (hprogram : s.program = []) (bs : List FeedAct) (hbs : ∀ a ∈ bs, a.isEngine = false)
    (hturns : s.stepsLeft ≤ turns (· == .poller 0) bs) : (run (feedStep id) s bs).Rested := by
  refine fin_of_turns (fun s : TrackFeed G => s.Phase id ∧ s.program = []) TrackFeed.Rested
    TrackFeed.stepsLeft (· == .poller 0) (fun a => a.isEngine = false) ?_ ?_ ?_ ?_ ?_ bs s hbs
    ⟨hphase, hprogram⟩ (Or.inl hturns)
  · intro s a _ ⟨h, hp⟩
    refine ⟨feedStep_phase id s a h, ?_⟩
    cases a <;> simp [feedStep, hp]
  · intro s a _ hturn ⟨h, hp⟩ hnot
    obtain ⟨t, ht⟩ := spawned_of_phase h hp
    obtain rfl : a = .poller 0 := by simpa using hturn
    obtain ⟨hpollers, hinbox⟩ := feedStep_poller id ht.pollers
    rw [TrackFeed.stepsLeft, TrackFeed.stepsLeft, hpollers, hinbox, ht.pollers]
    simp only [List.map_cons, List.map_nil, List.sum_cons, List.sum_nil, Nat.add_zero]
    refine Reactor.potential_advance_lt (fun _ => trackReact_length) fun hr => hnot ?_
    intro t' ht'
    rw [ht.pollers, List.mem_singleton] at ht'
    rw [ht']
    exact hr
  · intro s a ha hturn ⟨h, hp⟩ _
    obtain ⟨t, ht⟩ := spawned_of_phase h hp
    rw [TrackFeed.stepsLeft, feedStep_aside ht.pollers hp ha (by simpa using hturn)]
    rfl
  · intro s a ha ⟨h, hp⟩ hr
    obtain ⟨t, ht⟩ := spawned_of_phase h hp
    by_cases hturn : a = .poller 0
    · subst hturn
      obtain ⟨hpollers, hinbox⟩ := feedStep_poller id ht.pollers
      intro t' ht'
      rw [hpollers, List.mem_singleton] at ht'
      rw [ht', hinbox]
      exact (hr t (by simp [ht.pollers])).advance
    · rw [TrackFeed.Rested, feedStep_aside ht.pollers hp ha hturn]
      exact hr
  · intro s ⟨h, hp⟩ hz
    obtain ⟨t, ht⟩ := spawned_of_phase h hp
    intro t' ht'
    rw [ht.pollers, List.mem_singleton] at ht'
    rw [TrackFeed.stepsLeft, ht.pollers] at hz
    rw [ht']
    exact Or.inl (trackReactor.halted_of_potential_eq_zero (by simpa using hz))

/-- Without the engine nothing is sent. -/
theorem feed_sent_of_quiet {id : UInt32} (s : TrackFeed G) {bs : List FeedAct}
    (hbs : ∀ a ∈ bs, a.isEngine = false) :
    (run (feedStep id) s bs).native.sent = s.native.sent := by
  refine run_inv_on (fun s' : TrackFeed G => s'.native.sent = s.native.sent)
    (fun a => a.isEngine = false) ?_ bs s hbs rfl
  intro s' a ha h
  rw [← h]
  cases a with
  | push e | dropSender => cases ha
  | seeOpen | seeRtp => rfl
  | app =>
    simp only [feedStep]
    split
    · rfl
    · rename_i st rest _
      cases st with
      | spawnPoller =>
        simp only [TrackFeed.runApp, trackStep]
        split
        · rfl
        · split <;> rfl
      | storeStubs | publishTrack | setOpenCallback | setRtpCallback => rfl
  | poller i =>
    simp only [feedStep, trackStep]
    split <;> rfl

/-- **Remote tracks: everything sent is delivered exactly if no call is made before the track is
published and the field written in `onTrack` is visible.** -/
theorem track_delivered_iff (id : UInt32) (remoteTracks : UInt32 → Bool)
    (callbacks : UInt32 → Option (TrackEventCallbacks Stub)) (rtpFirst : Bool) (f g : G)
    (as : List FeedAct) (htrack : remoteTracks id = true)
    (hreg : (run (feedStep id)
      (.start remoteTracks callbacks rtpFirst f g) as).Registered f g) :
    TrackDelivered id f g (run (feedStep id) (.start remoteTracks callbacks rtpFirst f g) as) ↔
      Heeds (FindsTrack f g) (feedStep id) (.start remoteTracks callbacks rtpFirst f g) as := by
  have hstart := phase_start id htrack callbacks rtpFirst f g
  have hlog := fun bs : List FeedAct => log_good_iff (feedStep id) TrackFeed.upcalls (feedLogged id)
    (fun x => x.2 = some (registeredFor f g x.1)) (fun s => s.Phase id) (FindsTrack f g)
    (feedStep_upcalls id) (feedStep_phase id) (feedLogged_good_iff id f g) (as ++ bs)
    (.start remoteTracks callbacks rtpFirst f g) hstart
  have hphase := run_inv (feedStep_phase id) as _ hstart
  simp only [run_append, heeds_append] at hlog
  generalize hs : run (feedStep id) (.start remoteTracks callbacks rtpFirst f g) as = s at *
  -- at rest the poller has made all the calls, and the question is where they went
  have hrest : ∀ bs : List FeedAct, (∀ a ∈ bs, a.isEngine = false) →
      s.stepsLeft ≤ turns (· == .poller 0) bs →
      ((run (feedStep id) s bs).reached
          = (trackTold s.native.sent).map (fun c => (c, registeredFor f g c)) ↔
        Heeds (FindsTrack f g) (feedStep id) (.start remoteTracks callbacks rtpFirst f g) as) := by
    intro bs hbs hturns
    have hreg' : (run (feedStep id) s bs).Registered f g := run_inv feedStep_registered bs s hreg
    obtain ⟨t, ht⟩ := spawned_of_phase (run_inv (feedStep_phase id) bs s hphase) hreg'.program
    obtain ⟨performed, done, k, hist, hcalls⟩ := ht.hist
    have hr := feed_rested_of_turns hphase hreg.program bs hbs hturns t (by simp [ht.pollers])
    rw [rested_trackCalls hist hr, feed_sent_of_quiet s hbs] at hcalls
    rw [TrackFeed.reached, ← hcalls, reached_eq_iff, hlog bs]
    constructor
    · exact fun h => h.2.1
    · exact fun h => ⟨fun x hx => (by cases hx), h, finds_registered bs s hreg⟩
  constructor
  · rintro ⟨n, hn⟩
    have hturns : turns (· == FeedAct.poller 0)
        (List.replicate (max n s.stepsLeft) (.poller 0)) = max n s.stepsLeft :=
      turns_replicate (by simp) _
    have hpolls : ∀ a ∈ List.replicate (max n s.stepsLeft) (FeedAct.poller 0),
        a.isEngine = false := by
      intro a ha
      rw [List.eq_of_mem_replicate ha]
      rfl
    refine (hrest _ hpolls ?_).mp (hn _ hpolls ?_) <;> rw [hturns]
    · exact Nat.le_max_right _ _
    · exact Nat.le_max_left _ _
  · intro has
    exact ⟨s.stepsLeft, fun bs hbs hturns => (hrest bs hbs hturns).mpr has⟩

end Track

/-! ## 3. Both -/

/-- **What is lost at registration.**  For a data channel whose callbacks are set after the poller
was spawned, and for a track whose callbacks are set in `onTrack`, everything the engine has sent is
delivered to the registered callbacks exactly in the runs in which the poller makes no call before
the callback for it can be found: in the registry, or behind the stubs in a published and visible
field. -/
theorem registration_loses_nothing_iff {F G : Type} :
    (∀ (id : UInt16) (m o c : F) (callbacks : UInt16 → Option (DataChannelCallbacks F))
        (pre post : List (ChannelAct F)),
      (∀ a ∈ post, registersChannel id a = false) →
      EngineOrder (run (channelStep id) (.start callbacks)
        (pre ++ .setCallbacks id ⟨some m, some o, some c⟩ :: post)).sent →
      (ChannelDelivered id m o c (run (channelStep id) (.start callbacks)
          (pre ++ .setCallbacks id ⟨some m, some o, some c⟩ :: post)) ↔
        Heeds (FindsChannel id m o c) (channelStep id) (.start callbacks) pre)) ∧
    (∀ (id : UInt32) (remoteTracks : UInt32 → Bool)
        (callbacks : UInt32 → Option (TrackEventCallbacks Stub)) (rtpFirst : Bool) (f g : G)
        (as : List FeedAct), remoteTracks id = true →
      (run (feedStep id) (.start remoteTracks callbacks rtpFirst f g) as).Registered f g →
      (TrackDelivered id f g (run (feedStep id) (.start remoteTracks callbacks rtpFirst f g) as) ↔
        Heeds (FindsTrack f g) (feedStep id) (.start remoteTracks callbacks rtpFirst f g) as)) :=
  ⟨channel_delivered_iff, track_delivered_iff⟩

/-- An RTP packet, for the runs below. -/
def samplePacket : RtpPacket := ⟨96, 1, 0, 7, [1, 2, 3]⟩

/-- The track is registered before the packet is taken. -/
def promptTrack : List FeedAct :=
  [.app, .app, .app, .app, .app, .seeOpen, .seeRtp, .push (.onRtpPacket samplePacket), .poller 0,
    .poller 0]

/-- The packet is taken, and handed over, before the track is published. -/
def lateTrack : List FeedAct :=
  [.app, .app, .push (.onRtpPacket samplePacket), .poller 0, .poller 0, .app, .app, .app, .seeOpen,
    .seeRtp]

/-- The runs in which the application is quick: it registers before the poller takes `OnOpen`,
respectively the packet. -/
theorem registration_in_time :
    ChannelDelivered 1 0 1 2 (run (channelStep 1) (.start fun _ => none)
        ([.push .onOpen] ++ .setCallbacks 1 ⟨some 0, some 1, some 2⟩ :: [.poller, .poller])) ∧
      TrackDelivered 1 0 1
        (run (feedStep 1) (.start (fun _ => true) (fun _ => none) false 0 1) promptTrack) := by
  constructor
  · exact ((registration_loses_nothing_iff (G := Nat)).1 1 0 1 2 (fun _ => none)
      [.push .onOpen] [.poller, .poller] (by simp [registersChannel]) (by decide)).mpr
      ⟨trivial, trivial⟩
  · refine ((registration_loses_nothing_iff (F := Nat)).2 1 (fun _ => true) (fun _ => none) false
      0 1 promptTrack rfl ⟨rfl, rfl, rfl, rfl, rfl, rfl⟩).mpr ⟨trivial, trivial, trivial, trivial,
      trivial, trivial, trivial, trivial, ?_, ?_, trivial⟩
    · rintro t c rest ⟨⟩ - ⟨⟩
    · rintro t c rest ⟨⟩ - ⟨⟩
      exact ⟨rfl, rfl⟩

/-- The poller is quicker: it takes `OnOpen` before the registration, respectively an RTP packet
before the track is published, and the event is gone. -/
theorem registration_loses_events :
    ¬ ChannelDelivered 1 0 1 2 (run (channelStep 1) (.start fun _ => none)
        ([.push .onOpen, .poller, .poller] ++ .setCallbacks 1 ⟨some 0, some 1, some 2⟩ :: [])) ∧
      ¬ TrackDelivered 1 0 1
        (run (feedStep 1) (.start (fun _ => true) (fun _ => none) false 0 1) lateTrack) := by
  constructor
  · rw [channel_delivered_iff 1 0 1 2 (fun _ => none) _ [] (by simp) (by decide)]
    rintro ⟨-, -, hfinds, -⟩
    cases hfinds .onOpen [] rfl rfl
  · rw [track_delivered_iff 1 (fun _ => true) (fun _ => none) false 0 1 lateTrack rfl
      ⟨rfl, rfl, rfl, rfl, rfl, rfl⟩]
    rintro ⟨-, -, -, -, hfinds, -⟩
    obtain ⟨hpublished, -⟩ := hfinds _ _ _ rfl rfl rfl
    cases hpublished

end WebrtcBridge.Java
