/-
# Callbacks run under the registry lock

Every callback of a poller is made by a statement of the form

    if let Some(cb) = callbacks.lock().unwrap().get(&id).and_then(|c| c.on_..) { cb(..) }

In Rust edition 2021 the guard returned by `lock()` is a temporary of the scrutinee and lives to
the end of the whole `if let`, so the callback RUNS WITH THE REGISTRY LOCKED.  An application
callback that registers callbacks itself asks for that very mutex.

The system has any number of threads and four kinds of mutex: the callback registry of each peer,
the two global track tables, and the bins of the Java `ConcurrentHashMap` behind
`TrackRemote.register`, which `computeIfAbsent` holds while it makes the native call.  A thread is
idle or runs a piece of WORK, given as the statements the source has; a `dispatch` is the lookup
and call of the `if let`, between the statement that takes the guard and the one that drops it.

Exact answer, run by run (`registry_lock_safe_iff`): no callback runs under the registry lock, and
no cycle of waits exists, exactly as long as NO callback is dispatched at all.  Without callbacks
the locks are well ordered (a bin before the native tables, nothing else nested), so they are not
to blame; the first callback dispatched breaks the property, whatever it does.
-/
import WebrtcBridge.Lib.LockOrder
import WebrtcBridge.Ffi.TrackPoller

namespace WebrtcBridge.Ffi

open Lib

/-! ## 1. Mutexes, statements and work -/

/-- The mutexes in play. -/
inductive Mutex where
  /-- `Peer::dc_callbacks` of one peer -/
  | dcCallbacks (peer : Nat)
  /-- `TRACK_EVENT_CALLBACKS` -/
  | trackCallbacks
  /-- `REMOTE_TRACKS` -/
  | remoteTracks
  /-- a bin of `TrackRemote.TRACKS` -/
  | bin (n : Nat)
  deriving DecidableEq, Repr

/-- The callback registries. -/
def Mutex.isRegistry : Mutex → Bool
  | .dcCallbacks _ => true
  | .trackCallbacks => true
  | _ => false

/-- A bin is taken before the native tables. -/
def Mutex.rank : Mutex → Nat
  | .bin _ => 0
  | _ => 1

/-- A statement that calls nobody.  Callbacks are named by a number, see `App`. -/
inductive Statement where
  | lock (m : Mutex)
  | unlock (m : Mutex)
  | insertDc (peer : Nat) (id : UInt16) (cbs : DataChannelCallbacks Nat)
  | removeDc (peer : Nat) (id : UInt16)
  | insertTrack (id : UInt32) (cbs : TrackEventCallbacks Nat)
  | removeTrackEntry (id : UInt32)
  | removeTrack (id : UInt32)
  /-- `if let Some(track) = REMOTE_TRACKS..get(..).cloned() { spawn_track_poller(..) }`; the thread
  it would start is one of the idle ones -/
  | spawnIfRegistered (id : UInt32)
  /-- the body of `TRACKS.computeIfAbsent`, under its bin -/
  | computeIfAbsent (id : UInt32) (cbs : TrackEventCallbacks Nat)
  | publish (id : UInt32)
  deriving DecidableEq, Repr

/-- What a poller looks up and calls. -/
inductive Dispatch where
  | channel (peer : Nat) (id : UInt16) (c : ChannelCall)
  | track (id : UInt32) (c : TrackCall)
  deriving DecidableEq, Repr

/-- The registry it looks into. -/
def Dispatch.mutex : Dispatch → Mutex
  | .channel peer _ _ => .dcCallbacks peer
  | .track _ _ => .trackCallbacks

/-- The statements of a thread outside callbacks. -/
inductive PollerStatement where
  | plain (st : Statement)
  | dispatch (d : Dispatch)
  deriving DecidableEq, Repr

/-- A registration made by the application. -/
inductive AppCall where
  | setDataChannelCallbacks (peer : Nat) (id : UInt16) (cbs : DataChannelCallbacks Nat)
  | register (id : UInt32) (cbs : TrackEventCallbacks Nat)
  deriving DecidableEq, Repr

/-- The application: what each of its callbacks does, and in which bin a track falls. -/
structure App where
  body : Nat → List AppCall
  binOf : UInt32 → Nat

/-- `webrtc_ffi_track_remote_set_callbacks` followed by the publication of the track: what
`computeIfAbsent` runs for an absent track. -/
def mapping (id : UInt32) (cbs : TrackEventCallbacks Nat) : List Statement :=
  [.lock .trackCallbacks, .insertTrack id cbs, .unlock .trackCallbacks,
    .lock .remoteTracks, .spawnIfRegistered id, .unlock .remoteTracks, .publish id]

/-- The statements of a registration. -/
def AppCall.code (app : App) : AppCall → List Statement
  | .setDataChannelCallbacks peer id cbs =>
    [.lock (.dcCallbacks peer), .insertDc peer id cbs, .unlock (.dcCallbacks peer)]
  | .register id cbs =>
    [.lock (.bin (app.binOf id)), .computeIfAbsent id cbs, .unlock (.bin (app.binOf id))]

/-- A piece of work a thread can take up. -/
inductive Work where
  | channelEvent (peer : Nat) (id : UInt16) (c : ChannelCall)
  | channelEnd (peer : Nat) (id : UInt16)
  | trackEvent (id : UInt32) (c : TrackCall)
  | trackEnd (id : UInt32)
  | app (c : AppCall)
  deriving DecidableEq, Repr

/-- The `if let` of a poller: take the guard, look up and call, drop the guard. -/
def ifLet (d : Dispatch) : List PollerStatement :=
  [.plain (.lock d.mutex), .dispatch d, .plain (.unlock d.mutex)]

/-- The statements of a piece of work. -/
def Work.code (app : App) : Work → List PollerStatement
  | .channelEvent peer id c => ifLet (.channel peer id c)
  | .trackEvent id c => ifLet (.track id c)
  | .channelEnd peer id =>
    [.plain (.lock (.dcCallbacks peer)), .plain (.removeDc peer id),
      .plain (.unlock (.dcCallbacks peer))]
  | .trackEnd id =>
    [.plain (.lock .remoteTracks), .plain (.removeTrack id), .plain (.unlock .remoteTracks),
      .plain (.lock .trackCallbacks), .plain (.removeTrackEntry id),
      .plain (.unlock .trackCallbacks)]
  | .app c => (c.code app).map .plain

/-! ## 2. The system -/

/-- A running callback: the statements left and the guards it has taken itself. -/
structure CallbackFrame where
  code : List Statement
  held : List Mutex
  deriving DecidableEq, Repr

/-- A thread: its statements outside callbacks, the guards taken there, and the callback it is
executing, if any. -/
structure Thread where
  code : List PollerStatement
  held : List Mutex
  callback : Option CallbackFrame
  deriving DecidableEq, Repr

def Thread.idle : Thread := ⟨[], [], none⟩

/-- Mutex owners, threads, and the tables. -/
structure LockSys where
  owner : Mutex → Option Nat
  threads : Nat → Thread
  dcCallbacks : Nat → UInt16 → Option (DataChannelCallbacks Nat)
  trackCallbacks : UInt32 → Option (TrackEventCallbacks Nat)
  remoteTracks : UInt32 → Bool
  tracks : UInt32 → Bool

/-- Every thread idle, every mutex free, any content of the tables. -/
def LockSys.start (dcCallbacks : Nat → UInt16 → Option (DataChannelCallbacks Nat))
    (trackCallbacks : UInt32 → Option (TrackEventCallbacks Nat))
    (remoteTracks tracks : UInt32 → Bool) : LockSys :=
  ⟨fun _ => none, fun _ => .idle, dcCallbacks, trackCallbacks, remoteTracks, tracks⟩

/-- The callback a dispatch finds. -/
def LockSys.lookup (s : LockSys) : Dispatch → Option Nat
  | .channel peer id c => callbackFor (s.dcCallbacks peer id) (.call c)
  | .track id c => trackCallbackFor (s.trackCallbacks id) (.call c)

/-- Only a mutex that is owned blocks; `std::sync::Mutex` is not re-entrant. -/
def LockSys.enabled (s : LockSys) : Statement → Bool
  | .lock m => (s.owner m).isNone
  | _ => true

/-- What a statement of thread `th` does to owners and tables. -/
def LockSys.effect (s : LockSys) (th : Nat) : Statement → LockSys
  | .lock m => { s with owner := Function.update s.owner m (some th) }
  | .unlock m => { s with owner := Function.update s.owner m none }
  | .insertDc peer id cbs =>
    { s with
      dcCallbacks :=
        Function.update s.dcCallbacks peer (Function.update (s.dcCallbacks peer) id (some cbs)) }
  | .removeDc peer id =>
    { s with
      dcCallbacks :=
        Function.update s.dcCallbacks peer (Function.update (s.dcCallbacks peer) id none) }
  | .insertTrack id cbs =>
    { s with trackCallbacks := Function.update s.trackCallbacks id (some cbs) }
  | .removeTrackEntry id => { s with trackCallbacks := Function.update s.trackCallbacks id none }
  | .removeTrack id => { s with remoteTracks := Function.update s.remoteTracks id false }
  | .publish id => { s with tracks := Function.update s.tracks id true }
  | .spawnIfRegistered _ => s
  | .computeIfAbsent _ _ => s

/-- What a statement puts in front of the rest of the code. -/
def LockSys.expand (s : LockSys) : Statement → List Statement
  | .computeIfAbsent id cbs => if s.tracks id then [] else mapping id cbs
  | _ => []

/-- The guards after a statement. -/
def guards (held : List Mutex) : Statement → List Mutex
  | .lock m => m :: held
  | .unlock m => held.erase m
  | _ => held

def LockSys.setThread (s : LockSys) (th : Nat) (t : Thread) : LockSys :=
  { s with threads := Function.update s.threads th t }

/-- An idle thread takes up work, or a thread makes its next statement. -/
inductive LockAct where
  | start (th : Nat) (w : Work)
  | step (th : Nat)
  deriving DecidableEq, Repr

/-- One statement of a thread that executes a callback. -/
def stepCallback (s : LockSys) (th : Nat) (t : Thread) (f : CallbackFrame) : LockSys :=
  match f.code with
  | [] => s.setThread th { t with callback := none }
  | st :: rest =>
    if s.enabled st then
      (s.effect th st).setThread th
        { t with callback := some ⟨s.expand st ++ rest, guards f.held st⟩ }
    else s

/-- One statement of a thread outside callbacks.  A dispatch that finds a callback starts it; the
guard stays where it is. -/
def stepPlain (app : App) (s : LockSys) (th : Nat) (t : Thread) : LockSys :=
  match t.code with
  | [] => s
  | .plain st :: rest =>
    if s.enabled st then
      (s.effect th st).setThread th
        ⟨(s.expand st).map .plain ++ rest, guards t.held st, none⟩
    else s
  | .dispatch d :: rest =>
    s.setThread th
      ⟨rest, t.held, (s.lookup d).map fun b => ⟨(app.body b).flatMap (AppCall.code app), []⟩⟩

/-- One action. -/
def lockStep (app : App) (s : LockSys) : LockAct → LockSys
  | .start th w =>
    if s.threads th = .idle then s.setThread th ⟨w.code app, [], none⟩ else s
  | .step th =>
    match (s.threads th).callback with
    | some f => stepCallback s th (s.threads th) f
    | none => stepPlain app s th (s.threads th)

/-! ## 3. The property and the condition -/

/-- The mutex a thread asks for with its next statement. -/
def LockSys.Waits (s : LockSys) (th : Nat) (m : Mutex) : Prop :=
  match (s.threads th).callback with
  | some f => ∃ rest, f.code = .lock m :: rest
  | none => ∃ rest, (s.threads th).code = .plain (.lock m) :: rest

def LockSys.Owns (s : LockSys) (th : Nat) (m : Mutex) : Prop := s.owner m = some th

/-- **No callback under the registry lock, and no cycle of waits** (of any length: one thread
waiting for itself included). -/
structure LockSafe (s : LockSys) : Prop where
  unlocked : ∀ th m, m.isRegistry = true → (s.threads th).callback ≠ none →
    m ∉ (s.threads th).held
  acyclic : ∀ th, ¬ Relation.TransGen (WaitFor s.Waits s.Owns) th th

/-- **The condition on a step**: a dispatch finds no callback. -/
def FindsNoCallback (s : LockSys) : LockAct → Prop
  | .start _ _ => True
  | .step th =>
    ∀ d rest, (s.threads th).callback = none → (s.threads th).code = .dispatch d :: rest →
      s.lookup d = none

/-! ## 4. Lock discipline -/

/-- Statements that touch no mutex and run nothing. -/
def Statement.quiet : Statement → Bool
  | .lock _ => false
  | .unlock _ => false
  | .computeIfAbsent _ _ => false
  | _ => true

/-- **Code that can be run with these guards held**: it takes mutexes in increasing rank, releases
only what it holds, dispatches only under the registry's guard, and ends with nothing held. -/
inductive Disciplined : List Mutex → List PollerStatement → Prop
  | nil : Disciplined [] []
  | lock {held m rest} (hrank : ∀ h ∈ held, h.rank < m.rank) (h : Disciplined (m :: held) rest) :
      Disciplined held (.plain (.lock m) :: rest)
  | unlock {held m rest} (hm : m ∈ held) (h : Disciplined (held.erase m) rest) :
      Disciplined held (.plain (.unlock m) :: rest)
  | quiet {held st rest} (hst : st.quiet = true) (h : Disciplined held rest) :
      Disciplined held (.plain st :: rest)
  | compute {held id cbs rest} (habsent : Disciplined held ((mapping id cbs).map .plain ++ rest))
      (h : Disciplined held rest) : Disciplined held (.plain (.computeIfAbsent id cbs) :: rest)
  | dispatch {held d rest} (hd : d.mutex ∈ held) (h : Disciplined held rest) :
      Disciplined held (.dispatch d :: rest)

section Inversion

variable {held : List Mutex} {rest : List PollerStatement}

theorem Disciplined.of_dispatch {d : Dispatch} (h : Disciplined held (.dispatch d :: rest)) :
    d.mutex ∈ held ∧ Disciplined held rest := by
  cases h with
  | dispatch hd h => exact ⟨hd, h⟩

/-- Why a plain statement may come next. -/
theorem Disciplined.of_plain {st : Statement} (h : Disciplined held (.plain st :: rest)) :
    (∃ m, st = .lock m ∧ (∀ h ∈ held, h.rank < m.rank) ∧ Disciplined (m :: held) rest) ∨
    (∃ m, st = .unlock m ∧ m ∈ held ∧ Disciplined (held.erase m) rest) ∨
    (st.quiet = true ∧ Disciplined held rest) ∨
    (∃ id cbs, st = .computeIfAbsent id cbs ∧
      Disciplined held ((mapping id cbs).map .plain ++ rest) ∧ Disciplined held rest) := by
  cases h with
  | @lock _ m _ hrank h => exact Or.inl ⟨m, rfl, hrank, h⟩
  | @unlock _ m _ hm h => exact Or.inr (Or.inl ⟨m, rfl, hm, h⟩)
  | quiet hst h => exact Or.inr (Or.inr (Or.inl ⟨hst, h⟩))
  | @compute _ id cbs _ habsent h => exact Or.inr (Or.inr (Or.inr ⟨id, cbs, rfl, habsent, h⟩))

end Inversion

/-- Taking one mutex, doing something local, releasing it. -/
theorem disciplined_guarded {held : List Mutex} {m : Mutex} {st : Statement}
    {rest : List PollerStatement} (hrank : ∀ h ∈ held, h.rank < m.rank) (hst : st.quiet = true)
    (h : Disciplined held rest) :
    Disciplined held (.plain (.lock m) :: .plain st :: .plain (.unlock m) :: rest) := by
  refine .lock hrank (.quiet hst (.unlock (by simp) ?_))
  simpa using h

/-- **All work of the bridge is disciplined.** -/
theorem work_disciplined (app : App) (w : Work) : Disciplined [] (w.code app) := by
  have hnone : ∀ m : Mutex, ∀ h ∈ ([] : List Mutex), h.rank < m.rank := fun _ h hh => by cases hh
  have hifLet : ∀ d : Dispatch, Disciplined [] (ifLet d) := fun d => by
    refine .lock (hnone _) (.dispatch (by simp) (.unlock (by simp) ?_))
    simpa using Disciplined.nil
  cases w with
  | channelEvent peer id c | trackEvent id c => exact hifLet _
  | channelEnd peer id => exact disciplined_guarded (hnone _) rfl .nil
  | trackEnd id => exact disciplined_guarded (hnone _) rfl (disciplined_guarded (hnone _) rfl .nil)
  | app c =>
    cases c with
    | setDataChannelCallbacks peer id cbs => exact disciplined_guarded (hnone _) rfl .nil
    | register id cbs =>
      have hbin : ∀ m : Mutex, m.rank = 1 →
          ∀ h ∈ [Mutex.bin (app.binOf id)], h.rank < m.rank := by
        intro m hm h hh
        rw [List.mem_singleton.mp hh, hm]
        exact Nat.one_pos
      have hend : Disciplined [.bin (app.binOf id)] [.plain (.unlock (.bin (app.binOf id)))] := by
        refine .unlock (by simp) ?_
        simpa using Disciplined.nil
      refine .lock (hnone _) (.compute ?_ hend)
      -- the native tables are taken one after the other, above the bin
      exact disciplined_guarded (hbin _ rfl) rfl
        (disciplined_guarded (hbin _ rfl) rfl (.quiet rfl hend))

/-! ## 5. Runs without callbacks -/

/-- **The invariant as long as no callback has been dispatched**: no thread is in one, owners and
guards agree, and every thread's remaining code fits the guards it holds. -/
structure CallbackFree (s : LockSys) : Prop where
  none : ∀ th, (s.threads th).callback = none
  owned : Owned s.owner fun th => (s.threads th).held
  fits : ∀ th, Disciplined (s.threads th).held (s.threads th).code

theorem callbackFree_start (dcCallbacks : Nat → UInt16 → Option (DataChannelCallbacks Nat))
    (trackCallbacks : UInt32 → Option (TrackEventCallbacks Nat))
    (remoteTracks tracks : UInt32 → Bool) :
    CallbackFree (.start dcCallbacks trackCallbacks remoteTracks tracks) where
  none := fun _ => rfl
  owned := Owned.nobody
  fits := fun _ => .nil

/-- What a disciplined thread waits for ranks above what it holds. -/
theorem CallbackFree.rank_lt {s : LockSys} (h : CallbackFree s) {th : Nat} {m m' : Mutex}
    (hown : s.Owns th m) (hwait : s.Waits th m') : m.rank < m'.rank := by
  have hheld : m ∈ (s.threads th).held := (h.owned.agree th m).mp hown
  simp only [LockSys.Waits, h.none th] at hwait
  obtain ⟨rest, hcode⟩ := hwait
  have hfits := h.fits th
  rw [hcode] at hfits
  rcases hfits.of_plain with ⟨m₁, heq, hrank, -⟩ | ⟨m₁, heq, -⟩ | ⟨hst, -⟩ | ⟨id, cbs, heq, -⟩
  · cases heq
    exact hrank m hheld
  · cases heq
  · cases hst
  · cases heq

theorem CallbackFree.safe {s : LockSys} (h : CallbackFree s) : LockSafe s where
  unlocked := fun th _ _ hcb => absurd (h.none th) hcb
  acyclic := by
    refine no_wait_cycle Mutex.rank ?_ (fun _ _ _ => h.rank_lt)
    intro th m m' hm hm'
    simp only [LockSys.Waits, h.none th] at hm hm'
    obtain ⟨rest, hcode⟩ := hm
    obtain ⟨rest', hcode'⟩ := hm'
    rw [hcode] at hcode'
    cases hcode'
    rfl

@[simp] theorem effect_threads (s : LockSys) (th : Nat) (st : Statement) :
    (s.effect th st).threads = s.threads := by cases st <;> rfl

/-- A quiet statement leaves owners, guards and code alone. -/
theorem quiet_spec (s : LockSys) (th : Nat) (held : List Mutex) {st : Statement}
    (hst : st.quiet = true) :
    (s.effect th st).owner = s.owner ∧ guards held st = held ∧ s.expand st = [] := by
  cases st <;> first | exact ⟨rfl, rfl, rfl⟩ | cases hst

/-- The guards of all threads after thread `th` got the record `t`. -/
theorem setThread_held (s : LockSys) (th : Nat) (t : Thread) :
    (fun u => ((s.setThread th t).threads u).held)
      = Function.update (fun u => (s.threads u).held) th t.held := by
  funext u
  by_cases hu : u = th
  · subst hu
    simp [LockSys.setThread]
  · simp [LockSys.setThread, hu]

/-- Changing one thread: what is left to show is about that thread and the owners. -/
theorem CallbackFree.setThread {s s' : LockSys} (h : CallbackFree s) (th : Nat) {t : Thread}
    (hthreads : s'.threads = s.threads) (hcb : t.callback = Option.none)
    (howned : Owned s'.owner (Function.update (fun u => (s.threads u).held) th t.held))
    (hfits : Disciplined t.held t.code) : CallbackFree (s'.setThread th t) where
  none := by
    intro u
    by_cases hu : u = th
    · subst hu
      simpa [LockSys.setThread] using hcb
    · simpa [LockSys.setThread, hu, hthreads] using h.none u
  owned := by
    rw [setThread_held, hthreads]
    exact howned
  fits := by
    intro u
    by_cases hu : u = th
    · subst hu
      simpa [LockSys.setThread] using hfits
    · simpa [LockSys.setThread, hu, hthreads] using h.fits u

/-- A plain statement keeps the invariant: by cases on why the code was disciplined. -/
theorem CallbackFree.plain {s : LockSys} (h : CallbackFree s) {th : Nat} {st : Statement}
    {rest : List PollerStatement} (hcode : (s.threads th).code = .plain st :: rest)
    (hen : s.enabled st = true) :
    CallbackFree ((s.effect th st).setThread th
      ⟨(s.expand st).map .plain ++ rest, guards (s.threads th).held st, Option.none⟩) := by
  have hfits := h.fits th
  rw [hcode] at hfits
  have hsame : Owned s.owner
      (Function.update (fun u => (s.threads u).held) th (s.threads th).held) := by
    rw [Function.update_eq_self]
    exact h.owned
  rcases hfits.of_plain with ⟨m, rfl, -, hrest⟩ | ⟨m, rfl, hm, hrest⟩ | ⟨hst, hrest⟩ |
      ⟨id, cbs, rfl, habsent, hrest⟩
  · have hfree : s.owner m = Option.none := by simpa [LockSys.enabled] using hen
    exact h.setThread th rfl rfl (h.owned.acquire hfree th) hrest
  · exact h.setThread th rfl rfl (h.owned.release hm) hrest
  · obtain ⟨howner, hguards, hexpand⟩ := quiet_spec s th (s.threads th).held hst
    rw [hguards, hexpand]
    refine h.setThread th (effect_threads s th st) rfl ?_ hrest
    rw [howner]
    exact hsame
  · refine h.setThread th rfl rfl hsame ?_
    cases htr : s.tracks id with
    | true => simpa [LockSys.expand, htr, guards] using hrest
    | false => simpa [LockSys.expand, htr, guards] using habsent

/-- **Steps that dispatch no callback keep the invariant.** -/
theorem lockStep_callbackFree (app : App) (s : LockSys) (a : LockAct) (hok : FindsNoCallback s a)
    (h : CallbackFree s) : CallbackFree (lockStep app s a) := by
  cases a with
  | start th w =>
    simp only [lockStep]
    split
    · rename_i hidle
      refine h.setThread th rfl rfl ?_ (work_disciplined app w)
      have hheld : ([] : List Mutex) = (s.threads th).held := by rw [hidle]; rfl
      rw [hheld, Function.update_eq_self]
      exact h.owned
    · exact h
  | step th =>
    simp only [lockStep, h.none th, stepPlain]
    split
    · exact h
    · rename_i st rest hcode
      split
      · rename_i hen
        exact h.plain hcode hen
      · exact h
    · rename_i d rest hcode
      have hnone := hok d rest (h.none th) hcode
      have hfits := h.fits th
      rw [hcode] at hfits
      refine h.setThread th rfl (by simp [hnone]) ?_ hfits.of_dispatch.2
      rw [Function.update_eq_self]
      exact h.owned

/-- **A callback that is dispatched runs under the registry lock.** -/
theorem not_safe_of_callback (app : App) (s : LockSys) (a : LockAct) (h : CallbackFree s)
    (hfound : ¬ FindsNoCallback s a) : ¬ LockSafe (lockStep app s a) := by
  cases a with
  | start th w => exact absurd trivial hfound
  | step th =>
    simp only [FindsNoCallback, not_forall] at hfound
    obtain ⟨d, rest, -, hcode, hsome⟩ := hfound
    obtain ⟨b, hb⟩ := Option.ne_none_iff_exists'.mp hsome
    have hheld : d.mutex ∈ (s.threads th).held := by
      have hfits := h.fits th
      rw [hcode] at hfits
      exact hfits.of_dispatch.1
    intro hsafe
    have hstep : lockStep app s (.step th) = s.setThread th
        ⟨rest, (s.threads th).held, some ⟨(app.body b).flatMap (AppCall.code app), []⟩⟩ := by
      simp [lockStep, h.none th, stepPlain, hcode, hb]
    rw [hstep] at hsafe
    have hreg : d.mutex.isRegistry = true := by cases d <;> rfl
    refine hsafe.unlocked th d.mutex hreg ?_ ?_ <;> simp [LockSys.setThread, hheld]

/-- **Callbacks and the registry lock.**  For every application, every initial content of the
tables and every schedule of any number of pollers and application threads: no callback runs under
the registry lock and no cycle of waits arises, in any state of the run, if and only if no
dispatch of the run finds a callback. -/
theorem registry_lock_safe_iff (app : App)
    (dcCallbacks : Nat → UInt16 → Option (DataChannelCallbacks Nat))
    (trackCallbacks : UInt32 → Option (TrackEventCallbacks Nat))
    (remoteTracks tracks : UInt32 → Bool) (as : List LockAct) :
    Always LockSafe (lockStep app) (.start dcCallbacks trackCallbacks remoteTracks tracks) as ↔
      Heeds FindsNoCallback (lockStep app)
        (.start dcCallbacks trackCallbacks remoteTracks tracks) as := by
  have hstart := callbackFree_start dcCallbacks trackCallbacks remoteTracks tracks
  constructor
  · exact heeds_of_always (lockStep_callbackFree app) (not_safe_of_callback app) as _ hstart
  · intro hheeds
    exact (always_of_heeds (lockStep_callbackFree app) as _ hstart hheeds).mono
      fun _ => CallbackFree.safe

/-- An application whose callback 0 sets the callbacks of channel 1, and whose callback 1 registers
track 2; all tracks fall into one bin. -/
def registeringApp : App where
  body := fun b => if b = 0 then [.setDataChannelCallbacks 0 1 ⟨none, none, none⟩]
    else [.register 2 ⟨none, none⟩]
  binOf := fun _ => 0

/-- Tables in which both callbacks are registered. -/
def registeredTables : LockSys :=
  .start (fun _ _ => some ⟨none, some 0, none⟩) (fun _ => some ⟨none, some 1⟩) (fun _ => true)
    fun _ => false

/-- Two runs into a deadlock.  A channel's `on_open` sets callbacks and waits for the mutex its own
thread holds.  And a track's `on_open` registers another track while an application thread is inside
`computeIfAbsent`: one holds the registry and waits for the bin, the other the reverse. -/
theorem callbacks_deadlock :
    ¬ Always LockSafe (lockStep registeringApp) registeredTables
        [.start 0 (.channelEvent 0 1 .onOpen), .step 0, .step 0] ∧
      ¬ Always LockSafe (lockStep registeringApp) registeredTables
        [.start 0 (.trackEvent 1 (.onOpen 7 [])), .start 1 (.app (.register 3 ⟨none, none⟩)),
          .step 0, .step 0, .step 1, .step 1] := by
  constructor
  · intro h
    refine (h.last _ _).acyclic 0 (.single ⟨.dcCallbacks 0, ⟨_, rfl⟩, rfl⟩)
  · intro h
    refine (h.last _ _).acyclic 0 (.tail (.single ?_) (b := 1) ?_)
    · exact ⟨.bin 0, ⟨_, rfl⟩, rfl⟩
    · exact ⟨.trackCallbacks, ⟨_, rfl⟩, rfl⟩

end WebrtcBridge.Ffi
