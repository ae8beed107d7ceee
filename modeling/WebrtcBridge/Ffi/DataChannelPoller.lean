/-
# The data channel poller

`spawn_data_channel_poller` runs one task per channel object on `PC_RUNTIME`:

    let mut opened = false;
    loop { match dc.poll().await { OnOpen | OnMessage | OnClose | None | _ } }
    callbacks.lock().unwrap().remove(&id);

`dc.poll()` is an mpsc receive, so `None` means that the queue is empty and every sender is
gone.  The loop is a reactor (`pollerReactor`) whose operations are the callback calls, the 5 ms
sleep and the final removal of the id's registry entry; the last one ends the task.

The system around it has four kinds of action: the engine sends an event, the engine drops its
sender, the application registers callbacks for some id, and the poller takes a step.  A call
looks its callback up at the moment it is made, so every performed operation is logged together
with the callback it found.

* `channel_delivery`: what the application is told, for every schedule.
* `channel_poller_ends_iff`: when the task ends.  It does NOT end on a channel that is never
  opened: there `None` means "sleep and poll again", for ever.
-/
import Mathlib.Data.List.TakeWhile
import WebrtcBridge.Lib.Reactor

namespace WebrtcBridge.Ffi

open Lib

/-! ## 1. Events, callbacks and the loop body -/

/-- `RTCDataChannelMessage`. -/
structure DataChannelMessage where
  isString : Bool
  data : List UInt8
  deriving DecidableEq, Repr

/-- `DataChannelEvent`. -/
inductive DataChannelEvent where
  | onOpen
  | onError
  | onClosing
  | onClose
  | onBufferedAmountLow
  | onBufferedAmountHigh
  | onMessage (msg : DataChannelMessage)
  deriving DecidableEq, Repr

/-- `DataChannelCallbacks`: three optional function pointers. -/
structure DataChannelCallbacks (F : Type) where
  onMessage : Option F
  onOpen : Option F
  onClose : Option F
  deriving DecidableEq, Repr

/-- A call into the application, without its target. -/
inductive ChannelCall where
  | onOpen
  | onMessage (data : List UInt8)
  | onClose
  deriving DecidableEq, Repr

/-- What the task does between two polls.  A `call` looks the callback up and calls it if it is
there; `removeEntry` is the statement after the loop. -/
inductive PollerOp where
  | call (c : ChannelCall)
  | sleep
  | removeEntry
  deriving DecidableEq, Repr

/-- One turn of the loop: the new value of `opened` and what is done. -/
def pollerReact (opened : Bool) : Option DataChannelEvent → Bool × List PollerOp
  | some .onOpen => (true, [.call .onOpen])
  | some (.onMessage msg) =>
    if opened then (true, [.call (.onMessage msg.data)])
    else (true, [.call .onOpen, .call (.onMessage msg.data)])
  | some .onClose => (opened, [.call .onClose, .removeEntry])
  | none => if opened then (opened, [.call .onClose, .removeEntry]) else (opened, [.sleep])
  -- OnError / OnClosing / OnBufferedAmountLow / OnBufferedAmountHigh: keep polling
  | some .onError => (opened, [])
  | some .onClosing => (opened, [])
  | some .onBufferedAmountLow => (opened, [])
  | some .onBufferedAmountHigh => (opened, [])

/-- The operation that ends the task. -/
def PollerOp.ends : PollerOp → Bool
  | .removeEntry => true
  | _ => false

/-- Every reaction without an ending operation, or with it in the last place. -/
theorem pollerReact_shape (opened : Bool) (r : Option DataChannelEvent) :
    (∀ o ∈ (pollerReact opened r).2, o.ends = false) ∨
      (pollerReact opened r).2 = [.call .onClose, .removeEntry] := by
  cases opened <;> rcases r with - | (- | - | - | - | - | - | msg) <;>
    simp [pollerReact, PollerOp.ends]

/-- **The loop of `spawn_data_channel_poller`.** -/
def pollerReactor : Reactor Bool DataChannelEvent PollerOp where
  react := pollerReact
  halts := PollerOp.ends
  halts_last := by
    intro s r os o os' heq ho
    rcases pollerReact_shape s r with hnone | htwo
    · have := hnone o (by simp [heq])
      rw [ho] at this
      cases this
    · rw [htwo] at heq
      match os, heq with
      | [], heq =>
        simp only [List.nil_append, List.cons.injEq] at heq
        rw [← heq.1] at ho
        cases ho
      | [_], heq =>
        simp only [List.cons_append, List.nil_append, List.cons.injEq] at heq
        exact heq.2.2.symm
      | _ :: _ :: os, heq => simp at heq
  none_idle := by
    intro s hs
    cases s <;> rfl

theorem pollerReact_length (opened : Bool) (r : Option DataChannelEvent) :
    (pollerReactor.react opened r).2.length ≤ 2 := by
  cases opened <;> rcases r with - | (- | - | - | - | - | - | msg) <;>
    simp [pollerReactor, pollerReact]

/-! ## 2. The system around one poller -/

/-- The poller of one channel with its queue, the peer's callback registry (`dc_callbacks`), the
events sent so far and the operations performed so far, each with the callback it found. -/
structure ChannelSys (F : Type) where
  task : Loop Bool PollerOp
  inbox : Inbox DataChannelEvent
  callbacks : UInt16 → Option (DataChannelCallbacks F)
  sent : List DataChannelEvent
  log : List (PollerOp × Option F)

/-- The poller has just been spawned, with these callbacks registered. -/
def ChannelSys.start {F : Type} (callbacks : UInt16 → Option (DataChannelCallbacks F)) :
    ChannelSys F :=
  ⟨Loop.start false, ⟨[], false⟩, callbacks, [], []⟩

/-- What can happen.  The queue is bounded in the engine, which drops what does not fit: `push`
is an event that was accepted. -/
inductive ChannelAct (F : Type) where
  | push (e : DataChannelEvent)
  | dropSender
  /-- `webrtc_ffi_data_channel_set_callbacks` -/
  | setCallbacks (id : UInt16) (cbs : DataChannelCallbacks F)
  | poller

variable {F : Type}

/-- `callbacks.lock().unwrap().get(&id).and_then(|c| c.on_..)`. -/
def callbackFor (entry : Option (DataChannelCallbacks F)) : PollerOp → Option F
  | .call .onOpen => entry.bind (·.onOpen)
  | .call (.onMessage _) => entry.bind (·.onMessage)
  | .call .onClose => entry.bind (·.onClose)
  | .sleep => none
  | .removeEntry => none

/-- What an operation does to the registry. -/
def registryAfter (id : UInt16) (callbacks : UInt16 → Option (DataChannelCallbacks F)) :
    Option PollerOp → UInt16 → Option (DataChannelCallbacks F)
  | some .removeEntry => Function.update callbacks id none
  | _ => callbacks

/-- One action on the channel with this `id`. -/
def channelStep (id : UInt16) (s : ChannelSys F) : ChannelAct F → ChannelSys F
  | .push e => if s.inbox.gone then s else { s with inbox := s.inbox.push e, sent := s.sent ++ [e] }
  | .dropSender => { s with inbox := s.inbox.drop }
  | .setCallbacks id' cbs => { s with callbacks := Function.update s.callbacks id' (some cbs) }
  | .poller =>
    let (task, inbox, op) := pollerReactor.advance s.task s.inbox
    { s with
      task := task
      inbox := inbox
      callbacks := registryAfter id s.callbacks op
      log := s.log ++ op.toList.map fun o => (o, callbackFor (s.callbacks id) o) }

/-- Which actions are the poller's. -/
def ChannelAct.isPoller : ChannelAct F → Bool
  | .poller => true
  | _ => false

/-- The operations performed so far. -/
def ChannelSys.performed (s : ChannelSys F) : List PollerOp := s.log.map Prod.fst

/-- The call an entry of the log stands for, and the callback that received it: none if no callback
was found. -/
def callMade : PollerOp × Option F → Option (ChannelCall × F)
  | (.call c, some f) => some (c, f)
  | _ => none

/-- The calls the application received, in order, each with the callback that received it. -/
def ChannelSys.calls (s : ChannelSys F) : List (ChannelCall × F) := s.log.filterMap callMade

/-- **The history of the poller along a run.** -/
def ChannelSys.Hist (s : ChannelSys F) : Prop :=
  ∃ done k, pollerReactor.History false s.sent s.performed s.task s.inbox done k

theorem hist_start (callbacks : UInt16 → Option (DataChannelCallbacks F)) :
    (ChannelSys.start callbacks).Hist := ⟨[], 0, Reactor.History.start _ false ⟨[], false⟩⟩

theorem performed_poller (id : UInt16) (s : ChannelSys F) :
    (channelStep id s .poller).performed
      = s.performed ++ (pollerReactor.advance s.task s.inbox).2.2.toList := by
  simp [channelStep, ChannelSys.performed, Function.comp_def]

theorem channelStep_hist (id : UInt16) (s : ChannelSys F) (a : ChannelAct F) (h : s.Hist) :
    (channelStep id s a).Hist := by
  obtain ⟨done, k, hist⟩ := h
  cases a with
  | push e =>
    cases hg : s.inbox.gone with
    | true => simpa [channelStep, hg] using ⟨done, k, hist⟩
    | false =>
      have hstep : channelStep id s (.push e)
          = { s with inbox := s.inbox.push e, sent := s.sent ++ [e] } := by
        simp [channelStep, hg]
      rw [hstep]
      exact ⟨done, k, hist.push hg e⟩
  | dropSender => exact ⟨done, k, hist.drop⟩
  | setCallbacks id' cbs => exact ⟨done, k, hist⟩
  | poller =>
    obtain ⟨done', k', hist'⟩ := hist.advance
    refine ⟨done', k', ?_⟩
    rw [performed_poller]
    exact hist'

/-! ## 3. What the reactions to a sequence say -/

/-- An event that opens the channel for the poller. -/
def DataChannelEvent.opens : DataChannelEvent → Bool
  | .onOpen => true
  | .onMessage _ => true
  | _ => false

/-- The call an `OnMessage` stands for. -/
def DataChannelEvent.message? : DataChannelEvent → Option ChannelCall
  | .onMessage msg => some (.onMessage msg.data)
  | _ => none

/-- **The order the engine's driver produces**: `OnOpen` at most once, and not after an
`OnMessage`. -/
def EngineOrder (evs : List DataChannelEvent) : Prop :=
  evs.Pairwise fun a b => b = .onOpen → a.opens = false

instance (evs : List DataChannelEvent) : Decidable (EngineOrder evs) :=
  inferInstanceAs (Decidable (List.Pairwise _ _))

/-- The events before the first `OnClose`. -/
def beforeClose (evs : List DataChannelEvent) : List DataChannelEvent :=
  evs.takeWhile (· ≠ .onClose)

/-- The part of a sequence that is about opening and messages. -/
def openAndMessages (evs : List DataChannelEvent) : List ChannelCall :=
  (if evs.any (·.opens) then [.onOpen] else []) ++ evs.filterMap (·.message?)

/-- **What the application should be told**: open once if anything opened the channel, then the
messages before the close, then close if there was an `OnClose` or the queue, whose senders may be
`gone`, ended after opening. -/
def told (gone : Bool) (evs : List DataChannelEvent) : List ChannelCall :=
  openAndMessages (beforeClose evs) ++
    (if evs.any (· = .onClose) || (gone && (beforeClose evs).any (·.opens)) then [.onClose] else [])

/-- What it should be told of a finished sequence. -/
def deliveries (evs : List DataChannelEvent) : List ChannelCall := told true evs

/-- The calls among some operations. -/
def PollerOp.call? : PollerOp → Option ChannelCall
  | .call c => some c
  | _ => none

/-- The calls of the reactions to `rs`, starting with this value of `opened`. -/
def callsOn (opened : Bool) (rs : List (Option DataChannelEvent)) : List ChannelCall :=
  (pollerReactor.ops opened rs).filterMap PollerOp.call?

theorem callsOn_append (opened : Bool) (rs rs' : List (Option DataChannelEvent)) :
    callsOn opened (rs ++ rs')
      = callsOn opened rs ++ callsOn (pollerReactor.after opened rs) rs' := by
  simp [callsOn, Reactor.ops_append]

/-- No close, no end. -/
theorem ops_no_close : ∀ (es : List DataChannelEvent) (opened : Bool), (.onClose ∉ es) →
    (pollerReactor.ops opened (es.map some)).any pollerReactor.halts = false ∧
      pollerReactor.after opened (es.map some) = (opened || es.any (·.opens))
  | [], opened, _ => by simp [Reactor.ops, Reactor.after]
  | e :: es, opened, h => by
    have hne : e ≠ .onClose := fun he => h (by simp [he])
    obtain ⟨ih1, ih2⟩ := ops_no_close es (pollerReact opened (some e)).1
      (fun hes => h (List.mem_cons_of_mem _ hes))
    have hone : (pollerReact opened (some e)).2.any PollerOp.ends = false ∧
        (pollerReact opened (some e)).1 = (opened || e.opens) := by
      cases e <;> cases opened <;>
        simp_all [pollerReact, PollerOp.ends, DataChannelEvent.opens]
    refine ⟨?_, ?_⟩
    · rw [List.map_cons, Reactor.ops, List.any_append, Bool.or_eq_false_iff]
      exact ⟨hone.1, ih1⟩
    · have hcons : pollerReactor.after opened ((e :: es).map some)
          = pollerReactor.after (pollerReact opened (some e)).1 (es.map some) := rfl
      rw [hcons, ih2, hone.2, List.any_cons, Bool.or_assoc]

/-- The reactions before a close, from an open channel: one call per message. -/
theorem callsOn_opened : ∀ (es : List DataChannelEvent), (.onClose ∉ es) → (.onOpen ∉ es) →
    callsOn true (es.map some) = es.filterMap (·.message?)
  | [], _, _ => rfl
  | e :: es, hc, ho => by
    have ih := callsOn_opened es (fun h => hc (List.mem_cons_of_mem _ h))
      (fun h => ho (List.mem_cons_of_mem _ h))
    have hcons : callsOn true ((e :: es).map some)
        = (pollerReact true (some e)).2.filterMap PollerOp.call?
            ++ callsOn (pollerReact true (some e)).1 (es.map some) := by
      simp [callsOn, Reactor.ops, pollerReactor]
    rw [hcons]
    cases e <;> simp_all [pollerReact, PollerOp.call?, DataChannelEvent.message?]

/-- The reactions before a close, from the start: open once, then one call per message. -/
theorem callsOn_beforeClose : ∀ (es : List DataChannelEvent), (.onClose ∉ es) → EngineOrder es →
    callsOn false (es.map some) = openAndMessages es
  | [], _, _ => rfl
  | e :: es, hc, hord => by
    have hc' : .onClose ∉ es := fun h => hc (List.mem_cons_of_mem _ h)
    obtain ⟨hhead, htail⟩ := List.pairwise_cons.mp hord
    have hcons : callsOn false ((e :: es).map some)
        = (pollerReact false (some e)).2.filterMap PollerOp.call?
            ++ callsOn (pollerReact false (some e)).1 (es.map some) := by
      simp [callsOn, Reactor.ops, pollerReactor]
    cases hopens : e.opens with
    | true =>
      -- from here on the channel is open and no `OnOpen` follows
      have ho : .onOpen ∉ es := fun h => by
        have := hhead _ h rfl
        rw [hopens] at this
        cases this
      have hrest := callsOn_opened es hc' ho
      rw [hcons]
      cases e <;> simp_all [pollerReact, PollerOp.call?, DataChannelEvent.message?,
        DataChannelEvent.opens, openAndMessages]
    | false =>
      have ih := callsOn_beforeClose es hc' htail
      rw [hcons]
      cases e <;> simp_all [pollerReact, DataChannelEvent.message?,
        DataChannelEvent.opens, openAndMessages]

/-- Sleeping calls nobody. -/
theorem callsOn_sleep : ∀ k, callsOn false (List.replicate k none) = []
  | 0 => rfl
  | k + 1 => by
    have hcons : callsOn false (List.replicate (k + 1) none)
        = callsOn false (List.replicate k none) := rfl
    rw [hcons, callsOn_sleep k]

theorem beforeClose_append {es : List DataChannelEvent} (h : .onClose ∉ es)
    (rest : List DataChannelEvent) : beforeClose (es ++ rest) = es ++ beforeClose rest :=
  List.takeWhile_append_of_pos fun e he => by
    simpa using fun hc : e = .onClose => h (hc ▸ he)

theorem beforeClose_eq {es : List DataChannelEvent} (h : .onClose ∉ es) : beforeClose es = es := by
  simpa [beforeClose] using beforeClose_append h []

theorem message?_of_not_opens {e : DataChannelEvent} (h : e.opens = false) :
    e.message? = none := by
  cases e <;> simp_all [DataChannelEvent.opens, DataChannelEvent.message?]

theorem openAndMessages_eq_nil {es : List DataChannelEvent} (h : es.any (·.opens) = false) :
    openAndMessages es = [] := by
  have hnil : es.filterMap (·.message?) = [] := by
    rw [List.filterMap_eq_nil_iff]
    intro e he
    exact message?_of_not_opens (by simpa using (List.any_eq_false.mp h) e he)
  simp [openAndMessages, h, hnil]

/-- A sequence that neither opens nor closes the channel is not reported at all. -/
theorem deliveries_eq_nil {evs : List DataChannelEvent}
    (h : ¬ (.onClose ∈ evs ∨ (beforeClose evs).any (·.opens) = true)) : deliveries evs = [] := by
  rw [not_or, Bool.not_eq_true] at h
  obtain ⟨hc, ho⟩ := h
  have hclose : evs.any (· = .onClose) = false := by
    rw [List.any_eq_false]
    intro e he heq
    exact hc (of_decide_eq_true heq ▸ he)
  simp [deliveries, told, openAndMessages_eq_nil ho, ho, hclose]

/-- What was said of a first part is the first part of what is said of the whole. -/
theorem openAndMessages_le (es rest : List DataChannelEvent) :
    openAndMessages es <+: openAndMessages (es ++ rest) := by
  cases ho : es.any (·.opens) with
  | true =>
    refine ⟨rest.filterMap (·.message?), ?_⟩
    simp [openAndMessages, ho]
  | false =>
    rw [openAndMessages_eq_nil ho]
    exact List.nil_prefix

/-! ## 4. What the poller calls -/

section History

variable {evs done : List DataChannelEvent} {performed : List PollerOp} {t : Loop Bool PollerOp}
  {q : Inbox DataChannelEvent} {k : Nat}

/-- A received `OnClose` is the last thing received. -/
theorem onClose_last (h : pollerReactor.History false evs performed t q done k)
    (hc : .onClose ∈ done) : ∃ pre, .onClose ∉ pre ∧ done = pre ++ [.onClose] ∧ k = 0 := by
  obtain ⟨pre, post, hdone, hpre⟩ := List.eq_append_cons_of_mem hc
  rcases List.eq_nil_or_concat (post.map some ++ List.replicate k none) with hnil | ⟨rs, r, hrs⟩
  · obtain ⟨hpost, hk⟩ := List.append_eq_nil_iff.mp hnil
    refine ⟨pre, hpre, ?_, by simpa using hk⟩
    rw [hdone, List.map_eq_nil_iff.mp hpost]
  · -- otherwise an ending reaction would lie before the last one
    rw [List.concat_eq_append] at hrs
    have hrec : Reactor.received done k = (pre.map some ++ some .onClose :: rs) ++ [r] := by
      simp only [Reactor.received, hdone, List.map_append, List.map_cons, List.append_assoc,
        List.cons_append, hrs]
    have hearly := h.earlier _ r hrec
    rw [Reactor.ops_append, List.any_append, Bool.or_eq_false_iff] at hearly
    have hcontra := hearly.2
    simp [Reactor.ops, pollerReactor, pollerReact, PollerOp.ends] at hcontra

/-- **What the reactions so far say, against what should be said of the whole sequence**: a
first part of it, and all of it once an ending operation is among them. -/
theorem callsOn_received (h : pollerReactor.History false evs performed t q done k)
    (hord : EngineOrder evs) :
    callsOn false (Reactor.received done k) <+: deliveries evs ∧
      ((pollerReactor.ops false (Reactor.received done k)).any pollerReactor.halts = true →
        callsOn false (Reactor.received done k) = deliveries evs) := by
  have hsub : ∀ es, es <+: evs → EngineOrder es := fun es hes =>
    List.Pairwise.sublist hes.sublist hord
  by_cases hc : .onClose ∈ done
  · -- ended by `OnClose`
    obtain ⟨pre, hpre, rfl, rfl⟩ := onClose_last h hc
    have hevs : evs = pre ++ .onClose :: q.queue := by simpa using h.sent
    have hcalls : callsOn false (Reactor.received (pre ++ [.onClose]) 0) = deliveries evs := by
      have hrec : Reactor.received (pre ++ [DataChannelEvent.onClose]) 0
          = pre.map some ++ [some .onClose] := by simp [Reactor.received]
      rw [hrec, callsOn_append, callsOn_beforeClose pre hpre (hsub pre ⟨_, hevs.symm⟩), hevs,
        deliveries, told, beforeClose_append hpre]
      simp [beforeClose, callsOn, Reactor.ops, pollerReactor, pollerReact, PollerOp.call?]
    rw [hcalls]
    exact ⟨List.prefix_refl _, fun _ => rfl⟩
  · have hdone := callsOn_beforeClose done hc (hsub done ⟨_, h.sent.symm⟩)
    obtain ⟨hnoend, hafter⟩ := ops_no_close done false hc
    rw [Bool.false_or] at hafter
    rcases Nat.eq_zero_or_pos k with rfl | hk
    · -- still receiving
      have hrec : Reactor.received done 0 = done.map some := by simp [Reactor.received]
      rw [hrec, hdone, hnoend, deliveries, told, h.sent, beforeClose_append hc]
      exact ⟨(openAndMessages_le done _).trans (List.prefix_append _ _), fun hf => by cases hf⟩
    · -- the queue has ended
      obtain ⟨hgone, hq⟩ := h.nones hk
      have hevs : evs = done := by simpa [hq] using h.sent
      obtain ⟨j, rfl⟩ : ∃ j, k = j + 1 := ⟨k - 1, by omega⟩
      rw [Reactor.received, callsOn_append, hdone, Reactor.ops_append, List.any_append, hnoend,
        Bool.false_or, hafter, deliveries, told, hevs, beforeClose_eq hc]
      cases ho : done.any (·.opens) with
      | true =>
        -- one `None` closes an open channel, so there was only one
        have hj : j = 0 := by
          rcases Nat.eq_zero_or_pos j with hj | hj
          · exact hj
          · exfalso
            obtain ⟨i, rfl⟩ : ∃ i, j = i + 1 := ⟨j - 1, by omega⟩
            have hrec : Reactor.received done (i + 1 + 1)
                = (done.map some ++ List.replicate (i + 1) none) ++ [none] := by
              rw [Reactor.received, List.replicate_succ', List.append_assoc]
            have hearly := h.earlier _ _ hrec
            rw [Reactor.ops_append, hafter, ho] at hearly
            simp [List.replicate_succ, Reactor.ops, pollerReactor, pollerReact,
              PollerOp.ends] at hearly
        subst hj
        have hlast : callsOn true (List.replicate (0 + 1) none) = [.onClose] := rfl
        rw [hlast]
        exact ⟨by simp, fun _ => by simp⟩
      | false =>
        have hidle := pollerReactor.replicate_none_idle (s := false) rfl (j + 1)
        rw [callsOn_sleep, hidle.1]
        exact ⟨by simp, fun hf => by cases hf⟩

/-- **The calls due by the operations performed**: a first part of what should be said, and all
of it once the task has ended. -/
theorem performed_calls (h : pollerReactor.History false evs performed t q done k)
    (hord : EngineOrder evs) :
    performed.filterMap PollerOp.call? <+: deliveries evs ∧
      (t.halted = true → performed.filterMap PollerOp.call? = deliveries evs) := by
  obtain ⟨hle, heq⟩ := callsOn_received h hord
  refine ⟨(h.performed_le.filterMap PollerOp.call?).trans hle, ?_⟩
  intro hh
  have hperf := h.performed_eq hh
  have hends := h.halted
  rw [hh, hperf] at hends
  rw [hperf]
  exact heq hends.symm

end History

/-! ## 5. Whether the task ends, and where it rests -/

/-- **What makes the task end**: an `OnClose`, or the end of the queue after something opened the
channel. -/
theorem doomed_iff (gone : Bool) (evs : List DataChannelEvent) :
    pollerReactor.doomed gone false evs = true ↔
      .onClose ∈ evs ∨ (gone = true ∧ (beforeClose evs).any (·.opens) = true) := by
  by_cases hc : .onClose ∈ evs
  · obtain ⟨pre, post, hevs, -⟩ := List.eq_append_cons_of_mem hc
    have hends : (pollerReactor.ops false (evs.map some)).any pollerReactor.halts = true := by
      rw [hevs, List.map_append, Reactor.ops_append, List.any_append]
      simp [Reactor.ops, pollerReactor, pollerReact, PollerOp.ends]
    simp only [Reactor.doomed, hends, hc, Bool.true_or, true_or]
  · obtain ⟨hnoend, hafter⟩ := ops_no_close evs false hc
    rw [Bool.false_or] at hafter
    have hnone : ∀ opened, (pollerReactor.react opened none).2.any pollerReactor.halts
        = opened := by
      intro opened
      cases opened <;> rfl
    rw [Reactor.doomed, hnoend, hafter, hnone, beforeClose_eq hc, Bool.false_or,
      Bool.and_eq_true]
    simp only [hc, false_or]

/-- Nothing more is said of a sequence that is closed, or whose queue has ended. -/
theorem told_eq_deliveries {gone : Bool} {evs : List DataChannelEvent}
    (h : .onClose ∈ evs ∨ gone = true) : told gone evs = deliveries evs := by
  rcases h with hc | rfl
  · have hclose : evs.any (· = .onClose) = true := List.any_eq_true.mpr ⟨_, hc, by simp⟩
    simp only [told, deliveries, hclose, Bool.true_or]
  · rfl

/-- **At rest the poller has made every call** that is due on account of what was sent. -/
theorem rested_calls {evs done : List DataChannelEvent} {performed : List PollerOp}
    {t : Loop Bool PollerOp} {q : Inbox DataChannelEvent} {k : Nat}
    (h : pollerReactor.History false evs performed t q done k) (hord : EngineOrder evs)
    (hr : pollerReactor.Rested t q) : performed.filterMap PollerOp.call? = told q.gone evs := by
  cases hh : t.halted with
  | true =>
    rw [(performed_calls h hord).2 hh, told_eq_deliveries]
    exact ((doomed_iff _ _).mp (h.willHalt_iff.mp (Or.inl hh))).imp_right And.left
  | false =>
    have hidle : ∀ opened, (pollerReactor.react opened none).2.any pollerReactor.halts = false →
        (pollerReactor.react opened none).2.filterMap PollerOp.call? = [] := by
      intro opened hopened
      cases opened with
      | true => cases hopened
      | false => rfl
    obtain ⟨hdoomed, hcalls⟩ := h.rested PollerOp.call? hidle hr hh
    have hnot : ¬ (.onClose ∈ evs ∨ (q.gone = true ∧ (beforeClose evs).any (·.opens) = true)) := by
      rw [← doomed_iff, hdoomed]
      exact Bool.false_ne_true
    obtain ⟨hc, ho⟩ := not_or.mp hnot
    have hclose : evs.any (· = .onClose) = false := by
      rw [List.any_eq_false]
      intro e he heq
      exact hc (of_decide_eq_true heq ▸ he)
    have hopen : (q.gone && (beforeClose evs).any (·.opens)) = false := by
      rw [← Bool.not_eq_true, Bool.and_eq_true]
      exact ho
    have hbefore : callsOn false (evs.map some) = openAndMessages evs :=
      callsOn_beforeClose evs hc hord
    rw [hcalls, told, hclose, hopen, beforeClose_eq hc, ← hbefore]
    simp [callsOn]

/-- A sending action. -/
def ChannelAct.isPush : ChannelAct F → Bool
  | .push _ => true
  | _ => false

/-- The poller has ended or will. -/
def ChannelSys.WillHalt (s : ChannelSys F) : Prop := pollerReactor.WillHalt s.task s.inbox

/-- How many steps a task that will end can still take. -/
def ChannelSys.stepsLeft (s : ChannelSys F) : Nat := pollerReactor.potential 2 s.task s.inbox

theorem ChannelSys.Hist.willHalt_iff {s : ChannelSys F} (h : s.Hist) :
    s.WillHalt ↔ .onClose ∈ s.sent ∨
      (s.inbox.gone = true ∧ (beforeClose s.sent).any (·.opens) = true) := by
  obtain ⟨done, k, hist⟩ := h
  exact hist.willHalt_iff.trans (doomed_iff _ _)

section Progress

variable {id : UInt16}

@[simp] theorem channelStep_poller_gone (s : ChannelSys F) :
    (channelStep id s .poller).inbox.gone = s.inbox.gone :=
  pollerReactor.advance_gone s.task s.inbox

theorem channelStep_halted {s : ChannelSys F} (h : s.task.halted = true) (a : ChannelAct F) :
    (channelStep id s a).task.halted = true := by
  cases a with
  | push e =>
    simp only [channelStep]
    split <;> exact h
  | dropSender | setCallbacks id' cbs => exact h
  | poller =>
    simp only [channelStep, pollerReactor.advance_of_halted h]
    exact h

/-- Sending nothing: the queue is closed, or the action is no `push`. -/
theorem channelStep_quiet (id : UInt16) {s : ChannelSys F} {a : ChannelAct F}
    (h : s.inbox.gone = true ∨ a.isPush = false) :
    (channelStep id s a).sent = s.sent ∧
      (s.inbox.gone = true → (channelStep id s a).inbox.gone = true) := by
  cases a with
  | push e =>
    rcases h with h | h
    · simp [channelStep, h]
    · cases h
  | dropSender => exact ⟨rfl, fun _ => rfl⟩
  | setCallbacks id' cbs => exact ⟨rfl, fun hg => hg⟩
  | poller => exact ⟨rfl, fun hg => (channelStep_poller_gone s).trans hg⟩

theorem run_quiet_sent {bs : List (ChannelAct F)} (hbs : ∀ a ∈ bs, a.isPush = false)
    (s : ChannelSys F) : (run (channelStep id) s bs).sent = s.sent := by
  refine run_inv_on (fun s' : ChannelSys F => s'.sent = s.sent)
    (fun a : ChannelAct F => a.isPush = false) ?_ bs s hbs rfl
  intro s' a ha hs
  exact (channelStep_quiet id (Or.inr ha)).1.trans hs

theorem channelStep_willHalt {s : ChannelSys F} {a : ChannelAct F} (hist : s.Hist)
    (hq : s.inbox.gone = true ∨ a.isPush = false) (h : s.WillHalt) :
    (channelStep id s a).WillHalt := by
  obtain ⟨hsent, hgone⟩ := channelStep_quiet id hq
  rw [(channelStep_hist id s a hist).willHalt_iff, hsent]
  rcases hist.willHalt_iff.mp h with hc | ⟨hg, ho⟩
  · exact Or.inl hc
  · exact Or.inr ⟨hgone hg, ho⟩

theorem stepsLeft_le_of_quiet {s : ChannelSys F} {a : ChannelAct F} (hturn : a.isPoller = false)
    (h : s.inbox.gone = true ∨ a.isPush = false) :
    (channelStep id s a).stepsLeft ≤ s.stepsLeft := by
  cases a with
  | poller => cases hturn
  | push e =>
    rcases h with h | h
    · simp [channelStep, h]
    · cases h
  | dropSender | setCallbacks id' cbs => exact Nat.le_refl _

/-- **A task that will end, ends**, after finitely many steps of its own, whatever else happens
meanwhile.  `closed` says whether the queue is known to be closed; while it is not, the schedule
must not send more. -/
theorem halted_of_turns (closed : Bool) (s : ChannelSys F) (hist : s.Hist) (hw : s.WillHalt)
    (hgone : closed = true → s.inbox.gone = true) (bs : List (ChannelAct F))
    (hquiet : ∀ a ∈ bs, closed = true ∨ a.isPush = false)
    (hturns : s.stepsLeft ≤ turns ChannelAct.isPoller bs) :
    (run (channelStep id) s bs).task.halted = true := by
  have hq : ∀ (s : ChannelSys F) (a : ChannelAct F), (closed = true ∨ a.isPush = false) →
      (closed = true → s.inbox.gone = true) → s.inbox.gone = true ∨ a.isPush = false :=
    fun s a ha hc => ha.imp_left hc
  refine fin_of_turns
    (fun s : ChannelSys F => s.Hist ∧ s.WillHalt ∧ (closed = true → s.inbox.gone = true))
    (fun s => s.task.halted = true) ChannelSys.stepsLeft ChannelAct.isPoller
    (fun a => closed = true ∨ a.isPush = false) ?_ ?_ ?_ ?_ ?_ bs s hquiet
    ⟨hist, hw, hgone⟩ (Or.inl hturns)
  · intro s a ha ⟨h1, h2, h3⟩
    exact ⟨channelStep_hist id s a h1, channelStep_willHalt h1 (hq s a ha h3) h2,
      fun hc => (channelStep_quiet id (hq s a ha h3)).2 (h3 hc)⟩
  · intro s a _ hturn ⟨_, h2, _⟩ hnot
    cases a with
    | poller =>
      exact Reactor.potential_advance_lt pollerReact_length fun hr => hnot (hr.halted h2)
    | push e | dropSender | setCallbacks id' cbs => cases hturn
  · intro s a ha hturn ⟨_, _, h3⟩ _
    exact stepsLeft_le_of_quiet hturn (hq s a ha h3)
  · intro s a _ _ hh
    exact channelStep_halted hh a
  · intro s _ hz
    exact pollerReactor.halted_of_potential_eq_zero hz

/-- What the engine does. -/
def ChannelAct.isEngine : ChannelAct F → Bool
  | .push _ => true
  | .dropSender => true
  | _ => false

/-- The poller is at rest. -/
def ChannelSys.Rested (s : ChannelSys F) : Prop := pollerReactor.Rested s.task s.inbox

/-- **A poller comes to rest** while the engine does nothing. -/
theorem rested_of_turns (s : ChannelSys F) (bs : List (ChannelAct F))
    (hquiet : ∀ a ∈ bs, a.isEngine = false)
    (hturns : s.stepsLeft ≤ turns ChannelAct.isPoller bs) :
    (run (channelStep id) s bs).Rested := by
  refine fin_of_turns (fun _ => True) ChannelSys.Rested ChannelSys.stepsLeft ChannelAct.isPoller
    (fun a => a.isEngine = false) ?_ ?_ ?_ ?_ ?_ bs s hquiet trivial (Or.inl hturns)
  · exact fun _ _ _ _ => trivial
  · intro s a _ hturn _ hnot
    cases a with
    | poller => exact Reactor.potential_advance_lt pollerReact_length hnot
    | push e | dropSender | setCallbacks id' cbs => cases hturn
  · intro s a ha hturn _ _
    refine stepsLeft_le_of_quiet hturn (Or.inr ?_)
    cases a with
    | push e => cases ha
    | dropSender | setCallbacks | poller => rfl
  · intro s a ha _ hr
    cases a with
    | push e | dropSender => cases ha
    | setCallbacks id' cbs => exact hr
    | poller => exact Reactor.Rested.advance hr
  · intro s _ hz
    exact Or.inl (pollerReactor.halted_of_potential_eq_zero hz)

end Progress

/-! ## 6. Delivery when all callbacks are registered -/

/-- Which functions the application has for which callback. -/
structure Roles (F : Type) where
  onMessage : F → Prop
  onOpen : F → Prop
  onClose : F → Prop

/-- The function is one for this call. -/
def Roles.takes (roles : Roles F) : ChannelCall → F → Prop
  | .onMessage _ => roles.onMessage
  | .onOpen => roles.onOpen
  | .onClose => roles.onClose

/-- All three callbacks are there, each in its own slot. -/
def AllRegistered (roles : Roles F) (entry : Option (DataChannelCallbacks F)) : Prop :=
  ∃ m o c, entry = some ⟨some m, some o, some c⟩ ∧ roles.onMessage m ∧ roles.onOpen o ∧
    roles.onClose c

theorem AllRegistered.finds {roles : Roles F} {entry : Option (DataChannelCallbacks F)}
    (h : AllRegistered roles entry) (c : ChannelCall) :
    ∃ f, callbackFor entry (.call c) = some f ∧ roles.takes c f := by
  obtain ⟨m, o, c', rfl, hm, ho, hc⟩ := h
  cases c with
  | onMessage data => exact ⟨m, rfl, hm⟩
  | onOpen => exact ⟨o, rfl, ho⟩
  | onClose => exact ⟨c', rfl, hc⟩

/-- A registration for `id` registers all three callbacks; any other action is fine. -/
def ChannelAct.KeepsAll (roles : Roles F) (id : UInt16) : ChannelAct F → Prop
  | .setCallbacks id' cbs => id' = id → AllRegistered roles (some cbs)
  | _ => True

/-- **The registered regime**: the id's entry is complete until the task ends, and every call so
far found the callback for it. -/
structure Served (roles : Roles F) (id : UInt16) (s : ChannelSys F) : Prop where
  hist : s.Hist
  entry : s.task.halted = false → AllRegistered roles (s.callbacks id)
  found : ∀ x ∈ s.log, ∀ c, x.1 = .call c → ∃ f, x.2 = some f ∧ roles.takes c f

theorem registryAfter_of_not_ends {id : UInt16}
    {callbacks : UInt16 → Option (DataChannelCallbacks F)} {op : Option PollerOp}
    (h : ∀ o, op = some o → o.ends = false) : registryAfter id callbacks op = callbacks := by
  rcases op with - | (- | - | -)
  · rfl
  · rfl
  · rfl
  · exact absurd (h _ rfl) (by simp [PollerOp.ends])

theorem channelStep_poller_registry (id : UInt16) (s : ChannelSys F) :
    (channelStep id s .poller).callbacks
      = registryAfter id s.callbacks (pollerReactor.advance s.task s.inbox).2.2 := rfl

/-- While the task is not ended by a step, the step leaves the registry alone. -/
theorem channelStep_poller_callbacks {id : UInt16} {s : ChannelSys F}
    (h : (channelStep id s .poller).task.halted = false) :
    (channelStep id s .poller).callbacks = s.callbacks := by
  rw [channelStep_poller_registry]
  exact registryAfter_of_not_ends fun o ho => pollerReactor.not_halts_of_advance h ho

/-- **The step that ends the task removes the id's entry**, and no other. -/
theorem channelStep_ends_removes {id : UInt16} {s : ChannelSys F} (hh : s.task.halted = false)
    (h : (channelStep id s .poller).task.halted = true) :
    (channelStep id s .poller).callbacks = Function.update s.callbacks id none := by
  obtain ⟨o, ho, hends⟩ := pollerReactor.halts_of_advance hh h
  rw [channelStep_poller_registry, ho]
  cases o with
  | removeEntry => rfl
  | call c | sleep => cases hends

theorem channelStep_served {roles : Roles F} {id : UInt16} (s : ChannelSys F) (a : ChannelAct F)
    (ha : a.KeepsAll roles id) (h : Served roles id s) : Served roles id (channelStep id s a) where
  hist := channelStep_hist id s a h.hist
  entry := by
    intro hh
    cases a with
    | push e =>
      simp only [channelStep] at hh ⊢
      split at hh <;> rename_i hg <;> simp only [hg] <;> exact h.entry hh
    | dropSender => exact h.entry hh
    | setCallbacks id' cbs =>
      by_cases hid : id' = id
      · subst hid
        simpa [channelStep] using ha rfl
      · simpa [channelStep, Function.update_of_ne (Ne.symm hid)] using h.entry hh
    | poller =>
      rw [channelStep_poller_callbacks hh]
      refine h.entry ?_
      by_contra hne
      rw [channelStep_halted (by simpa using hne)] at hh
      cases hh
  found := by
    cases a with
    | push e =>
      simp only [channelStep]
      split <;> exact h.found
    | dropSender | setCallbacks id' cbs => exact h.found
    | poller =>
      intro x hx c hc
      simp only [channelStep, List.mem_append, List.mem_map] at hx
      rcases hx with hx | ⟨o, ho, rfl⟩
      · exact h.found x hx c hc
      · -- only a live task performs operations, and its entry is complete
        have hh : s.task.halted = false := by
          by_contra hne
          rw [pollerReactor.advance_of_halted (by simpa using hne)] at ho
          simp at ho
        simp only at hc ⊢
        rw [hc]
        exact (h.entry hh).finds c

/-- In the registered regime the application receives every call the task makes, with the callback
for it. -/
theorem Served.calls_eq {roles : Roles F} {id : UInt16} {s : ChannelSys F} (h : Served roles id s) :
    s.calls.map Prod.fst = s.performed.filterMap PollerOp.call? ∧
      ∀ x ∈ s.calls, roles.takes x.1 x.2 := by
  constructor
  · rw [ChannelSys.calls, ChannelSys.performed, List.filterMap_map, List.map_filterMap]
    refine List.filterMap_congr ?_
    rintro ⟨o, f⟩ hx
    cases o with
    | sleep | removeEntry => rfl
    | call c =>
      obtain ⟨f', rfl, -⟩ := h.found _ hx c rfl
      rfl
  · intro x hx
    obtain ⟨⟨o, f⟩, hmem, hmade⟩ := List.mem_filterMap.mp hx
    cases o with
    | sleep | removeEntry => cases hmade
    | call c =>
      obtain ⟨f', rfl, htakes⟩ := h.found _ hmem c rfl
      cases hmade
      exact htakes

/-- The callback for a call, of the three. -/
def receiver (m o c : F) : ChannelCall → F
  | .onMessage _ => m
  | .onOpen => o
  | .onClose => c

theorem eq_map_receiver {κ : Type} {t : κ → F} {l : List (κ × F)} (h : ∀ x ∈ l, x.2 = t x.1) :
    l = (l.map Prod.fst).map fun c => (c, t c) := by
  rw [List.map_map]
  conv => lhs; rw [← List.map_id l]
  refine List.map_congr_left ?_
  rintro ⟨c, f⟩ hx
  rw [id, Function.comp, ← h _ hx]

/-- **Data channel delivery.**  Take any schedule from the spawn of the poller on that sends the
sequence `evs`, in the driver's order, and has ended it: by `OnClose`, or by the end of the
queue.  With all three callbacks registered throughout,

* the calls made so far are a first part of `deliveries evs`, each received by the callback for it;
* the id's entry stays complete until the task ends, and the step that ends the task removes it;
* after finitely many further steps of the poller, whatever else happens, the calls made are
  exactly `deliveries evs`, each received by the callback for it, and the task has ended exactly if
  the sequence has an `OnClose` or opened the channel. -/
theorem channel_delivery (roles : Roles F) (id : UInt16)
    (callbacks : UInt16 → Option (DataChannelCallbacks F))
    (hreg : AllRegistered roles (callbacks id)) (evs : List DataChannelEvent)
    (hord : EngineOrder evs) (as : List (ChannelAct F)) (hkeep : ∀ a ∈ as, a.KeepsAll roles id)
    (hsent : (run (channelStep id) (.start callbacks) as).sent = evs)
    (hend : (run (channelStep id) (.start callbacks) as).inbox.gone = true ∨ .onClose ∈ evs) :
    let s := run (channelStep id) (.start callbacks) as
    (s.calls.map Prod.fst <+: deliveries evs ∧ ∀ x ∈ s.calls, roles.takes x.1 x.2) ∧
      (s.task.halted = false → AllRegistered roles (s.callbacks id)) ∧
      (s.task.halted = false → (channelStep id s .poller).task.halted = true →
        (channelStep id s .poller).callbacks = Function.update s.callbacks id none) ∧
      ∃ n, ∀ bs : List (ChannelAct F), (∀ a ∈ bs, a.KeepsAll roles id ∧ a.isPush = false) →
        n ≤ turns ChannelAct.isPoller bs →
        ((run (channelStep id) s bs).calls.map Prod.fst = deliveries evs ∧
          ∀ x ∈ (run (channelStep id) s bs).calls, roles.takes x.1 x.2) ∧
          ((run (channelStep id) s bs).task.halted = true ↔
            .onClose ∈ evs ∨ (beforeClose evs).any (·.opens) = true) := by
  intro s
  have hserved : Served roles id s := by
    refine run_inv_on (Served roles id) (ChannelAct.KeepsAll roles id) channelStep_served as _
      hkeep ?_
    exact ⟨hist_start callbacks, fun _ => hreg, fun x hx => by cases hx⟩
  have hpart : ∀ {s' : ChannelSys F}, Served roles id s' → s'.sent = evs →
      s'.calls.map Prod.fst <+: deliveries evs ∧
        (s'.task.halted = true → s'.calls.map Prod.fst = deliveries evs) := by
    intro s' h hs
    obtain ⟨done, k, hist⟩ := h.hist
    rw [hs] at hist
    rw [h.calls_eq.1]
    exact performed_calls hist hord
  refine ⟨⟨(hpart hserved hsent).1, hserved.calls_eq.2⟩, hserved.entry, channelStep_ends_removes,
    s.stepsLeft, ?_⟩
  intro bs hbs hturns
  -- the rest of the run sends nothing, so it is about the same sequence
  obtain ⟨hserved', hsent', hend'⟩ : Served roles id (run (channelStep id) s bs) ∧
      (run (channelStep id) s bs).sent = evs ∧
      ((run (channelStep id) s bs).inbox.gone = true ∨ .onClose ∈ evs) := by
    refine run_inv_on
      (fun s => Served roles id s ∧ s.sent = evs ∧ (s.inbox.gone = true ∨ .onClose ∈ evs))
      (fun a => a.KeepsAll roles id ∧ a.isPush = false) ?_ bs s hbs ⟨hserved, hsent, hend⟩
    intro s' a ha ⟨h1, h2, h3⟩
    have hquiet := channelStep_quiet id (s := s') (Or.inr ha.2)
    exact ⟨channelStep_served s' a ha.1 h1, hquiet.1.trans h2, h3.imp_left hquiet.2⟩
  have hdoom : ∀ {s' : ChannelSys F}, s'.Hist → s'.sent = evs →
      (s'.inbox.gone = true ∨ .onClose ∈ evs) →
      (s'.WillHalt ↔ .onClose ∈ evs ∨ (beforeClose evs).any (·.opens) = true) := by
    intro s' hist hs he
    rw [hist.willHalt_iff, hs]
    tauto
  by_cases hw : .onClose ∈ evs ∨ (beforeClose evs).any (·.opens) = true
  · have hhalt : (run (channelStep id) s bs).task.halted = true :=
      halted_of_turns false s hserved.hist ((hdoom hserved.hist hsent hend).mpr hw)
        (fun hf => by cases hf) bs (fun a ha => Or.inr (hbs a ha).2) hturns
    exact ⟨⟨(hpart hserved' hsent').2 hhalt, hserved'.calls_eq.2⟩,
      ⟨fun _ => hw, fun _ => hhalt⟩⟩
  · -- nothing was to be said, and the task polls on
    refine ⟨⟨?_, hserved'.calls_eq.2⟩, ⟨fun hh => ?_, fun h => absurd h hw⟩⟩
    · have hcalls := (hpart hserved' hsent').1
      rw [deliveries_eq_nil hw] at hcalls ⊢
      exact List.prefix_nil.mp hcalls
    · exact (hdoom hserved'.hist hsent' hend').mp (Or.inl hh)

/-- One registered channel: open, a message, an error, close. -/
def sampleCallbacks : UInt16 → Option (DataChannelCallbacks Nat) :=
  fun _ => some ⟨some 0, some 1, some 2⟩

def sampleRoles : Roles Nat := ⟨(· = 0), (· = 1), (· = 2)⟩

def sampleEvents : List DataChannelEvent :=
  [.onOpen, .onMessage ⟨false, [7]⟩, .onError, .onClose]

/-- The delivery theorem on that channel, with the poller run while the events come in. -/
theorem channel_delivery_sample :
    AllRegistered sampleRoles (sampleCallbacks 3) ∧ EngineOrder sampleEvents ∧
      ∃ n, ∀ bs : List (ChannelAct Nat),
        (∀ a ∈ bs, a.KeepsAll sampleRoles 3 ∧ a.isPush = false) →
        n ≤ turns ChannelAct.isPoller bs →
        (run (channelStep 3) (run (channelStep 3) (.start sampleCallbacks)
          ((.poller :: sampleEvents.map .push) ++ [.poller])) bs).calls
            = [(.onOpen, 1), (.onMessage [7], 0), (.onClose, 2)] := by
  have hreg : AllRegistered sampleRoles (sampleCallbacks 3) := ⟨0, 1, 2, rfl, rfl, rfl, rfl⟩
  have hord : EngineOrder sampleEvents := by decide
  obtain ⟨-, -, -, n, hn⟩ := channel_delivery sampleRoles 3 sampleCallbacks hreg sampleEvents hord
    ((.poller :: sampleEvents.map .push) ++ [.poller])
    (by simp [sampleEvents, ChannelAct.KeepsAll]) (by rfl) (Or.inr (by decide))
  refine ⟨hreg, hord, n, ?_⟩
  intro bs hbs hturns
  obtain ⟨⟨hcalls, htakes⟩, -⟩ := hn bs hbs hturns
  have hown : ∀ x ∈ (run (channelStep 3) (run (channelStep 3) (.start sampleCallbacks)
      ((.poller :: sampleEvents.map .push) ++ [.poller])) bs).calls, x.2 = receiver 0 1 2 x.1 := by
    rintro ⟨c, f⟩ hx
    have hrole := htakes _ hx
    cases c <;> exact hrole
  rw [eq_map_receiver hown, hcalls]
  rfl

/-! ## 7. When the task ends once its queue has ended -/

/-- The task has ended and the id's entry is gone from the registry. -/
def ChannelSys.Released (id : UInt16) (s : ChannelSys F) : Prop :=
  s.task.halted = true ∧ s.callbacks id = none

/-- **The task ends after the sequence `evs`**: in every run that has sent `evs` and dropped the
sender, finitely many further steps of the poller end it, and at the moment it ended its entry
was removed.  (The application may register callbacks for the id again later.) -/
def ChannelPollerEnds (F : Type) (id : UInt16) (evs : List DataChannelEvent) : Prop :=
  ∀ (callbacks : UInt16 → Option (DataChannelCallbacks F)) (as : List (ChannelAct F)),
    (run (channelStep id) (.start callbacks) as).sent = evs →
    (run (channelStep id) (.start callbacks) as).inbox.gone = true →
    ∃ n, ∀ bs, n ≤ turns ChannelAct.isPoller bs →
      (run (channelStep id) (.start callbacks) (as ++ bs)).task.halted = true ∧
      ∃ cs ds, as ++ bs = cs ++ ds ∧
        (run (channelStep id) (.start callbacks) cs).Released id

section Ends

variable {id : UInt16}

theorem hist_run (id : UInt16) (callbacks : UInt16 → Option (DataChannelCallbacks F))
    (as : List (ChannelAct F)) : (run (channelStep id) (.start callbacks) as).Hist :=
  run_inv (channelStep_hist id) as _ (hist_start callbacks)

/-- An ended task was ended by a step that left the entry removed. -/
theorem exists_released (callbacks : UInt16 → Option (DataChannelCallbacks F))
    (as : List (ChannelAct F))
    (h : (run (channelStep id) (.start callbacks) as).task.halted = true) :
    ∃ cs ds, as = cs ++ ds ∧ (run (channelStep id) (.start callbacks) cs).Released id := by
  obtain ⟨cs, a, ds, rfl, hbefore, hafter⟩ :=
    exists_moment (channelStep id) (fun s : ChannelSys F => s.task.halted = true) as
      (.start callbacks)
      (by simp [ChannelSys.start, Loop.start]) h
  refine ⟨cs ++ [a], ds, by simp, ?_⟩
  rw [run_append, run_cons, run_nil]
  refine ⟨hafter, ?_⟩
  cases a with
  | push e =>
    simp only [channelStep] at hafter
    split at hafter <;> exact absurd hafter hbefore
  | dropSender | setCallbacks id' cbs => exact absurd hafter hbefore
  | poller =>
    rw [channelStep_ends_removes (by simpa using hbefore) hafter, Function.update_self]

/-- Sending a sequence and dropping the sender. -/
theorem run_pushes (id : UInt16) : ∀ (evs : List DataChannelEvent) (s : ChannelSys F),
    s.inbox.gone = false →
    (run (channelStep id) s (evs.map .push ++ [.dropSender])).sent = s.sent ++ evs ∧
      (run (channelStep id) s (evs.map .push ++ [.dropSender])).inbox.gone = true
  | [], s, _ => by simp [channelStep, Inbox.drop]
  | e :: evs, s, hg => by
    have hstep : channelStep id s (.push e)
        = { s with inbox := s.inbox.push e, sent := s.sent ++ [e] } := by
      simp [channelStep, hg]
    rw [List.map_cons, List.cons_append, run_cons, hstep]
    simpa using run_pushes id evs { s with inbox := s.inbox.push e, sent := s.sent ++ [e] }
      (by simp [Inbox.push, hg])

/-- **The data channel poller ends exactly on channels that were opened or closed.**  After any
other sequence, in particular the empty one, it sleeps and polls for ever and its entry stays. -/
theorem channel_poller_ends_iff (id : UInt16) (evs : List DataChannelEvent) :
    ChannelPollerEnds F id evs ↔ ∃ e ∈ evs, e.opens = true ∨ e = .onClose := by
  have hcond : (.onClose ∈ evs ∨ (beforeClose evs).any (·.opens) = true) ↔
      ∃ e ∈ evs, e.opens = true ∨ e = .onClose := by
    constructor
    · rintro (hc | ho)
      · exact ⟨_, hc, Or.inr rfl⟩
      · obtain ⟨e, he, hopens⟩ := List.any_eq_true.mp ho
        exact ⟨e, (List.takeWhile_sublist _).subset he, Or.inl hopens⟩
    · rintro ⟨e, he, hopens | rfl⟩
      · by_cases hc : .onClose ∈ evs
        · exact Or.inl hc
        · rw [beforeClose_eq hc]
          exact Or.inr (List.any_eq_true.mpr ⟨e, he, hopens⟩)
      · exact Or.inl he
  rw [← hcond]
  constructor
  · intro hends
    -- the plain run: nothing registered, send the sequence, drop the sender, poll
    obtain ⟨hsent, hgone⟩ := run_pushes (F := F) id evs (.start fun _ => none) rfl
    obtain ⟨n, hn⟩ := hends (fun _ => none) (evs.map .push ++ [.dropSender])
      (by simpa [ChannelSys.start] using hsent) hgone
    obtain ⟨hhalt, -⟩ := hn (List.replicate n .poller) (Nat.le_of_eq (turns_replicate rfl n).symm)
    have hw := (hist_run id (fun _ => none)
      ((evs.map (ChannelAct.push (F := F)) ++ [.dropSender])
        ++ List.replicate n .poller)).willHalt_iff.mp (Or.inl hhalt)
    have hsent' : (run (channelStep id) (ChannelSys.start (F := F) fun _ => none)
        ((evs.map .push ++ [.dropSender]) ++ List.replicate n .poller)).sent = evs := by
      rw [run_append, run_quiet_sent, hsent]
      · rfl
      · intro a ha
        rw [List.eq_of_mem_replicate ha]
        rfl
    rw [hsent'] at hw
    exact hw.imp_right And.right
  · intro hw callbacks as hsent hgone
    have hist := hist_run id callbacks as
    refine ⟨(run (channelStep id) (.start callbacks) as).stepsLeft, fun bs hturns => ?_⟩
    have hhalt : (run (channelStep id) (.start callbacks) (as ++ bs)).task.halted = true := by
      rw [run_append]
      refine halted_of_turns true _ hist ?_ (fun _ => hgone) bs (fun _ _ => Or.inl rfl) hturns
      rw [hist.willHalt_iff, hsent]
      exact hw.imp_right fun ho => ⟨hgone, ho⟩
    exact ⟨hhalt, exists_released callbacks _ hhalt⟩

end Ends

end WebrtcBridge.Ffi
