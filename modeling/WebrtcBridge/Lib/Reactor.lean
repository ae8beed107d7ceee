/-
# Loops that drain a queue and react

A REACTOR is a loop of the shape

    loop { match queue.recv().await { .. } }

with a local state.  Each received value, or the `None` that an empty queue gives once every
sender is gone, is answered by a finite list of OPERATIONS performed one at a time; one kind of
operation, always the last of its reaction, ends the task.  Nothing here says what operations
do: the system that runs the task interprets them.

Three things are proved once for all such loops.

* **What has been done** (`History`): the operations performed so far, followed by those still
  due, are the reactions to what was received, in order, and nothing is received after an
  ending reaction.  The invariant survives every action of a client system (`History.push`,
  `History.drop`, `History.advance`).
* **Whether it ends** (`History.willHalt_iff`): whether the task ends is decided by what it was
  sent, at whatever moment one looks.
* **Where it gets** (`Rested`, `potential_advance_lt`, `History.rested`): with every step it takes
  a task comes closer to REST, where it has done all there is to do about what it was sent; a task
  that will end has ended there.
-/
import WebrtcBridge.Lib.Runs

namespace WebrtcBridge.Lib

/-! ## 1. Reactors, tasks and inboxes -/

/-- How a loop reacts to a received value (`none`: the queue is empty and its senders are
gone).  An ending operation is the last of its reaction, and a `None` that does not end the loop
changes nothing: the next receive will be `None` again. -/
structure Reactor (σ ε ω : Type) where
  react : σ → Option ε → σ × List ω
  halts : ω → Bool
  halts_last : ∀ s r os o os', (react s r).2 = os ++ o :: os' → halts o = true → os' = []
  none_idle : ∀ s, (react s none).2.any halts = false → (react s none).1 = s

/-- A running loop: its local state, the operations still due of the current reaction, and
whether it has ended. -/
structure Loop (σ ω : Type) where
  state : σ
  todo : List ω
  halted : Bool
  deriving DecidableEq, Repr

/-- The receiving side of a queue: what is in it, and whether every sender is gone. -/
structure Inbox (ε : Type) where
  queue : List ε
  gone : Bool
  deriving DecidableEq, Repr

variable {σ ε ω : Type}

/-- A task that has not received anything. -/
def Loop.start (s : σ) : Loop σ ω := ⟨s, [], false⟩

/-- A sender puts a value in; a queue whose senders are gone has nobody to do that. -/
def Inbox.push (q : Inbox ε) (e : ε) : Inbox ε :=
  if q.gone then q else { q with queue := q.queue ++ [e] }

/-- The last sender goes away. -/
def Inbox.drop (q : Inbox ε) : Inbox ε := { q with gone := true }

namespace Reactor

variable (R : Reactor σ ε ω)

/-- Receive `r` and take on its reaction. -/
def receive (t : Loop σ ω) (r : Option ε) : Loop σ ω :=
  ⟨(R.react t.state r).1, (R.react t.state r).2, false⟩

/-- **One step of the task**: perform the next operation that is due, else receive.  The
operation performed is returned for the client to interpret.  An ended task, and a task waiting
on an empty queue that still has a sender, do nothing. -/
def advance (t : Loop σ ω) (q : Inbox ε) : Loop σ ω × Inbox ε × Option ω :=
  if t.halted then (t, q, none)
  else
    match t.todo with
    | o :: rest => (⟨t.state, rest, R.halts o⟩, q, some o)
    | [] =>
      match q.queue with
      | e :: es => (R.receive t (some e), ⟨es, q.gone⟩, none)
      | [] => if q.gone then (R.receive t none, q, none) else (t, q, none)

/-- What one step can do, guards included. -/
theorem advance_cases (t : Loop σ ω) (q : Inbox ε) :
    (R.advance t q = (t, q, none) ∧
        (t.halted = true ∨ (t.todo = [] ∧ q.queue = [] ∧ q.gone = false))) ∨
    (∃ o rest, t.halted = false ∧ t.todo = o :: rest ∧
        R.advance t q = (⟨t.state, rest, R.halts o⟩, q, some o)) ∨
    (∃ e es, t.halted = false ∧ t.todo = [] ∧ q.queue = e :: es ∧
        R.advance t q = (R.receive t (some e), ⟨es, q.gone⟩, none)) ∨
    (t.halted = false ∧ t.todo = [] ∧ q.queue = [] ∧ q.gone = true ∧
        R.advance t q = (R.receive t none, q, none)) := by
  unfold advance
  cases hh : t.halted with
  | true => exact Or.inl ⟨by simp, Or.inl rfl⟩
  | false =>
    cases ht : t.todo with
    | cons o rest => exact Or.inr (Or.inl ⟨o, rest, rfl, rfl, by simp⟩)
    | nil =>
      cases hq : q.queue with
      | cons e es => exact Or.inr (Or.inr (Or.inl ⟨e, es, rfl, rfl, rfl, by simp⟩))
      | nil =>
        cases hg : q.gone with
        | false => exact Or.inl ⟨by simp, Or.inr ⟨rfl, rfl, rfl⟩⟩
        | true => exact Or.inr (Or.inr (Or.inr ⟨rfl, rfl, rfl, rfl, by simp⟩))

theorem advance_gone (t : Loop σ ω) (q : Inbox ε) : (R.advance t q).2.1.gone = q.gone := by
  rcases R.advance_cases t q with ⟨heq, -⟩ | ⟨o, rest, -, -, heq⟩ | ⟨e, es, -, -, -, heq⟩ |
      ⟨-, -, -, -, heq⟩ <;> rw [heq]

theorem advance_queue_length_le (t : Loop σ ω) (q : Inbox ε) :
    (R.advance t q).2.1.queue.length ≤ q.queue.length := by
  rcases R.advance_cases t q with ⟨heq, -⟩ | ⟨o, rest, -, -, heq⟩ | ⟨e, es, -, -, hq, heq⟩ |
      ⟨-, -, -, -, heq⟩
  · simp [heq]
  · simp [heq]
  · simp [heq, hq]
  · simp [heq]

theorem advance_of_halted {t : Loop σ ω} (h : t.halted = true) (q : Inbox ε) :
    R.advance t q = (t, q, none) := by
  simp [advance, h]

/-- **Only an ending operation ends the loop.** -/
theorem halts_of_advance {t : Loop σ ω} {q : Inbox ε} (hh : t.halted = false)
    (h : (R.advance t q).1.halted = true) :
    ∃ o, (R.advance t q).2.2 = some o ∧ R.halts o = true := by
  rcases R.advance_cases t q with ⟨heq, -⟩ | ⟨o, rest, -, -, heq⟩ | ⟨e, es, -, -, -, heq⟩ |
      ⟨-, -, -, -, heq⟩ <;> rw [heq] at h ⊢
  · rw [hh] at h
    cases h
  · exact ⟨o, rfl, h⟩
  · cases h
  · cases h

/-- The other way round: a step that leaves the loop running performed no ending operation. -/
theorem not_halts_of_advance {t : Loop σ ω} {q : Inbox ε}
    (h : (R.advance t q).1.halted = false) {o : ω} (ho : (R.advance t q).2.2 = some o) :
    R.halts o = false := by
  rcases R.advance_cases t q with ⟨heq, -⟩ | ⟨o', rest, -, -, heq⟩ | ⟨e, es, -, -, -, heq⟩ |
      ⟨-, -, -, -, heq⟩ <;> rw [heq] at h ho <;> cases ho
  exact h

/-! ## 2. What has been done -/

/-- The local state after receiving the values of `rs`. -/
def after (s : σ) (rs : List (Option ε)) : σ := rs.foldl (fun s r => (R.react s r).1) s

/-- The operations of the reactions to `rs`, in order. -/
def ops : σ → List (Option ε) → List ω
  | _, [] => []
  | s, r :: rs => (R.react s r).2 ++ ops (R.react s r).1 rs

theorem ops_append : ∀ (rs rs' : List (Option ε)) (s : σ),
    R.ops s (rs ++ rs') = R.ops s rs ++ R.ops (R.after s rs) rs'
  | [], _, _ => rfl
  | r :: rs, rs', s => by
    simp only [List.cons_append, ops, after, List.foldl_cons, List.append_assoc]
    rw [ops_append rs rs']
    rfl

theorem ops_concat (s : σ) (rs : List (Option ε)) (r : Option ε) :
    R.ops s (rs ++ [r]) = R.ops s rs ++ (R.react (R.after s rs) r).2 := by
  rw [ops_append]
  simp [ops]

theorem after_nil (s : σ) : R.after s [] = s := rfl

theorem after_concat (s : σ) (rs : List (Option ε)) (r : Option ε) :
    R.after s (rs ++ [r]) = (R.react (R.after s rs) r).1 := by
  simp [after]

/-- What the loop has received: the values `done`, then `k` times `None`. -/
def received (done : List ε) (k : Nat) : List (Option ε) :=
  done.map some ++ List.replicate k none

/-- **The history of a task** that started in `s₀` and was sent `evs` so far.  `done` is what
it received, `performed` what it did about it. -/
structure History (s₀ : σ) (evs : List ε) (performed : List ω) (t : Loop σ ω) (q : Inbox ε)
    (done : List ε) (k : Nat) : Prop where
  sent : evs = done ++ q.queue
  nones : 0 < k → q.gone = true ∧ q.queue = []
  due : performed ++ t.todo = R.ops s₀ (received done k)
  state : t.state = R.after s₀ (received done k)
  halted : t.halted = performed.any R.halts
  finished : t.halted = true → t.todo = []
  /-- nothing was received after an ending reaction -/
  earlier : ∀ rs r, received done k = rs ++ [r] → (R.ops s₀ rs).any R.halts = false

theorem History.start (s₀ : σ) (q : Inbox ε) : R.History s₀ q.queue [] (Loop.start s₀) q [] 0 where
  sent := rfl
  nones := fun h => absurd h (Nat.lt_irrefl 0)
  due := rfl
  state := rfl
  halted := rfl
  finished := fun h => absurd h (by simp [Loop.start])
  earlier := fun rs r h => by simp [received] at h

variable {R}
variable {s₀ : σ} {evs : List ε} {performed : List ω} {t : Loop σ ω} {q : Inbox ε}
  {done : List ε} {k : Nat}

/-- A value sent while a sender lives joins the events. -/
theorem History.push (h : R.History s₀ evs performed t q done k) (hq : q.gone = false) (e : ε) :
    R.History s₀ (evs ++ [e]) performed t (q.push e) done k where
  sent := by simp [Inbox.push, hq, h.sent]
  nones := fun hk => absurd (h.nones hk).1 (by simp [hq])
  due := h.due
  state := h.state
  halted := h.halted
  finished := h.finished
  earlier := h.earlier

theorem History.drop (h : R.History s₀ evs performed t q done k) :
    R.History s₀ evs performed t q.drop done k where
  sent := h.sent
  nones := fun hk => ⟨rfl, (h.nones hk).2⟩
  due := h.due
  state := h.state
  halted := h.halted
  finished := h.finished
  earlier := h.earlier

/-- Receiving one more value when nothing is due. -/
theorem History.receive (h : R.History s₀ evs performed t q done k) (hh : t.halted = false)
    (ht : t.todo = []) {r : Option ε} {q' : Inbox ε} {done' : List ε} {k' : Nat}
    (hr : received done' k' = received done k ++ [r]) (hsent : evs = done' ++ q'.queue)
    (hnones : 0 < k' → q'.gone = true ∧ q'.queue = []) :
    R.History s₀ evs performed (R.receive t r) q' done' k' where
  sent := hsent
  nones := hnones
  due := by
    have hdue := h.due
    rw [ht, List.append_nil] at hdue
    rw [hr, ops_concat, ← hdue, ← h.state]
    rfl
  state := by
    rw [hr, after_concat, ← h.state]
    rfl
  halted := by
    rw [← h.halted, hh]
    rfl
  finished := fun hf => absurd hf (by simp [Reactor.receive])
  earlier := by
    intro rs r' hrs
    rw [hr] at hrs
    obtain ⟨rfl, -⟩ := List.append_inj' hrs rfl
    have hdue := h.due
    rw [ht, List.append_nil] at hdue
    rw [← hdue, ← h.halted, hh]

/-- **A step of the task extends the history**: what it performs joins `performed`. -/
theorem History.advance (h : R.History s₀ evs performed t q done k) :
    ∃ done' k', R.History s₀ evs (performed ++ (R.advance t q).2.2.toList) (R.advance t q).1
      (R.advance t q).2.1 done' k' := by
  rcases R.advance_cases t q with ⟨heq, -⟩ | ⟨o, rest, hh, ht, heq⟩ | ⟨e, es, hh, ht, hq, heq⟩ |
      ⟨hh, ht, hq, hg, heq⟩
  · -- idle
    rw [heq]
    exact ⟨done, k, by simpa using h⟩
  · -- the next operation
    rw [heq]
    have hnone : performed.any R.halts = false := by rw [← h.halted, hh]
    refine ⟨done, k, ⟨h.sent, h.nones, ?_, h.state, ?_, ?_, h.earlier⟩⟩
    · have hdue := h.due
      rw [ht] at hdue
      simpa using hdue
    · simp [hnone]
    · -- an ending operation leaves nothing due: it is the last of the last reaction
      intro ho
      have ho' : R.halts o = true := ho
      have hdue := h.due
      rw [ht] at hdue
      rcases List.eq_nil_or_concat (received done k) with hnil | ⟨rs, r, hrs⟩
      · rw [hnil] at hdue
        simp [ops] at hdue
      · rw [List.concat_eq_append] at hrs
        have hearly := h.earlier rs r hrs
        rw [hrs, ops_concat] at hdue
        -- `o` cannot lie in the earlier reactions, so it lies in the last one
        rcases List.append_eq_append_iff.mp hdue with ⟨as, ha1, ha2⟩ | ⟨bs, hb1, hb2⟩
        · cases as with
          | nil =>
            simp only [List.nil_append] at ha2
            exact R.halts_last _ r [] o rest (by simpa using ha2.symm) ho'
          | cons a as =>
            have hmem : o ∈ R.ops s₀ rs := by
              rw [ha1]
              have hao : a = o := by
                simp only [List.cons_append, List.cons.injEq] at ha2
                exact ha2.1.symm
              simp [hao]
            have : (R.ops s₀ rs).any R.halts = true := List.any_eq_true.mpr ⟨o, hmem, ho'⟩
            rw [this] at hearly
            exact absurd hearly (by simp)
        · exact R.halts_last _ r bs o rest hb2 ho'
  · -- a value from the queue; there was no `None` before it
    rw [heq]
    have hk : k = 0 := by
      rcases Nat.eq_zero_or_pos k with hk | hk
      · exact hk
      · have hempty := (h.nones hk).2
        rw [hq] at hempty
        cases hempty
    subst hk
    refine ⟨done ++ [e], 0, ?_⟩
    simp only [Option.toList_none, List.append_nil]
    refine h.receive hh ht (r := some e) (by simp [received]) ?_ (fun hk => absurd hk (by omega))
    rw [h.sent, hq]
    simp
  · -- `None`
    rw [heq]
    refine ⟨done, k + 1, ?_⟩
    simp only [Option.toList_none, List.append_nil]
    refine h.receive hh ht (r := none) ?_ h.sent fun _ => ⟨hg, hq⟩
    simp [received, List.replicate_succ']

/-- The operations performed are a first part of the reactions to what was received. -/
theorem History.performed_le (h : R.History s₀ evs performed t q done k) :
    performed <+: R.ops s₀ (received done k) := ⟨t.todo, h.due⟩

/-- An ended task has performed all of its reactions. -/
theorem History.performed_eq (h : R.History s₀ evs performed t q done k)
    (hh : t.halted = true) : performed = R.ops s₀ (received done k) := by
  have hdue := h.due
  rwa [h.finished hh, List.append_nil] at hdue

/-! ## 3. Whether it ends -/

variable (R)

/-- The reactions to the values of `es`, or to `None` after them when the senders are gone,
contain an ending operation. -/
def doomed (gone : Bool) (s : σ) (es : List ε) : Bool :=
  (R.ops s (es.map some)).any R.halts ||
    (gone && (R.react (R.after s (es.map some)) none).2.any R.halts)

/-- The loop has ended, or will: an ending operation is due or doom is queued. -/
def WillHalt (t : Loop σ ω) (q : Inbox ε) : Prop :=
  t.halted = true ∨ t.todo.any R.halts = true ∨ R.doomed q.gone t.state q.queue = true

/-- A `None` that does not end the loop can be received any number of times. -/
theorem ops_replicate_none {s : σ} (h : (R.react s none).2.any R.halts = false) (k : Nat) :
    R.ops s (List.replicate k none) = (List.replicate k (R.react s none).2).flatten := by
  induction k with
  | zero => rfl
  | succ k ih => rw [List.replicate_succ, ops, R.none_idle s h, ih, List.replicate_succ,
      List.flatten_cons]

theorem replicate_none_idle {s : σ} (h : (R.react s none).2.any R.halts = false) (k : Nat) :
    (R.ops s (List.replicate k none)).any R.halts = false ∧
      R.after s (List.replicate k none) = s := by
  constructor
  · rw [R.ops_replicate_none h k, List.any_eq_false]
    intro o ho
    obtain ⟨l, hl, ho⟩ := List.mem_flatten.mp ho
    rw [List.eq_of_mem_replicate hl] at ho
    exact List.any_eq_false.mp h o ho
  · induction k with
    | zero => rfl
    | succ k ih => simpa [List.replicate_succ, after, R.none_idle s h] using ih

variable {R} in
/-- **Whether a loop ends is decided by what it was sent.**  Whatever it has received and
performed so far, it has ended or will exactly when the whole sequence sent is doomed. -/
theorem History.willHalt_iff (h : R.History s₀ evs performed t q done k) :
    R.WillHalt t q ↔ R.doomed q.gone s₀ evs = true := by
  have hops : (t.halted = true ∨ t.todo.any R.halts = true) ↔
      (R.ops s₀ (received done k)).any R.halts = true := by
    rw [← h.due, List.any_append, h.halted, Bool.or_eq_true]
  rw [WillHalt, ← or_assoc, hops, h.state, h.sent]
  rcases Nat.eq_zero_or_pos k with rfl | hk
  · -- no `None` yet: the queue is what is left of the sequence
    have hr : received done 0 = done.map some := by simp [received]
    have hafter : ∀ rs, R.after (R.after s₀ (done.map some)) rs
        = R.after s₀ (done.map some ++ rs) := fun rs => by simp [after]
    rw [hr, doomed, doomed, List.map_append, ops_append, List.any_append, hafter]
    simp only [Bool.or_eq_true, Bool.and_eq_true, or_assoc]
  · -- the queue is drained and only more of the same `None` can come
    obtain ⟨hgone, hqueue⟩ := h.nones hk
    have hafter : R.after s₀ (received done k)
        = R.after (R.after s₀ (done.map some)) (List.replicate k none) := by
      simp [received, after]
    rw [hqueue, hgone, List.append_nil, doomed, doomed, hafter, received, ops_append,
      List.any_append]
    cases hnone : (R.react (R.after s₀ (done.map some)) none).2.any R.halts with
    | false =>
      obtain ⟨hk1, hk2⟩ := R.replicate_none_idle hnone k
      simp only [hk1, hk2, hnone, List.map_nil, ops, after_nil, List.any_nil, Bool.and_false,
        Bool.or_false, Bool.false_eq_true, or_false]
    | true =>
      obtain ⟨k, rfl⟩ : ∃ j, k = j + 1 := ⟨k - 1, by omega⟩
      simp [List.replicate_succ, ops, List.any_append, hnone]

/-! ## 4. Rest -/

/-- **At rest**: the loop has ended, or it has received everything, and what it still does belongs
to a `None` that does not end it. -/
def Rested (t : Loop σ ω) (q : Inbox ε) : Prop :=
  t.halted = true ∨
    (q.queue = [] ∧ (t.todo = [] ∨ (q.gone = true ∧ t.todo <:+ (R.react t.state none).2)) ∧
      (q.gone = true → (R.react t.state none).2.any R.halts = false))

/-- Nothing of what such a loop still does ends it. -/
theorem Rested.todo {R : Reactor σ ε ω} (h : R.Rested t q) (hh : t.halted = false) :
    t.todo.any R.halts = false := by
  rcases h with h | ⟨-, hnil | ⟨hg, hsuffix⟩, hnone⟩
  · rw [hh] at h
    cases h
  · rw [hnil, List.any_nil]
  · refine List.any_eq_false.mpr ?_
    intro o ho
    exact List.any_eq_false.mp (hnone hg) o (hsuffix.subset ho)

/-- **A loop that will end is at rest only when it has ended.** -/
theorem Rested.halted {R : Reactor σ ε ω} (h : R.Rested t q) (hw : R.WillHalt t q) :
    t.halted = true := by
  cases hh : t.halted with
  | true => rfl
  | false =>
    have htodo := h.todo hh
    rcases h with h | ⟨hq, -, hnone⟩
    · exact hh.symm.trans h
    · cases hg : q.gone with
      | false => simp [WillHalt, hh, htodo, hq, hg, doomed, ops] at hw
      | true => simp [WillHalt, hh, htodo, hq, hg, doomed, ops, after, hnone hg] at hw

/-- **Rest lasts** as long as nothing is sent. -/
theorem Rested.advance {R : Reactor σ ε ω} (h : R.Rested t q) :
    R.Rested (R.advance t q).1 (R.advance t q).2.1 := by
  rcases R.advance_cases t q with ⟨heq, -⟩ | ⟨o, rest, hh, ht, heq⟩ | ⟨e, es, hh, -, hq, heq⟩ |
      ⟨hh, -, hq, hg, heq⟩
  · rw [heq]
    exact h
  · rw [heq]
    rcases h with h | ⟨hq, hsuffix, hnone⟩
    · rw [hh] at h
      cases h
    · rw [ht] at hsuffix
      obtain ⟨hg, hsuffix⟩ := hsuffix.resolve_left (List.cons_ne_nil o rest)
      exact Or.inr ⟨hq, Or.inr ⟨hg, (List.suffix_cons o rest).trans hsuffix⟩, hnone⟩
  · rcases h with h | ⟨hempty, -⟩
    · rw [hh] at h
      cases h
    · rw [hq] at hempty
      cases hempty
  · rw [heq]
    rcases h with h | ⟨-, -, hnone⟩
    · rw [hh] at h
      cases h
    · have hstate : (R.react t.state none).1 = t.state := R.none_idle t.state (hnone hg)
      refine Or.inr ⟨hq, Or.inr ⟨hg, ?_⟩, fun _ => ?_⟩ <;> simp only [receive, hstate]
      · exact List.suffix_refl _
      · exact hnone hg

variable {R} in
/-- **What has been done at rest**, as far as `f` tells: if the loop has not ended, the reactions to
all that was sent.  Only what a `None` is answered with while the loop waits may come on top, and
`f` does not see that. -/
theorem History.rested {κ : Type} (f : ω → Option κ)
    (hf : ∀ s, (R.react s none).2.any R.halts = false → (R.react s none).2.filterMap f = [])
    (h : R.History s₀ evs performed t q done k) (hr : R.Rested t q) (hh : t.halted = false) :
    R.doomed q.gone s₀ evs = false ∧
      performed.filterMap f = (R.ops s₀ (evs.map some)).filterMap f := by
  have hdoomed : R.doomed q.gone s₀ evs = false := by
    cases hd : R.doomed q.gone s₀ evs with
    | false => rfl
    | true =>
      have hhalted := hr.halted (h.willHalt_iff.mpr hd)
      rw [hh] at hhalted
      cases hhalted
  refine ⟨hdoomed, ?_⟩
  obtain ⟨hq, hsuffix, hnone⟩ := hr.resolve_left (by simp [hh])
  have htodo : t.todo.filterMap f = [] := by
    rcases hsuffix with hnil | ⟨hg, hsuffix⟩
    · rw [hnil, List.filterMap_nil]
    · refine List.filterMap_eq_nil_iff.mpr ?_
      intro o ho
      exact List.filterMap_eq_nil_iff.mp (hf t.state (hnone hg)) o (hsuffix.subset ho)
  have hevs : evs = done := by rw [h.sent, hq, List.append_nil]
  have hdue := congrArg (List.filterMap f) h.due
  rw [List.filterMap_append, htodo, List.append_nil, received, ops_append, List.filterMap_append,
    ← hevs] at hdue
  rw [hdue]
  rcases Nat.eq_zero_or_pos k with rfl | hk
  · simp [ops]
  · rw [doomed, (h.nones hk).1, Bool.true_and, Bool.or_eq_false_iff] at hdoomed
    rw [R.ops_replicate_none hdoomed.2 k]
    simp [List.filterMap_flatten, hf _ hdoomed.2]

/-- How many steps the loop can still take, when no reaction is longer than `c`. -/
def potential (c : Nat) (t : Loop σ ω) (q : Inbox ε) : Nat :=
  if t.halted then 0
  else if t.todo.any R.halts then t.todo.length
  else t.todo.length + (q.queue.length + 1) * (c + 1)

theorem halted_of_potential_eq_zero {c : Nat} (h : R.potential c t q = 0) :
    t.halted = true := by
  cases hh : t.halted with
  | true => rfl
  | false =>
    cases ht : t.todo with
    | nil => simp [potential, hh, ht] at h
    | cons o rest => cases ho : (o :: rest).any R.halts <;> simp [potential, hh, ht, ho] at h

/-- After a reaction of length at most `c` the loop has at most that much due, and the queue it
still has to drain. -/
theorem potential_receive_le {c : Nat} (hc : ∀ s r, (R.react s r).2.length ≤ c)
    (t : Loop σ ω) (r : Option ε) (q : Inbox ε) :
    R.potential c (R.receive t r) q ≤ c + (q.queue.length + 1) * (c + 1) := by
  have hlen := hc t.state r
  cases hr : (R.react t.state r).2.any R.halts <;>
    simp only [potential, receive, hr, Bool.false_eq_true, if_false, if_true] <;> omega

/-- An ending reaction leaves only itself. -/
theorem potential_receive_le_of_halts {c : Nat} (hc : ∀ s r, (R.react s r).2.length ≤ c)
    (t : Loop σ ω) (r : Option ε) (q : Inbox ε)
    (hr : (R.react t.state r).2.any R.halts = true) :
    R.potential c (R.receive t r) q ≤ c := by
  simpa [potential, receive, hr] using hc t.state r

variable {R} in
/-- **A loop gets to rest**: every step decreases the potential, as long as it is not there. -/
theorem potential_advance_lt {c : Nat} (hc : ∀ s r, (R.react s r).2.length ≤ c)
    (h : ¬ R.Rested t q) :
    R.potential c (R.advance t q).1 (R.advance t q).2.1 < R.potential c t q := by
  have hh : t.halted = false := by
    cases hh : t.halted with
    | false => rfl
    | true => exact absurd (Or.inl hh) h
  rcases R.advance_cases t q with ⟨-, hidle⟩ | ⟨o, rest, -, ht, heq⟩ | ⟨e, es, -, ht, hq, heq⟩ |
      ⟨-, ht, hq, hg, heq⟩
  · -- an idle loop waits on an empty queue with a sender
    rcases hidle with h1 | ⟨h1, h2, h3⟩
    · exact absurd (Or.inl h1) h
    · exact absurd (Or.inr ⟨h2, Or.inl h1, by simp [h3]⟩) h
  · rw [heq]
    cases ho : R.halts o <;> cases hrest : rest.any R.halts <;>
      simp [potential, hh, ht, ho, hrest]
  · rw [heq]
    have hpot : R.potential c t q = (es.length + 2) * (c + 1) := by
      simp [potential, hh, ht, hq]
    have hle := R.potential_receive_le hc t (some e) ⟨es, q.gone⟩
    have hexp : (es.length + 2) * (c + 1) = (es.length + 1) * (c + 1) + (c + 1) :=
      Nat.succ_mul (es.length + 1) (c + 1)
    simp only at hle ⊢
    omega
  · rw [heq]
    have hnone : (R.react t.state none).2.any R.halts = true := by
      cases hn : (R.react t.state none).2.any R.halts with
      | true => rfl
      | false => exact absurd (Or.inr ⟨hq, Or.inl ht, fun _ => hn⟩) h
    have hpot : R.potential c t q = c + 1 := by simp [potential, hh, ht, hq]
    have hle := R.potential_receive_le_of_halts hc t none q hnone
    simp only
    omega

end Reactor

end WebrtcBridge.Lib
