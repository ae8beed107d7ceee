/-
# One response for a request?

A request carries a transaction, and the response to it carries the same one: that is how a client
knows which of its requests was answered.  `handle` responds on every path that ends in a `return`.
But the paths that end in an EXCEPTION leave `handle` and come to `onMessage`, where the request is
no longer in scope.  There a message of type `event` is sent, which has no transaction.  So the
client waits for ever.

To say which response belongs to which request, the session is given BOOKS: every message gets a
number when it arrives, and what a handler sends is noted under its number.  The books change
nothing (`run_of`), and they miss nothing (`run_balanced`).

* §1  the responses in a log;
* §2  one step: it ends with one response, or with an exception and none, or goes on in silence, as
  the ways a step can end (`Ends`) tell;
* §3  the books;
* §4  the fate of message `n`: not there yet, in hand, or done;
* §5  the responses of every run.
-/
import WebrtcBridge.Server.Invariants

namespace WebrtcBridge.Server

open Lib

/-! ## 1. Responses -/

/-- The transaction of a message of type `response`. -/
def Event.correlated : Event → Option (Option Text)
  | .response transaction _ => some transaction
  | _ => none

/-- The transactions of the responses in a log. -/
def correlated (log : List Event) : List (Option Text) := log.filterMap Event.correlated

@[simp] theorem correlated_append (log more : List Event) :
    correlated (log ++ more) = correlated log ++ correlated more := List.filterMap_append

@[simp] theorem correlated_response (transaction : Option Text) (r : Reply) :
    correlated [.response transaction r] = [transaction] := rfl

@[simp] theorem correlated_errorEvent : correlated [.errorEvent] = [] := rfl

/-! ## 2. One step -/

/-- What a step comes to for a request: the handler goes on and has not responded, or it ends, with
an exception and no response or with one response. -/
def Responds (req : Signal) (s : Shared) (threw : Bool) (r : Shared × Option Handler) : Prop :=
  ∃ es, r.1.log = s.log ++ es ∧
    match r.2 with
    | some h => h.req = some req ∧ threw = false ∧ correlated es = []
    | none =>
      if threw then correlated es = [] ∧ .errorEvent ∈ es else correlated es = [req.transaction]

section Step

variable {req : Signal} {s : Shared} {h : Handler}

theorem correlated_notes {es : List Event} (hes : es.all Event.isNote = true) :
    correlated es = [] := by
  refine List.filterMap_eq_nil_iff.mpr ?_
  intro e he
  have hnote := List.all_eq_true.mp hes e he
  cases e with
  | response => cases hnote
  | errorEvent | created | called | flagged | closed | wrote => rfl

theorem Ends.responds {threw : Bool} {r : Shared × Option Handler} (hends : Ends s h threw r)
    (hreq : h.req = some req) : Responds req s threw r := by
  cases hends with
  | goes hnotes =>
    obtain ⟨es, hlog, hes⟩ := hnotes.log
    exact ⟨es, hlog, hreq, rfl, correlated_notes hes⟩
  | sets | stops => exact ⟨[], (List.append_nil _).symm, hreq, rfl, rfl⟩
  | @fails t hnotes =>
    obtain ⟨es, hlog, hes⟩ := hnotes.log
    refine ⟨es ++ [.errorEvent], ?_, ?_⟩
    · simp [Handler.fail, Shared.emit, hlog]
    · simp [Handler.fail, correlated_notes hes]
  | @replies t r hnotes =>
    obtain ⟨es, hlog, hes⟩ := hnotes.log
    refine ⟨es ++ [.response req.transaction r], ?_, ?_⟩
    · simp [Handler.reply, Shared.emit, hlog, hreq]
    · simp [correlated_notes hes]
  | closes hnone =>
    rw [hnone] at hreq
    cases hreq

theorem Ends.log {threw : Bool} {r : Shared × Option Handler} (hends : Ends s h threw r) :
    s.log <+: r.1.log := by
  cases hends with
  | goes hnotes | closes _ hnotes =>
    obtain ⟨es, hlog, -⟩ := hnotes.log
    exact ⟨es, hlog.symm⟩
  | sets | stops => exact List.prefix_rfl
  | @fails t hnotes | @replies t _ hnotes =>
    -- the entry of the end comes after the notes
    obtain ⟨es, hlog, -⟩ := hnotes.log
    have hbefore : s.log <+: t.log := ⟨es, hlog.symm⟩
    exact hbefore.trans (List.prefix_append _ _)

/-- **One step of a handler with a request.** -/
theorem step_responds (firstMediaCodec : Text → MediaKind → Option Codec) (hreq : h.req = some req)
    (o : Outcome) : Responds req s (h.throws s o) (h.step firstMediaCodec s o) :=
  (step_ends firstMediaCodec s h o).responds hreq

end Step

/-! ## 3. The books -/

/-- The session's fields, what each message's handler has sent, and the messages whose handler
threw. Handlers that were there before, and that of `onClose`, have no number. -/
structure Books where
  shared : Shared
  sent : List (Option Nat × Event) := []
  escaped : List (Option Nat) := []

/-- The responses to message `n`. -/
def Books.responses (b : Books) (n : Nat) : List (Option Text) :=
  b.sent.filterMap fun e => if e.1 = some n then e.2.correlated else none

/-- A session with books; a message's number is its place in `arrived`. -/
structure Booked where
  books : Books
  handlers : List (Option Nat × Handler)
  socketOpen : Bool
  arrived : List Signal := []

/-- Books are opened on a session in any state. -/
def Booked.of (s : Session) : Booked where
  books := { shared := s.shared }
  handlers := s.handlers.map fun h => (none, h)
  socketOpen := s.socketOpen

/-- The session without its books. -/
def Booked.session (b : Booked) : Session :=
  ⟨b.books.shared, b.handlers.map Prod.snd, b.socketOpen⟩

/-- Message `n` has been handled to completion. -/
def Booked.Done (b : Booked) (n : Nat) : Prop := ∀ h ∈ b.handlers, h.1 ≠ some n

instance (b : Booked) (n : Nat) : Decidable (b.Done n) :=
  inferInstanceAs (Decidable (∀ h ∈ b.handlers, h.1 ≠ some n))

section Books

variable (firstMediaCodec : Text → MediaKind → Option Codec)

/-- A step of a handler, with what it sends and whether it throws. -/
def Books.step (b : Books) (h : Option Nat × Handler) (o : Outcome) :
    Books × Option (Option Nat × Handler) :=
  let r := h.2.step firstMediaCodec b.shared o
  ({ shared := r.1
     sent := b.sent ++ (r.1.log.drop b.shared.log.length).map fun e => (h.1, e)
     escaped := if h.2.throws b.shared o then b.escaped ++ [h.1] else b.escaped },
    r.2.map fun h' => (h.1, h'))

/-- `Session.step`, with books. -/
def Booked.step (b : Booked) : Act → Booked
  | .message req =>
    if b.socketOpen then
      { b with
        handlers := b.handlers ++ [(some b.arrived.length, ⟨some req, .start⟩)]
        arrived := b.arrived ++ [req] }
    else b
  | .socketClosed =>
    if b.socketOpen then
      { b with socketOpen := false, handlers := b.handlers ++ [(none, ⟨none, .stop⟩)] }
    else b
  | .step i o =>
    let (books, handlers) := turn (Books.step firstMediaCodec) b.books b.handlers i o
    { b with books := books, handlers := handlers }
  | .consumer => { b with books := { b.books with shared := b.books.shared.consume } }
  | .rtp payload pt sequenceNumber timestamp =>
    { b with
      books :=
        { b.books with shared := b.books.shared.receive payload pt sequenceNumber timestamp } }

/-- **The books change nothing**, in one step -/
theorem step_session (b : Booked) (a : Act) :
    (b.step firstMediaCodec a).session = b.session.step firstMediaCodec a := by
  cases a with
  | message req | socketClosed =>
    cases hopen : b.socketOpen <;> simp [Booked.step, Session.step, Booked.session, hopen]
  | step i o =>
    have hturn := turn_project (Handler.step firstMediaCodec) (Books.step firstMediaCodec)
      Books.shared Prod.snd
        (fun s t o => by simp [Books.step, Function.comp_def]) b.books b.handlers i o
    simp only [Booked.step, Session.step, Booked.session, hturn]
  | consumer | rtp payload pt sequenceNumber timestamp => rfl

/-- and in a whole run. -/
theorem run_session (b : Booked) (acts : List Act) :
    (run (Booked.step firstMediaCodec) b acts).session
      = run (Session.step firstMediaCodec) b.session acts := by
  induction acts generalizing b with
  | nil => rfl
  | cons a acts ih =>
    rw [run_cons, run_cons, ih, step_session]

theorem session_of (s : Session) : (Booked.of s).session = s := by
  simp [Booked.of, Booked.session, Function.comp_def]

theorem run_of (s : Session) (acts : List Act) :
    (run (Booked.step firstMediaCodec) (.of s) acts).session
      = run (Session.step firstMediaCodec) s acts := by
  rw [run_session, session_of]

theorem step_log (s : Shared) (h : Handler) (o : Outcome) :
    s.log <+: (h.step firstMediaCodec s o).1.log :=
  (step_ends firstMediaCodec s h o).log

/-- The responses in the log are those that were there before, and those in the books. -/
def Books.Balanced (before : List (Option Text)) (b : Books) : Prop :=
  correlated b.shared.log = before ++ correlated (b.sent.map Prod.snd)

theorem balanced_step {before : List (Option Text)} {b : Books} (hb : b.Balanced before)
    (h : Option Nat × Handler) (o : Outcome) :
    (b.step firstMediaCodec h o).1.Balanced before := by
  obtain ⟨es, hlog⟩ := step_log firstMediaCodec b.shared h.2 o
  have hsent : (b.step firstMediaCodec h o).1.sent.map Prod.snd = b.sent.map Prod.snd ++ es := by
    simp [Books.step, ← hlog, Function.comp_def]
  have hshared : (b.step firstMediaCodec h o).1.shared.log = b.shared.log ++ es := hlog.symm
  rw [Books.Balanced, hsent, hshared, correlated_append, correlated_append, hb, List.append_assoc]

/-- **The books miss nothing.** -/
theorem run_balanced (s : Session) (acts : List Act) :
    (run (Booked.step firstMediaCodec) (.of s) acts).books.Balanced (correlated s.shared.log) := by
  refine run_inv (I := fun b : Booked => b.books.Balanced (correlated s.shared.log)) ?_ acts _ ?_
  · intro b a hb
    cases a with
    | message req | socketClosed =>
      simp only [Booked.step]
      split <;> exact hb
    | step i o =>
      exact turn_inv (I := fun (b : Books) _ => b.Balanced (correlated s.shared.log)) (fun _ h => h)
        (fun h _ _ _ hb => balanced_step firstMediaCodec hb h o) hb
    | consumer =>
      -- the consumer logs what it writes, no response
      have hwrote : ∀ w : Option Write, correlated (w.map Event.wrote).toList = [] := by
        intro w
        cases w <;> rfl
      have hlog : correlated b.books.shared.consume.log = correlated b.books.shared.log := by
        simp [Shared.consume, hwrote]
      exact hlog.trans hb
    | rtp payload pt sequenceNumber timestamp => exact hb
  · simp [Books.Balanced, Booked.of, correlated]

end Books

/-! ## 4. The fate of a message -/

/-- The handlers of message `n`. -/
def mine (n : Nat) (handlers : List (Option Nat × Handler)) : List (Option Nat × Handler) :=
  handlers.filter fun h => h.1 = some n

theorem perm_mine {n : Nat} {l l' : List (Option Nat × Handler)} (h : l.Perm l') :
    (mine n l).Perm (mine n l') := h.filter _

theorem done_iff {b : Booked} {n : Nat} : b.Done n ↔ mine n b.handlers = [] := by
  simp [Booked.Done, mine, List.filter_eq_nil_iff]

/-- Nothing is in the books about message `n`. -/
def Books.Blank (b : Books) (n : Nat) : Prop := b.responses n = [] ∧ some n ∉ b.escaped

/-- What the books say about a message that is done: one response, or an exception, an error event
and no response. -/
def Books.Verdict (b : Books) (n : Nat) (req : Signal) : Prop :=
  if some n ∈ b.escaped then b.responses n = [] ∧ (some n, .errorEvent) ∈ b.sent
  else b.responses n = [req.transaction]

/-- A message that has arrived is in hand, or done. -/
def Accepted (n : Nat) (req : Signal) (b : Books) (handlers : List (Option Nat × Handler)) : Prop :=
  (∃ h, mine n handlers = [(some n, h)] ∧ h.req = some req ∧ b.Blank n)
    ∨ (mine n handlers = [] ∧ b.Verdict n req)

/-- **The fate of message `n`**: it is not there yet, in hand, or done. -/
def Fate (n : Nat) (b : Booked) : Prop :=
  (b.arrived.length ≤ n ∧ mine n b.handlers = [] ∧ b.books.Blank n)
    ∨ ∃ req, b.arrived[n]? = some req ∧ Accepted n req b.books b.handlers

section Fate

variable (firstMediaCodec : Text → MediaKind → Option Codec) {n : Nat} {req : Signal} {b : Books}

/-- What is noted under `tag` counts for the message of that number only. -/
theorem responses_of_sent {b' : Books} {tag : Option Nat} {es : List Event}
    (hsent : b'.sent = b.sent ++ es.map fun e => (tag, e)) :
    b'.responses n = b.responses n ++ if tag = some n then correlated es else [] := by
  rw [Books.responses, hsent, List.filterMap_append]
  congr 1
  rw [List.filterMap_map]
  by_cases htag : tag = some n
  · simp [htag, correlated]
  · simp [htag]

/-- **A step of the message's own handler.** -/
theorem accepted_own {h : Handler} (hreq : h.req = some req) (hblank : b.Blank n) (o : Outcome)
    {rest : List (Option Nat × Handler)} (hrest : mine n rest = []) :
    Accepted n req (b.step firstMediaCodec (some n, h) o).1
      ((b.step firstMediaCodec (some n, h) o).2.toList ++ rest) := by
  obtain ⟨es, hlog, hends⟩ := step_responds (s := b.shared) firstMediaCodec hreq o
  obtain ⟨hresponses, hescaped⟩ := hblank
  have hsent : (b.step firstMediaCodec (some n, h) o).1.sent
      = b.sent ++ es.map fun e => (some n, e) := by
    simp [Books.step, hlog]
  have hnow := responses_of_sent (n := n) hsent
  rw [hresponses, if_pos rfl, List.nil_append] at hnow
  cases hnext : (h.step firstMediaCodec b.shared o).2 with
  | some h' =>
    rw [hnext] at hends
    obtain ⟨hreq', hthrew, hsilent⟩ := hends
    refine .inl ⟨h', ?_, hreq', hnow.trans hsilent, ?_⟩
    · simpa [Books.step, hnext, mine] using hrest
    · simpa [Books.step, hthrew] using hescaped
  | none =>
    rw [hnext] at hends
    refine .inr ⟨by simpa [Books.step, hnext] using hrest, ?_⟩
    cases hthrew : h.throws b.shared o with
    | true =>
      simp only [hthrew, if_true] at hends
      have hin : some n ∈ (b.step firstMediaCodec (some n, h) o).1.escaped := by
        simp [Books.step, hthrew]
      rw [Books.Verdict, if_pos hin]
      refine ⟨hnow.trans hends.1, ?_⟩
      rw [hsent]
      exact List.mem_append_right _ (List.mem_map_of_mem hends.2)
    | false =>
      simp only [hthrew] at hends
      have hout : some n ∉ (b.step firstMediaCodec (some n, h) o).1.escaped := by
        simpa [Books.step, hthrew] using hescaped
      rw [Books.Verdict, if_neg hout]
      exact hnow.trans hends

theorem step_other {h : Option Nat × Handler} (hne : h.1 ≠ some n) (o : Outcome) :
    (b.step firstMediaCodec h o).1.responses n = b.responses n
      ∧ (some n ∈ (b.step firstMediaCodec h o).1.escaped ↔ some n ∈ b.escaped)
      ∧ b.sent ⊆ (b.step firstMediaCodec h o).1.sent
      ∧ mine n (b.step firstMediaCodec h o).2.toList = [] := by
  refine ⟨?_, ?_, List.subset_append_left _ _, ?_⟩
  · rw [responses_of_sent (b := b) (n := n) rfl, if_neg hne, List.append_nil]
  · simp only [Books.step]
    split
    · simp [hne.symm]
    · rfl
  · simp only [Books.step, mine]
    cases (h.2.step firstMediaCodec b.shared o).2 <;> simp [hne]

theorem accepted_other {h : Option Nat × Handler} (hne : h.1 ≠ some n) (o : Outcome)
    {rest : List (Option Nat × Handler)} (hacc : Accepted n req b (h :: rest)) :
    Accepted n req (b.step firstMediaCodec h o).1
      ((b.step firstMediaCodec h o).2.toList ++ rest) := by
  obtain ⟨hresponses, hescaped, hsent, hleft⟩ := step_other firstMediaCodec hne o (b := b)
  have hmine : mine n ((b.step firstMediaCodec h o).2.toList ++ rest) = mine n (h :: rest) := by
    simp only [mine, List.filter_append, List.filter_cons] at hleft ⊢
    simp [hleft, hne]
  rw [Accepted, hmine, Books.Blank, Books.Verdict]
  simp only [hresponses, hescaped]
  refine hacc.imp_right fun ⟨hnone, hverdict⟩ => ⟨hnone, ?_⟩
  rw [Books.Verdict] at hverdict
  split at hverdict
  · next hin =>
    rw [if_pos hin]
    exact ⟨hverdict.1, hsent hverdict.2⟩
  · next hout =>
    rw [if_neg hout]
    exact hverdict

/-- **A step of any handler.** -/
theorem accepted_turn {handlers : List (Option Nat × Handler)} (i : Nat) (o : Outcome)
    (hacc : Accepted n req b handlers) :
    Accepted n req (turn (Books.step firstMediaCodec) b handlers i o).1
      (turn (Books.step firstMediaCodec) b handlers i o).2 := by
  refine turn_inv (I := Accepted n req) ?_ ?_ hacc
  · rintro s l l' hperm (⟨h, hmine, hin⟩ | ⟨hmine, hverdict⟩)
    · have hsame : [(some n, h)].Perm (mine n l') := hmine ▸ perm_mine hperm
      exact .inl ⟨h, (List.singleton_perm.mp hsame).symm, hin⟩
    · have hsame : [].Perm (mine n l') := hmine ▸ perm_mine hperm
      exact .inr ⟨hsame.nil_eq.symm, hverdict⟩
  · rintro ⟨tag, h⟩ rest - - hacc
    by_cases htag : tag = some n
    · subst htag
      have hhead : mine n ((some n, h) :: rest) = (some n, h) :: mine n rest := by simp [mine]
      rcases hacc with ⟨h', hmine, hreq, hblank⟩ | ⟨hmine, -⟩
      · obtain ⟨hh, hrest⟩ := List.cons.inj (hhead.symm.trans hmine)
        cases hh
        exact accepted_own firstMediaCodec hreq hblank o hrest
      · exact absurd (hhead.symm.trans hmine) (List.cons_ne_nil _ _)
    · exact accepted_other firstMediaCodec htag o hacc

/-- Before it arrives nobody notes anything under its number. -/
theorem absent_turn {handlers : List (Option Nat × Handler)} (i : Nat) (o : Outcome)
    (hnone : mine n handlers = []) (hblank : b.Blank n) :
    mine n (turn (Books.step firstMediaCodec) b handlers i o).2 = []
      ∧ (turn (Books.step firstMediaCodec) b handlers i o).1.Blank n := by
  refine turn_inv (I := fun (b : Books) hs => mine n hs = [] ∧ b.Blank n) ?_ ?_ ⟨hnone, hblank⟩
  · rintro s l l' hperm ⟨hmine, hblank⟩
    have hsame : [].Perm (mine n l') := hmine ▸ perm_mine hperm
    exact ⟨hsame.nil_eq.symm, hblank⟩
  · rintro h rest - - ⟨hmine, hblank⟩
    have hall := List.filter_eq_nil_iff.mp hmine
    have hne : h.1 ≠ some n := by simpa using hall h List.mem_cons_self
    have hrest : mine n rest = [] :=
      List.filter_eq_nil_iff.mpr fun h' hh' => hall h' (List.mem_cons_of_mem h hh')
    obtain ⟨hresponses, hescaped, -, hleft⟩ := step_other firstMediaCodec hne o (b := b)
    constructor
    · rw [mine, List.filter_append]
      exact List.append_eq_nil_iff.mpr ⟨hleft, hrest⟩
    · exact ⟨hresponses.trans hblank.1, fun hin => hblank.2 (hescaped.mp hin)⟩

theorem mine_join {handlers : List (Option Nat × Handler)} (tag : Option Nat) (htag : tag ≠ some n)
    (h : Handler) : mine n (handlers ++ [(tag, h)]) = mine n handlers := by
  simp [mine, htag]

/-- **One action.** -/
theorem fate_step {b : Booked} (hfate : Fate n b) (a : Act) :
    Fate n (b.step firstMediaCodec a) := by
  cases a with
  | message req =>
    cases hopen : b.socketOpen with
    | false => simpa [Booked.step, hopen] using hfate
    | true =>
      simp only [Booked.step, hopen, if_true]
      rcases hfate with ⟨hlen, hnone, hblank⟩ | ⟨req', hreq', hacc⟩
      · by_cases hn : b.arrived.length = n
        · -- this is message `n`
          subst hn
          refine .inr ⟨req, by simp, .inl ⟨⟨some req, .start⟩, ?_, rfl, hblank⟩⟩
          simpa [mine] using hnone
        · refine .inl ⟨?_, ?_, hblank⟩
          · simp only [List.length_append, List.length_singleton]
            omega
          · rw [mine_join _ (by simpa using hn)]
            exact hnone
      · have hlt : n < b.arrived.length := (List.getElem?_eq_some_iff.mp hreq').1
        refine .inr ⟨req', ?_, ?_⟩
        · rw [List.getElem?_append_left hlt]
          exact hreq'
        · have hother : some b.arrived.length ≠ some n := by simp [hlt.ne']
          rw [Accepted, mine_join _ hother]
          exact hacc
  | socketClosed =>
    cases hopen : b.socketOpen with
    | false => simpa [Booked.step, hopen] using hfate
    | true =>
      simp only [Booked.step, hopen, if_true, Fate, Accepted, mine_join none (by simp)]
      exact hfate
  | step i o =>
    rcases hfate with ⟨hlen, hnone, hblank⟩ | ⟨req, hreq, hacc⟩
    · exact .inl ⟨hlen, absent_turn firstMediaCodec i o hnone hblank⟩
    · exact .inr ⟨req, hreq, accepted_turn firstMediaCodec i o hacc⟩
  | consumer | rtp payload pt sequenceNumber timestamp => exact hfate

/-- **Every run**, from any state of the session. -/
theorem fate_run (s : Session) (acts : List Act) :
    Fate n (run (Booked.step firstMediaCodec) (.of s) acts) := by
  refine run_inv (I := Fate n) (fun b a hfate => fate_step firstMediaCodec hfate a) acts _
    (.inl ⟨?_, ?_, ?_⟩)
  · simp [Booked.of]
  · simp [Booked.of, mine]
  · simp [Books.Blank, Booked.of, Books.responses]

/-! ## 5. Request and response -/

/-- **Request/response correlation.**  From any state of a session and in any run, the handler of a
message that is done has sent exactly one response, with the transaction of the message, if and only
if no exception escaped from it.  Otherwise it has sent no response but an error event, which has no
transaction. -/
theorem response_iff (s : Session) (acts : List Act)
    (harrived : (run (Booked.step firstMediaCodec) (.of s) acts).arrived[n]? = some req)
    (hdone : (run (Booked.step firstMediaCodec) (.of s) acts).Done n) :
    ((run (Booked.step firstMediaCodec) (.of s) acts).books.responses n = [req.transaction]
        ↔ some n ∉ (run (Booked.step firstMediaCodec) (.of s) acts).books.escaped)
      ∧ (some n ∈ (run (Booked.step firstMediaCodec) (.of s) acts).books.escaped →
        (run (Booked.step firstMediaCodec) (.of s) acts).books.responses n = []
          ∧ (some n, .errorEvent)
            ∈ (run (Booked.step firstMediaCodec) (.of s) acts).books.sent) := by
  have hnone := done_iff.mp hdone
  have hverdict : (run (Booked.step firstMediaCodec) (.of s) acts).books.Verdict n req := by
    rcases fate_run (n := n) firstMediaCodec s acts with ⟨hlen, -⟩ | ⟨req', hreq', hacc⟩
    · have hlt := (List.getElem?_eq_some_iff.mp harrived).1
      omega
    · obtain rfl : req' = req := Option.some.inj (hreq'.symm.trans harrived)
      rcases hacc with ⟨h, hmine, -⟩ | ⟨-, hverdict⟩
      · exact absurd (hmine.symm.trans hnone) (List.cons_ne_nil _ _)
      · exact hverdict
  rw [Books.Verdict] at hverdict
  split at hverdict
  · next hin => simp [hin, hverdict]
  · next hout => simp [hout, hverdict]

end Fate

/-- An OFFER with a transaction. -/
def offerT : Signal := { offerReq with transaction := some "t".toList }

/-- A first OFFER, handled whole. -/
def offerRun : List Act := .message offerT :: (wholeOffer 0).tail

set_option maxRecDepth 4000 in
theorem response_iff_offer :
    (run (Booked.step anyCodec) (.of (.fresh 0)) offerRun).books.responses 0
      = [some "t".toList] := by
  have harrived : (run (Booked.step anyCodec) (.of (.fresh 0)) offerRun).arrived[0]?
      = some offerT := by
    decide
  have hdone : (run (Booked.step anyCodec) (.of (.fresh 0)) offerRun).Done 0 := by decide
  have hkept : some 0 ∉ (run (Booked.step anyCodec) (.of (.fresh 0)) offerRun).books.escaped := by
    decide
  exact (response_iff anyCodec (.fresh 0) offerRun harrived hdone).1.mpr hkept

/-- The engine refuses the remote description. -/
def refusedRun : List Act :=
  .message offerT :: List.replicate 5 (.step 0 .returns) ++ [.step 0 .throws]

/-- A CANDIDATE whose payload is `null`. -/
def nullRun : List Act :=
  [.message { action := some .candidate, transaction := some "t".toList, payload := none },
    .step 0 .returns]

/-- **An exception leaves a request without a response**: all that is sent is an error event. -/
theorem no_response_after_exception :
    (run (Booked.step anyCodec) (.of (.fresh 0)) refusedRun).arrived = [offerT]
      ∧ (run (Booked.step anyCodec) (.of (.fresh 0)) refusedRun).Done 0
      ∧ (run (Booked.step anyCodec) (.of (.fresh 0)) refusedRun).socketOpen = true
      ∧ (run (Booked.step anyCodec) (.of (.fresh 0)) refusedRun).books.responses 0 = []
      ∧ (run (Session.step anyCodec) (.fresh 0) refusedRun).shared.log
        = [.created 0, .called 0 .setRemoteDescription false, .errorEvent]
      -- the same for a payload that is null
      ∧ (run (Booked.step anyCodec) (.of (.fresh 0)) nullRun).Done 0
      ∧ (run (Session.step anyCodec) (.fresh 0) nullRun).shared.log = [.errorEvent] := by
  decide

end WebrtcBridge.Server
