/-
# JSON texts

Which texts are JSON.  The lexical level (the inside of strings, numbers) is two small automata;
the nested level is a grammar, `Derives`, with white space where it is allowed.

To show that a text is JSON one derives it.  To show that a text is NOT, derivations are no help,
so there is a recogniser besides: a pushdown automaton that reads one character at a time.  It
accepts everything the grammar derives (`Derives.accepted`), hence a text on which it gets stuck
is not JSON, and since it is deterministic the place where it gets stuck is fixed by what came
before.
-/
import WebrtcBridge.Lib.Text

namespace WebrtcBridge.Lib.Json

open Lib

/-! ## 1. Automata -/

section

variable {σ : Type}

/-- Run an automaton over a text; `none` is stuck. -/
def feed (step : σ → Char → Option σ) : σ → Text → Option σ
  | s, [] => some s
  | s, c :: cs => (step s c).bind fun s' => feed step s' cs

variable {step : σ → Char → Option σ}

theorem feed_append : ∀ (u v : Text) (s : σ),
    feed step s (u ++ v) = (feed step s u).bind fun s' => feed step s' v
  | [], _, _ => rfl
  | c :: u, v, s => by
    rw [List.cons_append, feed, feed]
    cases step s c with
    | none => rfl
    | some s' => exact feed_append u v s'

/-- Go on from where a part of the text has led. -/
theorem feed_of_feed {u v : Text} {s s' : σ} (h : feed step s u = some s') :
    feed step s (u ++ v) = feed step s' v := by
  rw [feed_append, h]
  rfl

end

/-! ## 2. Strings and numbers -/

/-- Inside a string: at a plain place, behind a backslash, or with hex digits to come. -/
inductive StrMode
  | plain
  | escape
  | hex (more : Nat)
  deriving DecidableEq, Repr

def isHexDigit (c : Char) : Bool :=
  c.isDigit || ('a' ≤ c && c ≤ 'f') || ('A' ≤ c && c ≤ 'F')

/-- A character inside a string: no control characters, no quote, and escapes as defined. -/
def strStep : StrMode → Char → Option StrMode
  | .plain, c =>
    if c = '\\' then some .escape else if c = '"' ∨ c < ' ' then none else some .plain
  | .escape, c =>
    if c = 'u' then some (.hex 3)
    else if c ∈ ['"', '\\', '/', 'b', 'f', 'n', 'r', 't'] then some .plain else none
  | .hex 0, c => if isHexDigit c then some .plain else none
  | .hex (n + 1), c => if isHexDigit c then some (.hex n) else none

/-- What can stand between the quotes of a string. -/
def StringBody (s : Text) : Prop := feed strStep .plain s = some .plain

instance (s : Text) : Decidable (StringBody s) :=
  inferInstanceAs (Decidable (feed strStep .plain s = some .plain))

/-- Inside a number. -/
inductive NumMode
  | start
  | minus
  | zero
  | int
  | point
  | frac
  | exp
  | expSign
  | expDigits
  deriving DecidableEq, Repr

def numStep : NumMode → Char → Option NumMode
  | .start, c =>
    if c = '-' then some .minus
    else if c = '0' then some .zero else if c.isDigit then some .int else none
  | .minus, c => if c = '0' then some .zero else if c.isDigit then some .int else none
  | .zero, c => if c = '.' then some .point else if c = 'e' ∨ c = 'E' then some .exp else none
  | .int, c =>
    if c.isDigit then some .int
    else if c = '.' then some .point else if c = 'e' ∨ c = 'E' then some .exp else none
  | .point, c => if c.isDigit then some .frac else none
  | .frac, c =>
    if c.isDigit then some .frac else if c = 'e' ∨ c = 'E' then some .exp else none
  | .exp, c =>
    if c = '+' ∨ c = '-' then some .expSign else if c.isDigit then some .expDigits else none
  | .expSign, c => if c.isDigit then some .expDigits else none
  | .expDigits, c => if c.isDigit then some .expDigits else none

/-- A number can end here. -/
def NumMode.accepting : NumMode → Bool
  | .zero | .int | .frac | .expDigits => true
  | _ => false

/-- A number. -/
def Number (s : Text) : Prop := ∃ m, feed numStep .start s = some m ∧ m.accepting = true

/-! ## 3. The grammar -/

/-- White space. -/
def isSpace (c : Char) : Bool := c = ' ' || c = '\t' || c = '\n' || c = '\r'

def Space (w : Text) : Prop := ∀ c ∈ w, isSpace c = true

/-- `true`, `false` and `null`. -/
def literals : List Text := ["true".toList, "false".toList, "null".toList]

/-- The parts of a JSON text. -/
inductive Part
  | value
  | padded
  | elements
  | member
  | members
  deriving DecidableEq, Repr

/-- **The grammar of JSON.** -/
inductive Derives : Part → Text → Prop
  | string {s : Text} : StringBody s → Derives .value ('"' :: (s ++ ['"']))
  | number {s : Text} : Number s → Derives .value s
  | literal {s : Text} : s ∈ literals → Derives .value s
  | emptyArray {w : Text} : Space w → Derives .value ('[' :: (w ++ [']']))
  | array {es : Text} : Derives .elements es → Derives .value ('[' :: (es ++ [']']))
  | emptyObject {w : Text} : Space w → Derives .value ('\x7b' :: (w ++ ['\x7d']))
  | object {ms : Text} : Derives .members ms → Derives .value ('\x7b' :: (ms ++ ['\x7d']))
  | padded {w v w' : Text} : Space w → Derives .value v → Space w'
      → Derives .padded (w ++ (v ++ w'))
  | element {v : Text} : Derives .padded v → Derives .elements v
  | elements {v es : Text} : Derives .padded v → Derives .elements es →
      Derives .elements (v ++ ',' :: es)
  | pair {w k w' v : Text} : Space w → StringBody k → Space w' → Derives .padded v →
      Derives .member (w ++ '"' :: (k ++ '"' :: (w' ++ ':' :: v)))
  | member {m : Text} : Derives .member m → Derives .members m
  | members {m ms : Text} : Derives .member m → Derives .members ms →
      Derives .members (m ++ ',' :: ms)

/-- A JSON array. -/
def IsArray (t : Text) : Prop := Derives .value t ∧ t.head? = some '['

theorem space_nil : Space [] := by
  intro c hc
  cases hc

theorem Derives.bare {v : Text} (h : Derives .value v) : Derives .padded v := by
  have hp := Derives.padded space_nil h space_nil
  rwa [List.nil_append, List.append_nil] at hp

/-- A key and a value, without white space. -/
def pairText (kv : Text × Text) : Text := '"' :: (kv.1 ++ '"' :: ':' :: kv.2)

/-- More pairs behind a pair, and the brace that ends the object. -/
def closeObject : List (Text × Text) → Text
  | [] => ['\x7d']
  | kv :: kvs => ',' :: (pairText kv ++ closeObject kvs)

/-- An object of keys and values, without white space. -/
def objectText : List (Text × Text) → Text
  | [] => ['\x7b', '\x7d']
  | kv :: kvs => '\x7b' :: (pairText kv ++ closeObject kvs)

/-- More elements behind an element, and the bracket that ends the array. -/
def closeArray : List Text → Text
  | [] => [']']
  | v :: vs => ',' :: (v ++ closeArray vs)

/-- An array, without white space. -/
def arrayText : List Text → Text
  | [] => ['[', ']']
  | v :: vs => '[' :: (v ++ closeArray vs)

/-- What stands between the braces of an object. -/
def joinPairs : List (Text × Text) → Text
  | [] => []
  | [kv] => pairText kv
  | kv :: kv' :: kvs => pairText kv ++ ',' :: joinPairs (kv' :: kvs)

/-- Pairs with a comma behind each, and then something else. -/
def pairsThen : List (Text × Text) → Text → Text
  | [], rest => rest
  | kv :: kvs, rest => pairText kv ++ ',' :: pairsThen kvs rest

/-- Values with a comma behind each, and then something else. -/
def valuesThen : List Text → Text → Text
  | [], rest => rest
  | v :: vs, rest => v ++ ',' :: valuesThen vs rest

theorem pairsThen_append : ∀ (kvs : List (Text × Text)) (x y : Text),
    pairsThen kvs (x ++ y) = pairsThen kvs x ++ y
  | [], _, _ => rfl
  | kv :: kvs, x, y => by simp [pairsThen, pairsThen_append kvs x y]

theorem joinPairs_close : ∀ (kv : Text × Text) (kvs : List (Text × Text)),
    pairText kv ++ closeObject kvs = joinPairs (kv :: kvs) ++ ['\x7d']
  | _, [] => rfl
  | kv, kv' :: kvs => by
    rw [closeObject, joinPairs_close kv' kvs, joinPairs, List.append_assoc, List.cons_append]

theorem objectText_eq (kvs : List (Text × Text)) :
    objectText kvs = '\x7b' :: (joinPairs kvs ++ ['\x7d']) := by
  cases kvs with
  | nil => rfl
  | cons kv kvs => rw [objectText, joinPairs_close]

theorem closeObject_append : ∀ (pre : List (Text × Text)) (kv : Text × Text)
    (post : List (Text × Text)),
    closeObject (pre ++ kv :: post) = ',' :: pairsThen pre (pairText kv ++ closeObject post)
  | [], _, _ => rfl
  | x :: pre, kv, post => by
    rw [List.cons_append, closeObject, closeObject_append pre kv post, pairsThen]

theorem objectText_append (pre : List (Text × Text)) (kv : Text × Text)
    (post : List (Text × Text)) :
    objectText (pre ++ kv :: post) = '\x7b' :: pairsThen pre (pairText kv ++ closeObject post) := by
  cases pre with
  | nil => rfl
  | cons x pre => rw [List.cons_append, objectText, closeObject_append, pairsThen]

theorem closeArray_append : ∀ (pre : List Text) (v : Text) (post : List Text),
    closeArray (pre ++ v :: post) = ',' :: valuesThen pre (v ++ closeArray post)
  | [], _, _ => rfl
  | x :: pre, v, post => by
    rw [List.cons_append, closeArray, closeArray_append pre v post, valuesThen]

theorem closeArray_last : ∀ vs : List Text, ∃ u, closeArray vs = u ++ [']']
  | [] => ⟨[], rfl⟩
  | v :: vs => by
    obtain ⟨u, hu⟩ := closeArray_last vs
    exact ⟨',' :: (v ++ u), by rw [closeArray, hu]; simp⟩

theorem arrayText_append (pre : List Text) (v : Text) (post : List Text) :
    arrayText (pre ++ v :: post) = '[' :: valuesThen pre (v ++ closeArray post) := by
  cases pre with
  | nil => rfl
  | cons x pre => rw [List.cons_append, arrayText, closeArray_append, valuesThen]

theorem derives_pair {kv : Text × Text} (hk : StringBody kv.1) (hv : Derives .value kv.2) :
    Derives .member (pairText kv) :=
  Derives.pair space_nil hk space_nil hv.bare

theorem derives_joinPairs : ∀ {kv : Text × Text} {kvs : List (Text × Text)},
    (∀ x ∈ kv :: kvs, StringBody x.1 ∧ Derives .value x.2) →
    Derives .members (joinPairs (kv :: kvs))
  | kv, [], h => by
    have hkv := h kv (by simp)
    exact Derives.member (derives_pair hkv.1 hkv.2)
  | kv, kv' :: kvs, h => by
    have hkv := h kv (by simp)
    exact Derives.members (derives_pair hkv.1 hkv.2)
      (derives_joinPairs fun x hx => h x (List.mem_cons_of_mem kv hx))

/-- **An object** of good keys and values is JSON. -/
theorem derives_objectText {kvs : List (Text × Text)}
    (h : ∀ kv ∈ kvs, StringBody kv.1 ∧ Derives .value kv.2) : Derives .value (objectText kvs) := by
  rw [objectText_eq]
  cases kvs with
  | nil => exact Derives.emptyObject space_nil
  | cons kv kvs => exact Derives.object (derives_joinPairs h)

theorem derives_elements : ∀ {v : Text} {vs : List Text}, (∀ x ∈ v :: vs, Derives .value x) →
    ∃ es, Derives .elements es ∧ v ++ closeArray vs = es ++ [']']
  | v, [], h => ⟨v, Derives.element (h v (by simp)).bare, rfl⟩
  | v, v' :: vs, h => by
    obtain ⟨es, hes, htext⟩ := derives_elements fun x hx => h x (List.mem_cons_of_mem v hx)
    refine ⟨v ++ ',' :: es, Derives.elements (h v (by simp)).bare hes, ?_⟩
    rw [closeArray, htext, List.append_assoc, List.cons_append]

/-- **An array** of JSON values is JSON. -/
theorem isArray_arrayText {vs : List Text} (h : ∀ v ∈ vs, Derives .value v) :
    IsArray (arrayText vs) := by
  cases vs with
  | nil => exact ⟨Derives.emptyArray space_nil, rfl⟩
  | cons v vs =>
    obtain ⟨es, hes, htext⟩ := derives_elements h
    refine ⟨?_, rfl⟩
    rw [arrayText, htext]
    exact Derives.array hes

/-! ## 4. The recogniser -/

/-- What encloses the place. -/
inductive Frame
  | array
  | object
  deriving DecidableEq, Repr

/-- What may come next. -/
inductive Mode
  | value
  | valueOrClose
  | key
  | keyOrClose
  | colon
  | afterValue
  | str (isKey : Bool) (m : StrMode)
  | num (m : NumMode)
  | lit (rest : Text)
  deriving DecidableEq, Repr

structure Pda where
  mode : Mode
  stack : List Frame
  deriving DecidableEq, Repr

/-- The first character of a value. -/
def startValue (stack : List Frame) (c : Char) : Option Pda :=
  if c = '"' then some ⟨.str false .plain, stack⟩
  else if c = '[' then some ⟨.valueOrClose, .array :: stack⟩
  else if c = '\x7b' then some ⟨.keyOrClose, .object :: stack⟩
  else if c = 't' then some ⟨.lit "rue".toList, stack⟩
  else if c = 'f' then some ⟨.lit "alse".toList, stack⟩
  else if c = 'n' then some ⟨.lit "ull".toList, stack⟩
  else (numStep .start c).map fun m => ⟨.num m, stack⟩

/-- A character behind a value. -/
def stepAfter (stack : List Frame) (c : Char) : Option Pda :=
  if isSpace c then some ⟨.afterValue, stack⟩
  else match stack with
    | .array :: rest =>
      if c = ',' then some ⟨.value, stack⟩ else if c = ']' then some ⟨.afterValue, rest⟩ else none
    | .object :: rest =>
      if c = ',' then some ⟨.key, stack⟩ else if c = '\x7d' then some ⟨.afterValue, rest⟩ else none
    | [] => none

def step (p : Pda) (c : Char) : Option Pda :=
  match p.mode with
  | .value => if isSpace c then some p else startValue p.stack c
  | .valueOrClose =>
    if isSpace c then some p
    else if c = ']' then some ⟨.afterValue, p.stack.tail⟩ else startValue p.stack c
  | .key => if isSpace c then some p else if c = '"' then some ⟨.str true .plain, p.stack⟩ else none
  | .keyOrClose =>
    if isSpace c then some p
    else if c = '\x7d' then some ⟨.afterValue, p.stack.tail⟩
    else if c = '"' then some ⟨.str true .plain, p.stack⟩ else none
  | .colon => if isSpace c then some p else if c = ':' then some ⟨.value, p.stack⟩ else none
  | .afterValue => stepAfter p.stack c
  | .str isKey m =>
    if m = .plain ∧ c = '"' then some ⟨if isKey then .colon else .afterValue, p.stack⟩
    else (strStep m c).map fun m' => ⟨.str isKey m', p.stack⟩
  | .num m =>
    match numStep m c with
    | some m' => some ⟨.num m', p.stack⟩
    | none => if m.accepting then stepAfter p.stack c else none
  | .lit [] => none
  | .lit (x :: rest) =>
    if c = x then some ⟨if rest.isEmpty then .afterValue else .lit rest, p.stack⟩ else none

/-! ## 5. What the grammar derives is accepted -/

/-- A value has been read completely. -/
def Done (stack : List Frame) (p : Pda) : Prop :=
  p.stack = stack ∧ (p.mode = .afterValue ∨ ∃ m, p.mode = .num m ∧ m.accepting = true)

/-- The characters that can follow a value. -/
def endsValue (c : Char) : Bool := isSpace c || c = ',' || c = ']' || c = '\x7d'

theorem numStep_endsValue {m : NumMode} {c : Char} (h : endsValue c = true) :
    numStep m c = none := by
  simp only [endsValue, isSpace, Bool.or_eq_true, decide_eq_true_eq] at h
  rcases h with (((((rfl | rfl) | rfl) | rfl) | rfl) | rfl) | rfl <;> cases m <;> rfl

/-- Behind a value all accepted states are alike. -/
theorem Done.step_eq {stack : List Frame} {p : Pda} (h : Done stack p) {c : Char}
    (hc : endsValue c = true) : step p c = stepAfter stack c := by
  obtain ⟨mode, pstack⟩ := p
  obtain ⟨hstack, hmode⟩ := h
  simp only at hstack hmode
  subst hstack
  rcases hmode with rfl | ⟨m, rfl, hm⟩
  · rfl
  · simp only [step, numStep_endsValue hc, hm, if_true]

theorem done_afterValue (stack : List Frame) : Done stack ⟨.afterValue, stack⟩ := ⟨rfl, .inl rfl⟩

theorem Done.feed_space {stack : List Frame} : ∀ {w : Text} {p : Pda}, Done stack p → Space w →
    ∃ p', feed step p w = some p' ∧ Done stack p'
  | [], p, h, _ => ⟨p, rfl, h⟩
  | c :: w, p, h, hw => by
    have hc : isSpace c = true := hw c (by simp)
    have hstep : step p c = some ⟨.afterValue, stack⟩ := by
      rw [h.step_eq (by simp [endsValue, hc])]
      exact if_pos hc
    obtain ⟨p', hrun, hdone⟩ := Done.feed_space (done_afterValue stack)
      (fun x hx => hw x (List.mem_cons_of_mem c hx) : Space w)
    exact ⟨p', by rw [feed, hstep]; exact hrun, hdone⟩

/-- White space where the recogniser just waits. -/
theorem feed_waiting {mode : Mode} {stack : List Frame}
    (h : mode = .value ∨ mode = .valueOrClose ∨ mode = .key ∨ mode = .keyOrClose ∨ mode = .colon) :
    ∀ {w : Text} (rest : Text), Space w →
    feed step ⟨mode, stack⟩ (w ++ rest) = feed step ⟨mode, stack⟩ rest
  | [], _, _ => rfl
  | c :: w, rest, hw => by
    have hc : isSpace c = true := hw c (by simp)
    have hstep : step ⟨mode, stack⟩ c = some ⟨mode, stack⟩ := by
      rcases h with rfl | rfl | rfl | rfl | rfl <;> simp only [step, hc, if_true]
    rw [List.cons_append, feed, hstep]
    exact feed_waiting h rest fun x hx => hw x (List.mem_cons_of_mem c hx)

theorem feed_str (isKey : Bool) (stack : List Frame) : ∀ {s : Text} {m m' : StrMode},
    feed strStep m s = some m' →
    feed step ⟨.str isKey m, stack⟩ s = some ⟨.str isKey m', stack⟩
  | [], m, m', h => by
    simp only [feed, Option.some.injEq] at h
    rw [h]
    rfl
  | c :: s, m, m', h => by
    rw [feed] at h
    obtain ⟨m₁, hm₁, hrest⟩ := Option.bind_eq_some_iff.mp h
    have hnot : ¬ (m = .plain ∧ c = '"') := by
      rintro ⟨rfl, rfl⟩
      simp [strStep] at hm₁
    rw [feed, step]
    simp only [hnot, if_false, hm₁, Option.map_some, Option.bind_some]
    exact feed_str isKey stack hrest

theorem feed_stringBody (isKey : Bool) (stack : List Frame) {s : Text} (hs : StringBody s)
    (rest : Text) :
    feed step ⟨.str isKey .plain, stack⟩ (s ++ '"' :: rest)
      = feed step ⟨if isKey then .colon else .afterValue, stack⟩ rest := by
  rw [feed_of_feed (feed_str isKey stack hs), feed, step]
  simp

theorem feed_num (stack : List Frame) : ∀ {s : Text} {m m' : NumMode}, feed numStep m s = some m' →
    feed step ⟨.num m, stack⟩ s = some ⟨.num m', stack⟩
  | [], m, m', h => by
    simp only [feed, Option.some.injEq] at h
    rw [h]
    rfl
  | c :: s, m, m', h => by
    rw [feed] at h
    obtain ⟨m₁, hm₁, hrest⟩ := Option.bind_eq_some_iff.mp h
    rw [feed, step]
    simp only [hm₁, Option.bind_some]
    exact feed_num stack hrest

/-- The modes in which a value can start. -/
def AwaitsValue (mode : Mode) : Prop := mode = .value ∨ mode = .valueOrClose

/-- The first character of a number is none of the others a value can start with. -/
theorem startValue_num (stack : List Frame) {c : Char} {m : NumMode}
    (h : numStep .start c = some m) :
    startValue stack c = some ⟨.num m, stack⟩ ∧ isSpace c = false ∧ c ≠ ']' := by
  have hfirst : c = '-' ∨ c.isDigit = true := by
    simp only [numStep] at h
    by_cases hminus : c = '-'
    · exact .inl hminus
    · by_cases hdigit : c.isDigit = true
      · exact .inr hdigit
      · by_cases hzero : c = '0'
        · exact .inr (hzero ▸ rfl)
        · simp [hminus, hdigit, hzero] at h
  have hother : ∀ d : Char, d ≠ '-' → d.isDigit = false → c ≠ d := by
    rintro d hd hdd rfl
    rcases hfirst with h1 | h1
    · exact hd h1
    · rw [hdd] at h1
      cases h1
  have hspace : isSpace c = false := by
    simp only [isSpace, Bool.or_eq_false_iff, decide_eq_false_iff_not]
    exact ⟨⟨⟨hother ' ' (by decide) (by decide), hother '\t' (by decide) (by decide)⟩,
      hother '\n' (by decide) (by decide)⟩, hother '\r' (by decide) (by decide)⟩
  refine ⟨?_, hspace, hother ']' (by decide) (by decide)⟩
  simp only [startValue, hother '"' (by decide) (by decide), hother '[' (by decide) (by decide),
    hother '\x7b' (by decide) (by decide), hother 't' (by decide) (by decide),
    hother 'f' (by decide) (by decide), hother 'n' (by decide) (by decide), if_false, h,
    Option.map_some]

theorem step_start {mode : Mode} (hmode : AwaitsValue mode) (stack : List Frame) {c : Char}
    (hspace : isSpace c = false) (hclose : c ≠ ']') :
    step ⟨mode, stack⟩ c = startValue stack c := by
  rcases hmode with rfl | rfl
  · simp only [step, hspace, Bool.false_eq_true, if_false]
  · simp only [step, hspace, Bool.false_eq_true, if_false, hclose]

/-- The modes in which a key can start. -/
def AwaitsKey (mode : Mode) : Prop := mode = .key ∨ mode = .keyOrClose

/-- What each part of a text does to the recogniser. -/
def Accepted : Part → Text → Prop
  | .value, t | .padded, t => ∀ mode stack, AwaitsValue mode →
      ∃ p, feed step ⟨mode, stack⟩ t = some p ∧ Done stack p
  | .elements, t => ∀ mode stack, AwaitsValue mode →
      ∃ p, feed step ⟨mode, .array :: stack⟩ t = some p ∧ Done (.array :: stack) p
  | .member, t | .members, t => ∀ mode stack, AwaitsKey mode →
      ∃ p, feed step ⟨mode, .object :: stack⟩ t = some p ∧ Done (.object :: stack) p

theorem feed_start {mode : Mode} (hmode : AwaitsValue mode) (stack : List Frame)
    {c : Char} {p : Pda}
    (hspace : isSpace c = false) (hclose : c ≠ ']') (hc : startValue stack c = some p)
    (rest : Text) :
    feed step ⟨mode, stack⟩ (c :: rest) = feed step p rest := by
  rw [feed, step_start hmode stack hspace hclose, hc]
  rfl

theorem Done.feed_cons {stack : List Frame} {p p' : Pda} (h : Done stack p) {c : Char}
    (hc : endsValue c = true) (hstep : stepAfter stack c = some p') (rest : Text) :
    feed step p (c :: rest) = feed step p' rest := by
  rw [feed, h.step_eq hc, hstep]
  rfl

theorem accepted_number {s : Text} (h : Number s) : Accepted .value s := by
  intro mode stack hmode
  obtain ⟨m, hrun, hm⟩ := h
  cases s with
  | nil =>
    simp only [feed, Option.some.injEq] at hrun
    subst hrun
    cases hm
  | cons c s =>
    rw [feed] at hrun
    obtain ⟨m₁, hm₁, hrest⟩ := Option.bind_eq_some_iff.mp hrun
    obtain ⟨hstart, hspace, hclose⟩ := startValue_num stack hm₁
    exact ⟨⟨.num m, stack⟩, by rw [feed_start hmode stack hspace hclose hstart,
      feed_num stack hrest], rfl, .inr ⟨m, rfl, hm⟩⟩

theorem accepted_literal {s : Text} (h : s ∈ literals) : Accepted .value s := by
  intro mode stack hmode
  refine ⟨⟨.afterValue, stack⟩, ?_, done_afterValue stack⟩
  simp only [literals, List.mem_cons, List.not_mem_nil, or_false] at h
  rcases h with rfl | rfl | rfl <;> rcases hmode with rfl | rfl <;> rfl

/-- **Everything the grammar derives is accepted.** -/
theorem Derives.accepted {part : Part} {t : Text} (h : Derives part t) : Accepted part t := by
  induction h with
  | @string s hs =>
    intro mode stack hmode
    refine ⟨⟨.afterValue, stack⟩, ?_, done_afterValue stack⟩
    rw [feed_start hmode stack rfl (by decide) rfl, feed_stringBody false stack hs]
    rfl
  | number hs => exact accepted_number hs
  | literal hs => exact accepted_literal hs
  | @emptyArray w hw =>
    intro mode stack hmode
    refine ⟨⟨.afterValue, stack⟩, ?_, done_afterValue stack⟩
    rw [feed_start hmode stack rfl (by decide) rfl, feed_waiting (by simp) _ hw]
    rfl
  | @array es _ ih =>
    intro mode stack hmode
    obtain ⟨p, hrun, hdone⟩ := ih .valueOrClose stack (.inr rfl)
    refine ⟨⟨.afterValue, stack⟩, ?_, done_afterValue stack⟩
    rw [feed_start hmode stack rfl (by decide) rfl, feed_of_feed hrun, hdone.feed_cons rfl rfl]
    rfl
  | @emptyObject w hw =>
    intro mode stack hmode
    refine ⟨⟨.afterValue, stack⟩, ?_, done_afterValue stack⟩
    rw [feed_start hmode stack rfl (by decide) rfl, feed_waiting (by simp) _ hw]
    rfl
  | @object ms _ ih =>
    intro mode stack hmode
    obtain ⟨p, hrun, hdone⟩ := ih .keyOrClose stack (.inr rfl)
    refine ⟨⟨.afterValue, stack⟩, ?_, done_afterValue stack⟩
    rw [feed_start hmode stack rfl (by decide) rfl, feed_of_feed hrun, hdone.feed_cons rfl rfl]
    rfl
  | @padded w v w' hw _ hw' ih =>
    intro mode stack hmode
    obtain ⟨p, hrun, hdone⟩ := ih mode stack hmode
    obtain ⟨p', hrun', hdone'⟩ := hdone.feed_space hw'
    refine ⟨p', ?_, hdone'⟩
    have hwait : mode = .value ∨ mode = .valueOrClose ∨ mode = .key ∨ mode = .keyOrClose
        ∨ mode = .colon := by
      rcases hmode with h | h
      · exact .inl h
      · exact .inr (.inl h)
    rw [feed_waiting hwait _ hw, feed_of_feed hrun, hrun']
  | element _ ih =>
    intro mode stack hmode
    exact ih mode (.array :: stack) hmode
  | @elements v es _ _ ihv ihes =>
    intro mode stack hmode
    obtain ⟨p, hrun, hdone⟩ := ihv mode (.array :: stack) hmode
    obtain ⟨p', hrun', hdone'⟩ := ihes .value stack (.inl rfl)
    refine ⟨p', ?_, hdone'⟩
    rw [feed_of_feed hrun, hdone.feed_cons rfl rfl, hrun']
  | @pair w k w' v hw hk hw' _ ih =>
    intro mode stack hmode
    obtain ⟨p, hrun, hdone⟩ := ih .value (.object :: stack) (.inl rfl)
    refine ⟨p, ?_, hdone⟩
    have hquote : ∀ rest, feed step ⟨mode, .object :: stack⟩ (w ++ '"' :: rest)
        = feed step ⟨.str true .plain, .object :: stack⟩ rest := by
      intro rest
      rcases hmode with rfl | rfl
      · rw [feed_waiting (by simp) _ hw]
        rfl
      · rw [feed_waiting (by simp) _ hw]
        rfl
    rw [hquote, feed_stringBody true _ hk, if_pos rfl, feed_waiting (by simp) _ hw', feed]
    exact hrun
  | member _ ih => exact ih
  | @members m ms _ _ ihm ihms =>
    intro mode stack hmode
    obtain ⟨p, hrun, hdone⟩ := ihm mode stack hmode
    obtain ⟨p', hrun', hdone'⟩ := ihms .key stack (.inl rfl)
    refine ⟨p', ?_, hdone'⟩
    rw [feed_of_feed hrun, hdone.feed_cons rfl rfl, hrun']

/-- **A text on which the recogniser gets stuck is not JSON.** -/
theorem not_derives_of_stuck {t : Text} (h : feed step ⟨.value, []⟩ t = none) :
    ¬ Derives .value t := by
  intro hd
  obtain ⟨p, hrun, -⟩ := hd.accepted .value [] (.inl rfl)
  rw [h] at hrun
  cases hrun

theorem not_derives_nil : ¬ Derives .value [] := by
  intro hd
  obtain ⟨p, hrun, hstack, hmode⟩ := hd.accepted .value [] (.inl rfl)
  simp only [feed, Option.some.injEq] at hrun
  subst hrun
  rcases hmode with hmode | ⟨m, hmode, -⟩ <;> cases hmode

/-! ## 6. Where it gets stuck -/

/-- Values and commas lead to where the next value is awaited. -/
theorem feed_valuesThen (stack : List Frame) (rest : Text) : ∀ {vs : List Text} {mode : Mode},
    AwaitsValue mode → (∀ v ∈ vs, Derives .value v) →
    feed step ⟨mode, .array :: stack⟩ (valuesThen vs rest)
      = feed step ⟨if vs.isEmpty then mode else .value, .array :: stack⟩ rest
  | [], _, _, _ => rfl
  | v :: vs, mode, hmode, hvs => by
    obtain ⟨p, hrun, hdone⟩ := (hvs v (by simp)).accepted mode (.array :: stack) hmode
    have ih := feed_valuesThen stack rest (.inl rfl : AwaitsValue .value)
      fun x hx => hvs x (List.mem_cons_of_mem v hx)
    rw [valuesThen, feed_of_feed hrun, hdone.feed_cons rfl rfl, ih]
    simp

/-- Pairs and commas lead to where the next key is awaited. -/
theorem feed_pairsThen (stack : List Frame) (rest : Text) :
    ∀ {kvs : List (Text × Text)} {mode : Mode},
    AwaitsKey mode → (∀ kv ∈ kvs, StringBody kv.1 ∧ Derives .value kv.2) →
    ∃ mode', AwaitsKey mode' ∧ feed step ⟨mode, .object :: stack⟩ (pairsThen kvs rest)
      = feed step ⟨mode', .object :: stack⟩ rest
  | [], mode, hmode, _ => ⟨mode, hmode, rfl⟩
  | kv :: kvs, mode, hmode, hkvs => by
    have hkv := hkvs kv (by simp)
    obtain ⟨p, hrun, hdone⟩ := (derives_pair hkv.1 hkv.2).accepted mode stack hmode
    obtain ⟨mode', hmode', ih⟩ := feed_pairsThen stack rest (.inl rfl : AwaitsKey .key)
      fun x hx => hkvs x (List.mem_cons_of_mem kv hx)
    exact ⟨mode', hmode', by rw [pairsThen, feed_of_feed hrun, hdone.feed_cons rfl rfl, ih]⟩

/-- **Into a string value of an object**: behind good pairs, a key and the opening quote. -/
theorem feed_into_string (stack : List Frame) (rest : Text) {kvs : List (Text × Text)} {key : Text}
    {mode : Mode} (hmode : AwaitsValue mode)
    (hkvs : ∀ kv ∈ kvs, StringBody kv.1 ∧ Derives .value kv.2) (hkey : StringBody key) :
    feed step ⟨mode, stack⟩ ('\x7b' :: pairsThen kvs ('"' :: (key ++ '"' :: ':' :: '"' :: rest)))
      = feed step ⟨.str false .plain, .object :: stack⟩ rest := by
  obtain ⟨mode', hmode', hrun⟩ := feed_pairsThen stack ('"' :: (key ++ '"' :: ':' :: '"' :: rest))
    (.inr rfl : AwaitsKey .keyOrClose) hkvs
  have hquote : step ⟨mode', .object :: stack⟩ '"' = some ⟨.str true .plain, .object :: stack⟩ := by
    rcases hmode' with rfl | rfl <;> rfl
  rw [feed_start hmode stack rfl (by decide) rfl, hrun, feed, hquote, Option.bind_some,
    feed_stringBody true _ hkey]
  rfl

/-- A string without quotes that goes wrong inside. -/
theorem feed_str_stuck (isKey : Bool) (stack : List Frame) : ∀ {s : Text} {m : StrMode}, '"' ∉ s →
    feed strStep m s = none → feed step ⟨.str isKey m, stack⟩ s = none
  | [], _, _, h => by cases h
  | c :: s, m, hquote, h => by
    have hc : ¬ (m = .plain ∧ c = '"') := by
      rintro ⟨-, rfl⟩
      exact hquote (List.mem_cons_self ..)
    rw [feed, step]
    simp only [hc, if_false]
    rw [feed] at h
    cases hstep : strStep m c with
    | none => rfl
    | some m' =>
      rw [hstep] at h
      exact feed_str_stuck isKey stack (fun hmem => hquote (List.mem_cons_of_mem c hmem)) h

theorem stepAfter_stuck (stack : List Frame) {c : Char} (hc : endsValue c = false) :
    stepAfter stack c = none := by
  simp only [endsValue, Bool.or_eq_false_iff, decide_eq_false_iff_not] at hc
  obtain ⟨⟨⟨hspace, hcomma⟩, hbracket⟩, hbrace⟩ := hc
  cases stack with
  | nil => simp [stepAfter, hspace]
  | cons frame stack => cases frame <;> simp [stepAfter, hspace, hcomma, hbracket, hbrace]

/-- **A string that is no string body gets the recogniser stuck**, at the latest behind the next
quote: a backslash at its end takes its closing quote away, and then the quote of the following key
closes it. -/
theorem feed_bad_string (stack : List Frame) (rest : Text) {s : Text} (hquote : '"' ∉ s)
    (hbad : ¬ StringBody s) {c : Char} (hc : endsValue c = false) :
    feed step ⟨.str false .plain, stack⟩ (s ++ '"' :: ',' :: '"' :: c :: rest) = none := by
  cases hrun : feed strStep .plain s with
  | none => rw [feed_append, feed_str_stuck false stack hquote hrun, Option.bind_none]
  | some m =>
    rw [feed_of_feed (feed_str false stack hrun)]
    cases m with
    | plain => exact absurd hrun hbad
    | escape =>
      have hafter : feed step ⟨.str false .escape, stack⟩ ('"' :: ',' :: '"' :: c :: rest)
          = feed step ⟨.afterValue, stack⟩ (c :: rest) := rfl
      rw [hafter, feed, step, stepAfter_stuck stack hc, Option.bind_none]
    | hex n => cases n <;> rfl

/-! ## 7. No NUL -/

theorem not_mem_of_feed {σ : Type} {step : σ → Char → Option σ} {c : Char}
    (hc : ∀ s, step s c = none) : ∀ {t : Text} {s s' : σ}, feed step s t = some s' → c ∉ t
  | [], _, _, _ => by simp
  | x :: t, s, s', h => by
    rw [feed] at h
    obtain ⟨s₁, hs₁, hrest⟩ := Option.bind_eq_some_iff.mp h
    intro hmem
    rcases List.mem_cons.mp hmem with rfl | hmem
    · rw [hc s] at hs₁
      cases hs₁
    · exact not_mem_of_feed hc hrest hmem

theorem StringBody.nul_not_mem {s : Text} (h : StringBody s) : '\x00' ∉ s :=
  not_mem_of_feed (fun m => by rcases m with _ | _ | (_ | n) <;> rfl) h

theorem Number.nul_not_mem {s : Text} (h : Number s) : '\x00' ∉ s := by
  obtain ⟨m, hrun, -⟩ := h
  exact not_mem_of_feed (fun m => by cases m <;> rfl) hrun

theorem Space.nul_not_mem {w : Text} (h : Space w) : '\x00' ∉ w := fun hmem => by
  cases h _ hmem

/-- **There is no NUL in a JSON text.** -/
theorem Derives.nul_not_mem {part : Part} {t : Text} (h : Derives part t) : '\x00' ∉ t := by
  induction h with
  | string hs => simp [hs.nul_not_mem]
  | number hs => exact hs.nul_not_mem
  | literal hs =>
    simp only [literals, List.mem_cons, List.not_mem_nil, or_false] at hs
    rcases hs with rfl | rfl | rfl <;> decide
  | emptyArray hw => simp [hw.nul_not_mem]
  | array _ ih => simp [ih]
  | emptyObject hw => simp [hw.nul_not_mem]
  | object _ ih => simp [ih]
  | padded hw _ hw' ih => simp [hw.nul_not_mem, ih, hw'.nul_not_mem]
  | element _ ih => exact ih
  | elements _ _ ihv ihes => simp [ihv, ihes]
  | pair hw hk hw' _ ih => simp [hw.nul_not_mem, hk.nul_not_mem, hw'.nul_not_mem, ih]
  | member _ ih => exact ih
  | members _ _ ihm ihms => simp [ihm, ihms]

end WebrtcBridge.Lib.Json
