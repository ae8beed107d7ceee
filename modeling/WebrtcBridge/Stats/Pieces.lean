/-
# From the text to the pieces

`StatsReport.parse` splits at everything that looks like the border between two objects and puts
the braces back that the border took.  Between objects whose strings contain no such border this is
harmless: the pieces are the BODIES of the objects, the first one with its opening brace
and the last one with its closing brace, and `withBraces` makes objects of them again.

For a text that goes wrong at some point, the pieces up to that point are still known
(`splitGo_bodiesThen`), and about the next piece there is this much: it ends at the first border or
before (`Text.splitGo_first`).
-/
import Mathlib.Data.List.Infix
import WebrtcBridge.Stats.Objects

namespace WebrtcBridge.Stats

open Lib Lib.Text Lib.Json

/-! ## 1. Borders -/

theorem borderRest_cons_of_ne {c : Char} (hc : c ≠ '\x7d') (rest : Text) :
    borderRest (c :: rest) = none := if_neg hc

theorem borderRest_border (rest : Text) :
    borderRest ('\x7d' :: ',' :: '\x7b' :: rest) = some rest := rfl

theorem uncut_of_not_mem {u : Text} (h : '\x7d' ∉ u) (rest : Text) : Uncut borderRest u rest := by
  intro a b hab hb
  obtain ⟨c, b', rfl⟩ := List.exists_cons_of_ne_nil hb
  have hc : c ≠ '\x7d' := by
    rintro rfl
    exact h (by simp [hab])
  exact borderRest_cons_of_ne hc _

theorem skipTo_quote {c : Char} (hc : c ≠ '"') (b r : Text) :
    skipTo c (b ++ '"' :: r) = (skipTo c b).map (· ++ '"' :: r) := by
  have hdrop : (b ++ '"' :: r).dropWhile isRegexSpace = b.dropWhile isRegexSpace ++ '"' :: r := by
    rw [List.dropWhile_append]
    split
    · rename_i hempty
      rw [List.isEmpty_iff.mp hempty]
      rfl
    · rfl
  rw [skipTo, skipTo, hdrop]
  cases b.dropWhile isRegexSpace with
  | nil => simp [hc.symm]
  | cons x t =>
    by_cases hx : x = c <;> simp [hx]

/-- A quote cannot be part of a border. -/
theorem borderRest_quote (b r : Text) :
    borderRest (b ++ '"' :: r) = (borderRest b).map (· ++ '"' :: r) := by
  cases b with
  | nil => rfl
  | cons c b =>
    rw [List.cons_append, borderRest, borderRest]
    by_cases hc : c = '\x7d'
    · rw [if_pos hc, if_pos hc, skipTo_quote (by decide)]
      cases skipTo ',' b with
      | none => rfl
      | some t => exact skipTo_quote (by decide) t r
    · rw [if_neg hc, if_neg hc]
      rfl

theorem NoBorder.uncut {s : Text} (h : NoBorder s) (rest : Text) :
    Uncut borderRest s ('"' :: rest) := by
  intro a b hab _
  rw [borderRest_quote, h b ((List.mem_tails b s).mpr ⟨a, hab.symm⟩)]
  rfl

/-- Where there is a border in a string, there is one in the text around it. -/
theorem exists_border {s : Text} (h : ¬ NoBorder s) (rest : Text) :
    ∃ a b, s = a ++ b ∧ (borderRest (b ++ '"' :: rest)).isSome := by
  simp only [NoBorder, List.mem_tails, not_forall] at h
  obtain ⟨b, ⟨a, hab⟩, hb⟩ := h
  refine ⟨a, b, hab.symm, ?_⟩
  rw [borderRest_quote, Option.isSome_map, Option.isSome_iff_ne_none]
  exact hb

/-! ## 2. Bodies -/

/-- The text between the braces. -/
def bodyText (fs : List Field) : Text := joinPairs (fs.map Field.printed)

theorem fieldsText_eq (fs : List Field) : fieldsText fs = '\x7b' :: (bodyText fs ++ ['\x7d']) :=
  objectText_eq _

/-- A text that can be told apart from the braces around it, and is not cut. -/
structure IsBody (b : Text) : Prop where
  head : b.head? = some '"'
  last : ∃ c, b.getLast? = some c ∧ isJavaWhitespace c = false ∧ c ≠ '\x7d'
  uncut : ∀ rest, Uncut borderRest b rest

theorem IsBody.ne_nil {b : Text} (h : IsBody b) : b ≠ [] := by
  rintro rfl
  cases h.head

theorem Field.uncut {f : Field} (hf : f.Clean) (rest : Text) :
    Uncut borderRest (pairText f.printed) rest := by
  obtain ⟨k, v⟩ := f
  obtain ⟨hk, hv⟩ := hf
  have hkey : '\x7d' ∉ '"' :: (k ++ ['"', ':']) := by
    simp only [List.mem_cons, List.mem_append, not_or]
    exact ⟨by decide, hk.2.2.2, by decide⟩
  have htext : pairText (Field.printed (k, v)) = '"' :: (k ++ ['"', ':']) ++ v.text := by
    simp [pairText, Field.printed]
  rw [htext]
  refine (uncut_of_not_mem hkey _).append ?_
  cases v with
  | str s =>
    have hs : Uncut borderRest (s ++ ['"']) rest :=
      (hv.2.uncut rest).append (uncut_of_not_mem (by decide) _)
    exact (uncut_of_not_mem (u := ['"']) (by decide) _).append hs
  | num t => exact uncut_of_not_mem (hv.not_mem (by decide)) rest

theorem Field.last {f : Field} (hf : f.Clean) :
    ∃ c, (pairText f.printed).getLast? = some c ∧ isJavaWhitespace c = false ∧ c ≠ '\x7d' := by
  obtain ⟨k, v⟩ := f
  cases v with
  | str s =>
    refine ⟨'"', ?_, by decide, by decide⟩
    simp [pairText, Field.printed, FieldValue.text, List.getLast?_cons, List.getLast?_append]
  | num t =>
    have ht : IsToken t := hf.2
    obtain ⟨c, hc⟩ : ∃ c, t.getLast? = some c := ⟨_, List.getLast?_eq_some_getLast ht.1⟩
    have hmem := List.mem_of_getLast? hc
    refine ⟨c, ?_, isTokenChar_not_whitespace (ht.2 c hmem), fun heq => ?_⟩
    · simp [pairText, Field.printed, FieldValue.text, List.getLast?_cons, List.getLast?_append, hc]
    · exact ht.not_mem (c := '\x7d') (by decide) (heq ▸ hmem)

theorem isBody_bodyText : ∀ {fs : List Field}, fs ≠ [] → (∀ f ∈ fs, f.Clean) → IsBody (bodyText fs)
  | [f], _, hfs => by
    have hf := hfs f (by simp)
    exact ⟨rfl, Field.last hf, Field.uncut hf⟩
  | f :: g :: fs, _, hfs => by
    have hf := hfs f (by simp)
    have ih := isBody_bodyText (List.cons_ne_nil g fs) fun x hx => hfs x (List.mem_cons_of_mem f hx)
    have htext : bodyText (f :: g :: fs) = pairText f.printed ++ ([','] ++ bodyText (g :: fs)) :=
      rfl
    obtain ⟨c, hc, hend⟩ := ih.last
    refine ⟨rfl, ⟨c, ?_, hend⟩, fun rest => ?_⟩
    · simp [htext, List.getLast?_append, List.getLast?_cons, hc]
    · rw [htext]
      exact (Field.uncut hf _).append ((uncut_of_not_mem (by decide) _).append (ih.uncut rest))

/-! ## 3. Putting the braces back -/

/-- What is taken off at the end stops where something else stands. -/
theorem rdropWhile_append_of_last {α : Type} {p : α → Bool} (xs ys : List α)
    (hxs : ∀ x, xs.getLast? = some x → p x = false) :
    (xs ++ ys).rdropWhile p = xs ++ ys.rdropWhile p := by
  induction ys using List.reverseRecOn with
  | nil =>
    rw [List.append_nil, List.rdropWhile_nil, List.append_nil, List.rdropWhile_eq_self_iff]
    intro hne
    simp [hxs _ (List.getLast?_eq_some_getLast hne)]
  | append_singleton ys y ih =>
    rw [← List.append_assoc, List.rdropWhile_concat, List.rdropWhile_concat, ih]
    split <;> simp

/-- The opening brace may be there or not. -/
def Opening (o : Text) : Prop := o = [] ∨ o = ['\x7b']

theorem Opening.head_not_whitespace {o t : Text} (ho : Opening o)
    (ht : t.head? = some '"') (c : Char)
    (hc : (o ++ t).head? = some c) : isJavaWhitespace c = false := by
  rcases ho with rfl | rfl
  · rw [List.nil_append, ht] at hc
    cases hc
    decide
  · cases hc
    decide

theorem Opening.add_brace {o t : Text} (ho : Opening o) (ht : t.head? = some '"') :
    (if (o ++ t).head? = some '\x7b' then o ++ t else '\x7b' :: (o ++ t)) = '\x7b' :: t := by
  rcases ho with rfl | rfl
  · simp [ht]
  · simp

/-- **A body with or without its braces becomes the object.** -/
theorem withBraces_body {o b e : Text} (ho : Opening o) (hb : IsBody b)
    (he : e = [] ∨ e = ['\x7d']) : withBraces (o ++ (b ++ e)) = '\x7b' :: (b ++ ['\x7d']) := by
  obtain ⟨c, hc, hwhite, hbrace⟩ := hb.last
  have hhead : (b ++ e).head? = some '"' := by rw [List.head?_append, hb.head, Option.some_or]
  have hlast : (b ++ e).getLast? = some (if e = [] then c else '\x7d') := by
    rcases he with rfl | rfl <;> simp [List.getLast?_append, hc]
  have hne : b ++ e ≠ [] := by simp [hb.ne_nil]
  have hstrip : strip (o ++ (b ++ e)) = o ++ (b ++ e) := by
    refine strip_eq_self (ho.head_not_whitespace hhead) ?_
    intro x hx
    rw [List.getLast?_append_of_ne_nil _ hne, hlast] at hx
    cases hx
    split
    · exact hwhite
    · decide
  have hclose : ('\x7b' :: (b ++ e)).getLast? = some (if e = [] then c else '\x7d') := by
    rw [List.getLast?_cons, hlast]
    rfl
  simp only [withBraces, hstrip, ho.add_brace hhead, hclose]
  rcases he with rfl | rfl
  · simp [hbrace]
  · simp

/-- **A piece that was cut off inside a string**: white space at its end may go, a brace may
come. -/
theorem withBraces_cut {o h : Text} (ho : Opening o) (hhead : h.head? = some '"')
    (hlast : h.getLast? = some '"') (w : Text) :
    ∃ u e, withBraces (o ++ (h ++ w)) = '\x7b' :: (h ++ (u ++ e)) ∧ u <+: w
      ∧ (e = [] ∨ e = ['\x7d']) := by
  have hhead' : ∀ t, (h ++ t).head? = some '"' := by
    intro t
    rw [List.head?_append, hhead, Option.some_or]
  have hne : h ≠ [] := by
    rintro rfl
    cases hhead
  have hstrip : strip (o ++ (h ++ w)) = o ++ (h ++ w.rdropWhile isJavaWhitespace) := by
    rw [strip, dropWhile_eq_self (ho.head_not_whitespace (hhead' w)), ← List.append_assoc,
      rdropWhile_append_of_last, List.append_assoc]
    intro c hc
    rw [List.getLast?_append_of_ne_nil _ hne, hlast] at hc
    cases hc
    decide
  simp only [withBraces, hstrip, ho.add_brace (hhead' _)]
  split
  · exact ⟨_, [], by rw [List.append_nil], List.rdropWhile_prefix _ w, .inl rfl⟩
  · exact ⟨w.rdropWhile isJavaWhitespace, ['\x7d'], by simp, List.rdropWhile_prefix _ w, .inr rfl⟩

/-! ## 4. Splitting -/

/-- Bodies with the border behind each, and then something else. -/
def bodiesThen : List Text → Text → Text
  | [], rest => rest
  | b :: bs, rest => b ++ '\x7d' :: ',' :: '\x7b' :: bodiesThen bs rest

theorem bodiesThen_append : ∀ (bs : List Text) (x y : Text),
    bodiesThen bs (x ++ y) = bodiesThen bs x ++ y
  | [], _, _ => rfl
  | b :: bs, x, y => by simp [bodiesThen, bodiesThen_append bs x y]

/-- Objects with a comma behind each, up to the brace of the next one. -/
theorem valuesThen_bodies : ∀ (bs : List Text) (rest : Text),
    valuesThen (bs.map fun b => '\x7b' :: (b ++ ['\x7d'])) ('\x7b' :: rest)
      = '\x7b' :: bodiesThen bs rest
  | [], _ => rfl
  | b :: bs, rest => by
    rw [List.map_cons, valuesThen, valuesThen_bodies bs rest, bodiesThen]
    simp

/-- The pieces that are bodies; the brace of the first one may still be there. -/
def bodyPieces (o : Text) : List Text → List Text
  | [] => []
  | b :: bs => (o ++ b) :: bs

/-- The start of the piece behind them. -/
def openingBehind (o : Text) (bs : List Text) : Text := if bs.isEmpty then o else []

theorem opening_openingBehind {o : Text} (ho : Opening o) (bs : List Text) :
    Opening (openingBehind o bs) := by
  unfold openingBehind
  split
  · exact ho
  · exact .inl rfl

/-- **Bodies are pieces.** -/
theorem splitGo_bodiesThen : ∀ {bs : List Text} (o rest : Text), (∀ b ∈ bs, IsBody b) →
    splitGo borderRest 0 o (bodiesThen bs rest)
      = bodyPieces o bs ++ splitGo borderRest 0 (openingBehind o bs) rest
  | [], _, _, _ => rfl
  | b :: bs, o, rest, hbs => by
    have ih := splitGo_bodiesThen [] rest fun x hx => hbs x (List.mem_cons_of_mem b hx)
    have hborder : splitGo borderRest 0 (o ++ b) ('\x7d' :: ',' :: '\x7b' :: bodiesThen bs rest)
        = (o ++ b) :: splitGo borderRest 0 [] (bodiesThen bs rest) :=
      splitGo_sep (s := [',', '\x7b']) (o ++ b) (borderRest_border _)
    have hnext : openingBehind [] bs = [] := by
      unfold openingBehind
      split <;> rfl
    have hpieces : bodyPieces [] bs = bs := by
      cases bs <;> rfl
    rw [bodiesThen, splitGo_uncut o _ ((hbs b (by simp)).uncut _), hborder, ih, hnext, hpieces]
    rfl

/-- The last body keeps its closing brace. -/
theorem splitGo_last {b : Text} (o : Text) (hb : IsBody b) :
    splitGo borderRest 0 o (b ++ ['\x7d']) = [o ++ (b ++ ['\x7d'])] := by
  rw [splitGo_uncut o _ (hb.uncut _)]
  simp [splitGo, borderRest, skipTo]

/-! ## 5. Reading the pieces -/

theorem bind_ok {α β : Type} {x : Except ParseError α} {f : α → Except ParseError β} {b : β}
    (h : x >>= f = .ok b) : ∃ a, x = .ok a ∧ f a = .ok b := by
  cases x with
  | error e => cases h
  | ok a => exact ⟨a, rfl, h⟩

theorem map_ok {α β : Type} {x : Except ParseError α} {f : α → β} {b : β} (h : x.map f = .ok b) :
    ∃ a, x = .ok a ∧ b = f a := by
  cases x with
  | error e => cases h
  | ok a =>
    cases h
    exact ⟨a, rfl, rfl⟩

theorem readPieces_append : ∀ {xs ys : List Text} {os : List (Option StatsObject)},
    readPieces xs = .ok os → readPieces (xs ++ ys) = (readPieces ys).map (os ++ ·)
  | [], ys, os, h => by
    cases h
    cases hys : readPieces ys <;> simp [Except.map, hys]
  | x :: xs, ys, os, h => by
    simp only [readPieces, List.cons_append] at h ⊢
    cases hx : readObject (withBraces x) with
    | error e =>
      rw [hx] at h
      cases h
    | ok o =>
      rw [hx] at h
      cases hxs : readPieces xs with
      | error e =>
        rw [hxs] at h
        cases h
      | ok os' =>
        rw [hxs] at h
        cases h
        rw [readPieces_append hxs]
        cases readPieces ys <;> rfl

/-- The first piece is read first. -/
theorem readPieces_cons_ok {x : Text} {xs : List Text} {os : List (Option StatsObject)}
    (h : readPieces (x :: xs) = .ok os) :
    ∃ o os', readObject (withBraces x) = .ok o ∧ os = o :: os' := by
  obtain ⟨o, ho, h⟩ := bind_ok h
  obtain ⟨os', -, h⟩ := bind_ok h
  cases h
  exact ⟨o, os', ho, rfl⟩

theorem readPieces_map {α : Type} {piece : α → Text} {object : α → Option StatsObject} :
    ∀ {es : List α}, (∀ e ∈ es, readObject (withBraces (piece e)) = .ok (object e)) →
    readPieces (es.map piece) = .ok (es.map object)
  | [], _ => rfl
  | e :: es, h => by
    simp only [List.map_cons, readPieces, h e (by simp),
      readPieces_map fun x hx => h x (List.mem_cons_of_mem e hx)]
    rfl

theorem trimBrackets_eq (t : Text) : trimBrackets ('[' :: (t ++ [']'])) = t := by
  have hlast : ('[' :: (t ++ [']'])).getLast? = some ']' := by
    rw [← List.cons_append, List.getLast?_concat]
  have hstrip : strip ('[' :: (t ++ [']'])) = '[' :: (t ++ [']']) := by
    apply strip_eq_self
    · rintro c ⟨⟩
      decide
    · intro c hc
      rw [hlast] at hc
      cases hc
      decide
  simp [trimBrackets, hstrip]

section

variable {α : Type} {body : α → Text} {object : α → Option StatsObject}

/-- The element's text is an object that is read as `object` says. -/
def ReadsAs (body : α → Text) (object : α → Option StatsObject) (e : α) : Prop :=
  IsBody (body e) ∧ readObject ('\x7b' :: (body e ++ ['\x7d'])) = .ok (object e)

theorem readPieces_bodies {o : Text} (ho : Opening o) {es : List α}
    (hes : ∀ e ∈ es, ReadsAs body object e) :
    readPieces (bodyPieces o (es.map body)) = .ok (es.map object) := by
  have hread : ∀ {o : Text}, Opening o → ∀ e ∈ es,
      readObject (withBraces (o ++ body e)) = .ok (object e) := by
    intro o ho e he
    obtain ⟨hb, hobject⟩ := hes e he
    have hbraces := withBraces_body ho hb (.inl rfl)
    rw [List.append_nil] at hbraces
    rw [hbraces, hobject]
  cases es with
  | nil => rfl
  | cons e es =>
    have htail : readPieces (es.map body) = .ok (es.map object) :=
      readPieces_map fun x hx => hread (.inl rfl) x (List.mem_cons_of_mem e hx)
    simp only [List.map_cons, bodyPieces, readPieces, hread ho e (by simp), htail]
    rfl

/-- The pieces of a text that starts with known objects. -/
theorem splitObjects_bodiesThen {bs : List Text} (hbs : ∀ b ∈ bs, IsBody b) (rest : Text) :
    splitObjects ('\x7b' :: bodiesThen bs rest)
      = bodyPieces ['\x7b'] bs
        ++ (splitGo borderRest 0 (openingBehind ['\x7b'] bs) rest).rdropWhile List.isEmpty := by
  have hsplit : split borderRest ('\x7b' :: bodiesThen bs rest)
      = bodyPieces ['\x7b'] bs ++ splitGo borderRest 0 (openingBehind ['\x7b'] bs) rest :=
    splitGo_bodiesThen ['\x7b'] rest hbs
  rw [splitObjects, hsplit, rdropWhile_append_of_last]
  intro x hx
  replace hx := List.mem_of_getLast? hx
  cases bs with
  | nil => cases hx
  | cons b bs =>
    rcases List.mem_cons.mp hx with rfl | hx
    · rfl
    · exact List.isEmpty_eq_false_iff.mpr (hbs x (List.mem_cons_of_mem b hx)).ne_nil

/-- **Known objects at the start of the text are read**, whatever comes behind. -/
theorem parse_bodiesThen {es : List α} (hes : ∀ e ∈ es, ReadsAs body object e) (rest : Text) :
    parse ('[' :: ('\x7b' :: bodiesThen (es.map body) rest ++ [']']))
      = (readPieces ((splitGo borderRest 0 (openingBehind ['\x7b'] (es.map body)) rest).rdropWhile
          List.isEmpty)).map fun os => collect (es.map object ++ os) := by
  have hbs : ∀ b ∈ es.map body, IsBody b := by
    intro b hb
    obtain ⟨e, he, rfl⟩ := List.mem_map.mp hb
    exact (hes e he).1
  simp only [parse, List.isEmpty_cons, Bool.false_eq_true, if_false, trimBrackets_eq,
    splitObjects_bodiesThen hbs, readPieces_append (readPieces_bodies (.inr rfl) hes)]
  cases readPieces _ <;> rfl

/-- **A text of known objects is read completely.** -/
theorem parse_bodies {es : List α} {e : α} (hes : ∀ x ∈ es, ReadsAs body object x)
    (he : ReadsAs body object e) :
    parse ('[' :: ('\x7b' :: bodiesThen (es.map body) (body e ++ ['\x7d']) ++ [']']))
      = .ok (collect (es.map object ++ [object e])) := by
  have ho : Opening (openingBehind ['\x7b'] (es.map body)) := opening_openingBehind (.inr rfl) _
  have hne : (openingBehind ['\x7b'] (es.map body) ++ (body e ++ ['\x7d'])).isEmpty = false := by
    simp
  rw [parse_bodiesThen hes, splitGo_last _ he.1]
  simp only [List.rdropWhile_singleton, hne, Bool.false_eq_true, if_false, readPieces,
    withBraces_body ho he.1 (.inr rfl), he.2]
  rfl

end

end WebrtcBridge.Stats
