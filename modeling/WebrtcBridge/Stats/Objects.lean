/-
# Objects as the Java parser sees them

A printed object is a list of FIELDS, a key and a string or a number each.  The parser knows
nothing of this structure: it searches the text for the quoted key and then for a colon.
`lookup_of_found` says what this amounts to in terms of fields, provided that no string has a quote
in it.  It is almost what one wants: the field of that key is found, UNLESS an earlier field has the
key as its VALUE.  Then the search stops there, and the colon it finds next is that of the field
behind (`found`).

What comes behind the fields that were passed may be any text (`lookup_key`).  That is how far the
parser can be followed when a string does have a quote in it.
-/
import WebrtcBridge.Stats.Numbers

namespace WebrtcBridge.Stats

open Lib Lib.Text Lib.Json

/-! ## 1. Fields -/

/-- The value of a field. -/
inductive FieldValue
  | str (s : Text)
  | num (t : Text)
  deriving DecidableEq

def FieldValue.text : FieldValue → Text
  | .str s => '"' :: (s ++ ['"'])
  | .num t => t

/-- A key and a value. -/
abbrev Field := Text × FieldValue

/-- The field as it is printed. -/
def Field.printed (f : Field) : Text × Text := (f.1, f.2.text)

/-- The text of an object. -/
def fieldsText (fs : List Field) : Text := objectText (fs.map Field.printed)

/-- What stands behind a value in an object with `fs` still to come. -/
def closeFields (fs : List Field) : Text := closeObject (fs.map Field.printed)

/-- Fields, each with its comma, and then something else. -/
def fieldsThen (fs : List Field) (rest : Text) : Text := pairsThen (fs.map Field.printed) rest

theorem fieldsThen_quote (fs : List Field) (rest : Text) :
    ∃ rest', fieldsThen fs ('"' :: rest) = '"' :: rest' := by
  cases fs with
  | nil => exact ⟨rest, rfl⟩
  | cons f fs => exact ⟨_, rfl⟩

theorem fieldsText_append (pre : List Field) (f : Field) (post : List Field) :
    fieldsText (pre ++ f :: post)
      = '\x7b' :: fieldsThen pre (pairText f.printed ++ closeFields post) := by
  rw [fieldsText, List.map_append, List.map_cons, objectText_append]
  rfl

/-- A text without quotes, colons, commas and closing braces, such as the keys. -/
def IsWord (t : Text) : Prop := '"' ∉ t ∧ ':' ∉ t ∧ ',' ∉ t ∧ '\x7d' ∉ t

instance (t : Text) : Decidable (IsWord t) :=
  inferInstanceAs (Decidable ('"' ∉ t ∧ ':' ∉ t ∧ ',' ∉ t ∧ '\x7d' ∉ t))

/-- Nothing in the text looks like the border between two objects. -/
def NoBorder (s : Text) : Prop := ∀ b ∈ s.tails, borderRest b = none

instance (s : Text) : Decidable (NoBorder s) :=
  inferInstanceAs (Decidable (∀ b ∈ s.tails, borderRest b = none))

/-- A string with no quote and no border in it; a number. -/
def FieldValue.Clean : FieldValue → Prop
  | .str s => '"' ∉ s ∧ NoBorder s
  | .num t => IsToken t

/-- The key is a word and the value is clean. -/
def Field.Clean (f : Field) : Prop := IsWord f.1 ∧ f.2.Clean

/-! ## 2. Looking up a key -/

/-- Neither the keys nor the strings of the fields are `key`. -/
def Silent (key : Text) (fs : List Field) : Prop := ∀ f ∈ fs, f.1 ≠ key ∧ f.2 ≠ .str key

theorem silent_nil (key : Text) : Silent key [] := by
  intro f hf
  cases hf

/-- The keys and the strings. -/
def names : List Field → List Text
  | [] => []
  | (k, .str s) :: fs => k :: s :: names fs
  | (k, .num _) :: fs => k :: names fs

theorem silent_of_not_mem {key : Text} : ∀ {fs : List Field}, key ∉ names fs → Silent key fs
  | [], _ => silent_nil key
  | (k, .str s) :: fs, h => by
    simp only [names, List.mem_cons, not_or] at h
    intro f hf
    rcases List.mem_cons.mp hf with rfl | hf
    · exact ⟨Ne.symm h.1, fun heq => h.2.1 (FieldValue.str.inj heq).symm⟩
    · exact silent_of_not_mem h.2.2 f hf
  | (k, .num t) :: fs, h => by
    simp only [names, List.mem_cons, not_or] at h
    intro f hf
    rcases List.mem_cons.mp hf with rfl | hf
    · exact ⟨Ne.symm h.1, nofun⟩
    · exact silent_of_not_mem h.2 f hf

/-- Where `extractString` and `extractRaw` look for the value of a key. -/
def lookup (json key : Text) : Option Text := (after (inQuotes key) json).bind (after [':'])

theorem quote_not_mem_colon : '"' ∉ [':'] := by decide

section

variable {key : Text} (hkey : IsWord key)

include hkey

theorem IsWord.ne_of_colon {x : Text} (h : ':' ∈ x) : x ≠ key := by
  rintro rfl
  exact hkey.2.1 h

theorem IsWord.ne_of_comma {x : Text} (h : ',' ∈ x) : x ≠ key := by
  rintro rfl
  exact hkey.2.2.1 h

theorem after_other_key {k : Text} (hk : IsWord k) (hne : k ≠ key) (rest : Text) :
    after (inQuotes key) ('"' :: (k ++ '"' :: ':' :: rest))
      = after (inQuotes key) ('"' :: ':' :: rest) :=
  after_inQuotes_skip _ hkey.1 hk.1 hne

/-- A string behind a colon is where the search goes on. -/
theorem after_colon_quote (rest : Text) :
    after (inQuotes key) ('"' :: ':' :: '"' :: rest) = after (inQuotes key) ('"' :: rest) :=
  after_inQuotes_skip (x := [':']) rest hkey.1 quote_not_mem_colon (hkey.ne_of_colon (by simp))

/-- A field that has nothing to do with the key is passed over. -/
theorem after_other_field {f : Field} (hf : f.Clean) (hne : f.1 ≠ key) (hval : f.2 ≠ .str key)
    (rest : Text) :
    after (inQuotes key) (pairText f.printed ++ ',' :: '"' :: rest)
      = after (inQuotes key) ('"' :: rest) := by
  obtain ⟨k, v⟩ := f
  obtain ⟨hk, hv⟩ := hf
  cases v with
  | str s =>
    have hs : s ≠ key := fun heq => hval (heq ▸ rfl)
    have htext : pairText (Field.printed (k, .str s)) ++ ',' :: '"' :: rest
        = '"' :: (k ++ '"' :: ':' :: '"' :: (s ++ '"' :: ([','] ++ '"' :: rest))) := by
      simp [pairText, Field.printed, FieldValue.text]
    rw [htext, after_other_key hkey hk hne, after_colon_quote hkey,
      after_inQuotes_skip _ hkey.1 hv.1 hs,
      after_inQuotes_skip _ hkey.1 (by decide) (hkey.ne_of_comma (by simp))]
  | num t =>
    have ht : '"' ∉ ':' :: (t ++ [',']) := by
      have hquote : '"' ∉ t := IsToken.not_mem hv (by decide)
      simp [hquote]
    have htext : pairText (Field.printed (k, .num t)) ++ ',' :: '"' :: rest
        = '"' :: (k ++ '"' :: ':' :: (t ++ ',' :: '"' :: rest)) := by
      simp [pairText, Field.printed, FieldValue.text]
    have hpiece : '"' :: ':' :: (t ++ ',' :: '"' :: rest)
        = '"' :: ((':' :: (t ++ [','])) ++ '"' :: rest) := by simp
    rw [htext, after_other_key hkey hk hne, hpiece,
      after_inQuotes_skip _ hkey.1 ht (hkey.ne_of_colon (by simp))]

/-- The fields before the key say nothing about it. -/
theorem after_fieldsThen : ∀ {pre : List Field}, (∀ f ∈ pre, f.Clean) → Silent key pre → ∀ rest,
    after (inQuotes key) (fieldsThen pre ('"' :: rest)) = after (inQuotes key) ('"' :: rest)
  | [], _, _, _ => rfl
  | f :: pre, hclean, hsilent, rest => by
    obtain ⟨hne, hval⟩ := hsilent f (by simp)
    have ih := after_fieldsThen (fun x hx => hclean x (List.mem_cons_of_mem f hx))
      (fun x hx => hsilent x (List.mem_cons_of_mem f hx)) rest
    obtain ⟨rest', hquote⟩ := fieldsThen_quote pre rest
    have hcons : fieldsThen (f :: pre) ('"' :: rest)
        = pairText f.printed ++ ',' :: fieldsThen pre ('"' :: rest) := rfl
    rw [hcons, hquote, after_other_field hkey (hclean f (by simp)) hne hval, ← hquote, ih]

/-- **The key is found behind fields that do not mention it**, whatever comes after it. -/
theorem lookup_key {pre : List Field} (hclean : ∀ f ∈ pre, f.Clean) (hpre : Silent key pre)
    (rest : Text) :
    lookup ('\x7b' :: fieldsThen pre ('"' :: (key ++ '"' :: ':' :: rest))) key = some rest := by
  rw [lookup, ← List.singleton_append, after_inQuotes_piece key _ (by decide),
    after_fieldsThen hkey hclean hpre, after_inQuotes_found]
  exact after_head ':' rest

end

/-- What the search for a key leads to among the fields: the value, and the fields behind it.  A
string that is equal to the key is taken for it. -/
def found (key : Text) : List Field → Option (FieldValue × List Field)
  | [] => none
  | (k, v) :: fs =>
    if k = key then some (v, fs)
    else if v = .str key then fs.head?.map fun f => (f.2, fs.tail)
    else found key fs

theorem found_append {key : Text} (fs : List Field) : ∀ {pre : List Field}, Silent key pre →
    found key (pre ++ fs) = found key fs
  | [], _ => rfl
  | (k, v) :: pre, h => by
    obtain ⟨hk, hv⟩ := h (k, v) (by simp)
    rw [List.cons_append, found, if_neg hk, if_neg hv,
      found_append fs fun f hf => h f (List.mem_cons_of_mem _ hf)]

theorem found_own {key : Text} {pre : List Field} (hpre : Silent key pre) (v : FieldValue)
    (post : List Field) : found key (pre ++ (key, v) :: post) = some (v, post) := by
  rw [found_append _ hpre, found, if_pos rfl]

/-- **A key behind a free string**: if the string is equal to the key, the value of the field behind
the string is taken for the value of the key. -/
theorem found_behind {key k : Text} {pre mid : List Field} {g : Field} (hpre : Silent key pre)
    (hk : k ≠ key) (hmid : Silent key (g :: mid)) (s : Text) (v : FieldValue) (post : List Field) :
    found key (pre ++ (k, .str s) :: g :: (mid ++ (key, v) :: post))
      = some (if s = key then (g.2, mid ++ (key, v) :: post) else (v, post)) := by
  rw [found_append _ hpre, found, if_neg hk]
  by_cases hs : s = key
  · rw [if_pos (by rw [hs]), if_pos hs]
    rfl
  · have hval : FieldValue.str s ≠ .str key := fun heq => hs (FieldValue.str.inj heq)
    rw [if_neg hval, if_neg hs]
    exact found_own hmid v post

/-- The field right behind the string is found in any case. -/
theorem found_next {key k : Text} {pre : List Field} (hpre : Silent key pre)
    (hk : k ≠ key) (s : Text) (v : FieldValue) (post : List Field) :
    found key (pre ++ (k, .str s) :: (key, v) :: post) = some (v, post) := by
  rw [found_append _ hpre, found, if_neg hk]
  split
  · rfl
  · rw [found, if_pos rfl]

theorem search_own (key : Text) (v : FieldValue) (fs : List Field) :
    (after (inQuotes key) (pairText (Field.printed (key, v)) ++ closeFields fs)).bind (after [':'])
      = some (v.text ++ closeFields fs) := by
  have htext : pairText (Field.printed (key, v)) ++ closeFields fs
      = '"' :: (key ++ '"' :: ':' :: (v.text ++ closeFields fs)) := by
    simp [pairText, Field.printed]
  rw [htext, after_inQuotes_found]
  exact after_head ':' _

/-- A string that is equal to the key leads to the value of the next field. -/
theorem search_string {key : Text} (hkey : IsWord key) {k : Text} (hk : IsWord k) (hne : k ≠ key)
    {f : Field} (hf : f.Clean) (fs : List Field) :
    (after (inQuotes key) (pairText (Field.printed (k, .str key)) ++ closeFields (f :: fs))).bind
      (after [':']) = some (f.2.text ++ closeFields fs) := by
  have htext : pairText (Field.printed (k, .str key)) ++ closeFields (f :: fs)
      = '"' :: (k ++ '"' :: ':' :: '"' :: (key ++ '"' :: closeFields (f :: fs))) := by
    simp [pairText, Field.printed, FieldValue.text]
  have hrest : closeFields (f :: fs)
      = (',' :: '"' :: (f.1 ++ ['"'])) ++ ':' :: (f.2.text ++ closeFields fs) := by
    simp [closeFields, closeObject, pairText, Field.printed]
  have hcolon : ':' ∉ ',' :: '"' :: (f.1 ++ ['"']) := by
    simp [hf.1.2.1]
  rw [htext, after_other_key hkey hk hne, after_colon_quote hkey, after_inQuotes_found,
    Option.bind_some, hrest, after_singleton ':' _ hcolon]

/-- The search along the fields: it stops at the key or at a string that looks like it. -/
theorem search_of_found {key : Text} (hkey : IsWord key) {v : FieldValue} {post : List Field}
    {f : Field} {fs : List Field} (hfs : ∀ x ∈ f :: fs, x.Clean)
    (hfound : found key (f :: fs) = some (v, post)) :
    (after (inQuotes key) (pairText f.printed ++ closeFields fs)).bind (after [':'])
      = some (v.text ++ closeFields post) := by
  induction fs generalizing f with
  | nil =>
    obtain ⟨k, u⟩ := f
    rw [found] at hfound
    by_cases hk : k = key
    · rw [if_pos hk] at hfound
      cases hfound
      exact hk ▸ search_own k v []
    · -- nothing comes behind the last field
      rw [if_neg hk] at hfound
      split at hfound <;> cases hfound
  | cons g fs ih =>
    obtain ⟨k, u⟩ := f
    have hclean := hfs (k, u) (by simp)
    rw [found] at hfound
    by_cases hk : k = key
    · rw [if_pos hk] at hfound
      cases hfound
      exact hk ▸ search_own k v (g :: fs)
    · rw [if_neg hk] at hfound
      by_cases hu : u = .str key
      · rw [if_pos hu] at hfound
        cases hfound
        rw [hu]
        exact search_string hkey hclean.1 hk (hfs g (by simp)) fs
      · rw [if_neg hu] at hfound
        have hskip : after (inQuotes key) (pairText (Field.printed (k, u)) ++ closeFields (g :: fs))
            = after (inQuotes key) (pairText g.printed ++ closeFields fs) :=
          after_other_field hkey hclean hk hu _
        rw [hskip]
        exact ih (fun x hx => hfs x (List.mem_cons_of_mem _ hx)) hfound

/-- **What the parser finds in an object.** -/
theorem lookup_of_found {key : Text} (hkey : IsWord key) {fs : List Field} (hfs : ∀ f ∈ fs, f.Clean)
    {v : FieldValue} {post : List Field} (hfound : found key fs = some (v, post)) :
    lookup (fieldsText fs) key = some (v.text ++ closeFields post) := by
  cases fs with
  | nil => cases hfound
  | cons f fs =>
    have htext : fieldsText (f :: fs) = ['\x7b'] ++ (pairText f.printed ++ closeFields fs) := rfl
    rw [lookup, htext, after_inQuotes_piece key _ (by decide)]
    exact search_of_found hkey hfs hfound

/-! ## 3. Extracting values -/

theorem extractString_eq (json key : Text) :
    extractString json key
      = (lookup json key).bind fun rest => (after ['"'] rest).bind (before '"') := by
  simp [extractString, lookup, Option.bind_assoc]

/-- A string is extracted up to its first quote. -/
theorem extractString_of_lookup {json key s rest : Text} (hs : '"' ∉ s)
    (h : lookup json key = some ('"' :: (s ++ '"' :: rest))) : extractString json key = some s := by
  rw [extractString_eq, h, Option.bind_some, after_head,
    Option.bind_some, before_append rest hs]

/-- Where a number stands instead of a string, the next key is extracted. -/
theorem extractString_of_number {json key t : Text} {f : Field} {fs : List Field} (ht : IsToken t)
    (hf : f.Clean) (h : lookup json key = some (t ++ closeFields (f :: fs))) :
    extractString json key = some f.1 := by
  have htext : t ++ closeFields (f :: fs)
      = (t ++ [',']) ++ '"' :: (f.1 ++ '"' :: (':' :: f.2.text ++ closeFields fs)) := by
    simp [closeFields, closeObject, pairText, Field.printed]
  have hquote : '"' ∉ t ++ [','] := by
    simp [ht.not_mem (c := '"') (by decide)]
  rw [extractString_eq, h, Option.bind_some, htext, after_singleton '"' _ hquote, Option.bind_some,
    before_append _ hf.1.1]

theorem closeFields_head (fs : List Field) :
    ∃ c rest, closeFields fs = c :: rest ∧ (c = ',' ∨ c = '\x7d') := by
  cases fs with
  | nil => exact ⟨'\x7d', [], rfl, .inr rfl⟩
  | cons f fs => exact ⟨',', _, rfl, .inl rfl⟩

theorem dropWhile_eq_self {p : Char → Bool} {t : Text} (h : ∀ c, t.head? = some c → p c = false) :
    t.dropWhile p = t := by
  cases t with
  | nil => rfl
  | cons c t => simp [h c rfl]

/-- A text with something else than white space at both ends. -/
theorem strip_eq_self {t : Text} (hhead : ∀ c, t.head? = some c → isJavaWhitespace c = false)
    (hlast : ∀ c, t.getLast? = some c → isJavaWhitespace c = false) : strip t = t := by
  rw [strip, dropWhile_eq_self hhead, List.rdropWhile_eq_self_iff]
  intro hne
  simp [hlast _ (List.getLast?_eq_some_getLast hne)]

theorem IsToken.strip_eq {t : Text} (ht : IsToken t) : strip t = t :=
  strip_eq_self (fun c hc => isTokenChar_not_whitespace (ht.2 c (List.mem_of_head? hc)))
    (fun c hc => isTokenChar_not_whitespace (ht.2 c (List.mem_of_getLast? hc)))

/-- A number is extracted up to the comma or brace behind it. -/
theorem extractRaw_of_lookup {json key t : Text} {fs : List Field} (ht : IsToken t)
    (h : lookup json key = some (t ++ closeFields fs)) : extractRaw json key = .ok (some t) := by
  obtain ⟨e, rest, hclose, he⟩ := closeFields_head fs
  have hspaces : (t ++ closeFields fs).dropWhile (· = ' ') = t ++ closeFields fs := by
    cases t with
    | nil => exact absurd rfl ht.1
    | cons c t =>
      have hc : c ≠ ' ' :=
        fun heq => ht.not_mem (c := ' ') (by decide) (heq ▸ List.mem_cons_self ..)
      simp [hc]
  have hvalue : (t ++ closeFields fs).takeWhile (fun c => c ≠ ',' ∧ c ≠ '\x7d') = t := by
    have hin : ∀ c ∈ t, decide (c ≠ ',' ∧ c ≠ '\x7d') = true := by
      intro c hc
      have hcomma : c ≠ ',' := fun heq => ht.not_mem (c := ',') (by decide) (heq ▸ hc)
      have hbrace : c ≠ '\x7d' := fun heq => ht.not_mem (c := '\x7d') (by decide) (heq ▸ hc)
      simp [hcomma, hbrace]
    rw [List.takeWhile_append_of_pos hin, hclose]
    rcases he with rfl | rfl <;> simp
  have hquote : t.head? ≠ some '"' :=
    fun heq => ht.not_mem (c := '"') (by decide) (List.mem_of_head? heq)
  have hlookup : (after (inQuotes key) json).bind (after [':']) = some (t ++ closeFields fs) := h
  simp only [extractRaw, hlookup, hspaces, hvalue, ht.strip_eq, hquote, false_and, if_false]

end WebrtcBridge.Stats
