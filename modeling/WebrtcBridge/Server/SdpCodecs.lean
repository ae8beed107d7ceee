/-
# The codec that an answer lists first

`SdpCodecs.firstMediaCodec` looks for a codec in the text of a session description.  It cuts the
text into lines, collects the lines of a media section in a `StringBuilder`, and runs a regular
expression over what it has collected:

    a=rtpmap:(\d+)\s+([^/]+)/(\d+)

What it should find is said over well-formed LINES (`SdpLine`): the first entry, of a codec that is
one, in the first section of the kind (`Sdp.firstCodec`).  There are three differences.

* An `m=` line of the kind starts the collection again, and `startsWith` does not see where a media
  type ends: the section that is read is the LAST of the first adjacent ones whose media type begins
  like the kind (`seenSection`).
* A match may start in the middle of some other line.
* A number of the entry may be no `int`.

If no match starts in another line in front of the entry, the result is right exactly if the section
that is read has the same first codec and its numbers are small enough (`firstMediaCodec_eq`).  The
collection is followed line by line (`collect`), the search entry by entry (`takeFirst_findAll`).
-/
import WebrtcBridge.Lib.Pattern
import WebrtcBridge.Server.Session
import WebrtcBridge.Stats.Numbers

namespace WebrtcBridge.Server.SdpCodecs

open Lib Lib.Text Stats

/-! ## 1. The code -/

/-- `\r?\n` at the start of a text. -/
def lineEnd : Text → Option Text
  | '\n' :: t => some t
  | '\r' :: '\n' :: t => some t
  | _ => none

/-- `sdp.split("\r?\n")`: empty lines at the end are left out, unless the text itself is empty. -/
def splitLines (sdp : Text) : List Text :=
  if sdp = [] then [[]] else (split lineEnd sdp).rdropWhile List.isEmpty

/-- `"m="`. -/
def mediaMark : Text := ['m', '=']

/-- `"a=rtpmap:"`. -/
def entryMark : Text := ['a', '=', 'r', 't', 'p', 'm', 'a', 'p', ':']

/-- The loop of `mediaSection`, with `sb`. -/
def sectionLoop (kind : Text) : Option Text → List Text → Option Text
  | sb, [] => sb
  | sb, line :: lines =>
    if mediaMark.isPrefixOf line then
      if (mediaMark ++ kind).isPrefixOf line then sectionLoop kind (some (line ++ ['\n'])) lines
      else if sb.isSome then sb
      else sectionLoop kind none lines
    else sectionLoop kind (sb.map (· ++ (line ++ ['\n']))) lines

def mediaSection (sdp kind : Text) : Option Text := sectionLoop kind none (splitLines sdp)

/-- `RTPMAP`. -/
def rtpmap : Pattern :=
  [.lit entryMark, .plus Char.isDigit, .plus isRegexSpace, .plus (· ≠ '/'), .lit ['/'],
    .plus Char.isDigit]

/-- `NON_MEDIA`. -/
def nonMedia : List Text :=
  [['r', 'e', 'd'], ['r', 't', 'x'], ['u', 'l', 'p', 'f', 'e', 'c'],
    ['f', 'l', 'e', 'x', 'f', 'e', 'c'],
    ['t', 'e', 'l', 'e', 'p', 'h', 'o', 'n', 'e', '-', 'e', 'v', 'e', 'n', 't']]

def isNonMedia (name : Text) : Bool := nonMedia.contains (name.map Char.toLower)

/-- `NumberFormatException`. -/
inductive SdpError where
  | numberFormat
  deriving DecidableEq, Repr

def parseInt (t : Text) : Except SdpError Nat :=
  match parseInteger (2 ^ 31) t with
  | some n => .ok n.toNat
  | none => .error .numberFormat

/-- The loop of `firstInMedia`: `m.group(1)`, `m.group(2)` and `m.group(3)` are the first, the third
and the fourth repetition of the pattern. -/
def takeFirst (kind : Text) (skipNonMedia : Bool) :
    List (List Text) → Except SdpError (Option Codec)
  | [] => .ok none
  | groups :: more =>
    let name := groups.getD 2 []
    if skipNonMedia && isNonMedia name then takeFirst kind skipNonMedia more
    else do
      let clock ← parseInt (groups.getD 3 [])
      let pt ← parseInt (groups.getD 0 [])
      return some ⟨kind ++ '/' :: name, clock, pt⟩

def firstInMedia (sdp kind : Text) (skipNonMedia : Bool) : Except SdpError (Option Codec) :=
  match mediaSection sdp kind with
  | none => .ok none
  | some mediaText => takeFirst kind skipNonMedia (rtpmap.findAll mediaText)

def firstMediaCodec (sdp kind : Text) : Except SdpError (Option Codec) := firstInMedia sdp kind true

/-! ## 2. Well-formed lines -/

/-- The characters of a token. -/
def isSdpTokenChar (c : Char) : Bool :=
  c = '!' || ('#' ≤ c && c ≤ '\x27') || c = '*' || c = '+' || c = '-' || c = '.' || c.isDigit
    || ('A' ≤ c && c ≤ 'Z') || ('^' ≤ c && c ≤ '~')

def IsSdpToken (t : Text) : Prop := t ≠ [] ∧ t.all isSdpTokenChar = true

instance (t : Text) : Decidable (IsSdpToken t) := inferInstanceAs (Decidable (_ ∧ _))

/-- A line: a media description, the entry of a codec, or anything else. -/
inductive SdpLine where
  /-- `m=<media> <port> <proto> <fmt> ...` -/
  | media (token more : Text) (htoken : IsSdpToken token)
      (hmore : more.all (fun c => isSdpTokenChar c || c = ' ' || c = '/') = true)
  /-- `a=rtpmap:<payload type> <name>/<clock rate>[/<parameters>]` -/
  | rtpmap (pt : Nat) (name : Text) (clock : Nat) (params : Option Text) (hname : IsSdpToken name)
      (hparams : ∀ t ∈ params, IsSdpToken t)
  /-- `<type>=<value>` -/
  | other (type : Char) (value : Text) (htype : type ≠ 'm' ∧ type ≠ '\n' ∧ type ≠ '\r')
      (hvalue : '\n' ∉ value ∧ '\r' ∉ value)
      (hentry : ¬ entryMark <+: type :: '=' :: value)

namespace SdpLine

/-- What may follow the clock rate. -/
def paramsText : Option Text → Text
  | none => []
  | some t => '/' :: t

def text : SdpLine → Text
  | .media token more _ _ => mediaMark ++ (token ++ ' ' :: more)
  | .rtpmap pt name clock params _ _ =>
    entryMark ++ (digits pt ++ ([' '] ++ (name ++ (['/'] ++ (digits clock ++ paramsText params)))))
  | .other type value _ _ _ => type :: '=' :: value

/-- The media type of a section that starts here. -/
def mediaType : SdpLine → Option Text
  | .media token _ _ _ => some token
  | _ => none

end SdpLine

inductive LineEnd where
  | lf
  | crlf
  deriving DecidableEq, Repr

def LineEnd.text : LineEnd → Text
  | .lf => ['\n']
  | .crlf => ['\r', '\n']

/-- A session description; the last line may have no end. -/
structure Sdp where
  lines : List (SdpLine × LineEnd)
  last : Option SdpLine

namespace Sdp

def allLines (sdp : Sdp) : List SdpLine := sdp.lines.map (·.1) ++ sdp.last.toList

def text (sdp : Sdp) : Text :=
  sdp.lines.flatMap (fun l => l.1.text ++ l.2.text) ++ (sdp.last.map SdpLine.text).getD []

end Sdp

/-! ## 3. What is to be found -/

def mediaName : MediaKind → Text
  | .audio => ['a', 'u', 'd', 'i', 'o']
  | .video => ['v', 'i', 'd', 'e', 'o']

/-- The first section of a kind. -/
def firstSection (kind : Text) : List SdpLine → Option (List SdpLine)
  | [] => none
  | line :: lines =>
    if line.mediaType = some kind then some (line :: lines.takeWhile (·.mediaType = none))
    else firstSection kind lines

/-- The codec of an entry, unless it is none. -/
def SdpLine.codec (kind : Text) : SdpLine → Option Codec
  | .rtpmap pt name clock _ _ _ =>
    if isNonMedia name then none else some ⟨kind ++ '/' :: name, clock, pt⟩
  | _ => none

/-- **The first codec of the first section of the kind.** -/
def Sdp.firstCodec (sdp : Sdp) (kind : MediaKind) : Option Codec :=
  (firstSection (mediaName kind) sdp.allLines).bind fun lines =>
    lines.findSome? (SdpLine.codec (mediaName kind))

/-! ## 4. Lines -/

theorem token_ne {c x : Char} (h : isSdpTokenChar c = true) (hx : isSdpTokenChar x = false) :
    c ≠ x := by
  rintro rfl
  rw [h] at hx
  cases hx

theorem token_not_space {c : Char} (h : isSdpTokenChar c = true) : isRegexSpace c = false := by
  cases hspace : isRegexSpace c with
  | false => rfl
  | true =>
    simp only [isRegexSpace, Bool.or_eq_true, decide_eq_true_eq] at hspace
    rcases hspace with ((((rfl | rfl) | rfl) | rfl) | rfl) | rfl <;> cases h

theorem isSdpTokenChar_digits {n : Nat} {c : Char} (h : c ∈ digits n) :
    isSdpTokenChar c = true := by
  simp [isSdpTokenChar, isDigit_of_mem_digits h]

theorem IsSdpToken.char {t : Text} (h : IsSdpToken t) {c : Char} (hc : c ∈ t) :
    isSdpTokenChar c = true := List.all_eq_true.mp h.2 c hc

/-- A token has no character that is none of a token. -/
theorem IsSdpToken.not_mem {t : Text} (h : IsSdpToken t) {x : Char}
    (hx : isSdpTokenChar x = false) :
    x ∉ t := by
  intro hmem
  rw [h.char hmem] at hx
  cases hx

theorem not_mem_digits {n : Nat} {x : Char} (hx : isSdpTokenChar x = false) : x ∉ digits n := by
  intro hmem
  rw [isSdpTokenChar_digits hmem] at hx
  cases hx

theorem not_mem_paramsText {params : Option Text} (h : ∀ t ∈ params, IsSdpToken t) {x : Char}
    (hx : isSdpTokenChar x = false) (hslash : x ≠ '/') : x ∉ SdpLine.paramsText params := by
  cases params with
  | none => exact List.not_mem_nil
  | some t =>
    intro hmem
    rcases List.mem_cons.mp hmem with heq | hmem
    · exact hslash heq
    · exact (h t rfl).not_mem hx hmem

/-- What follows the media type. -/
theorem not_mem_more {more : Text}
    (h : more.all (fun c => isSdpTokenChar c || c = ' ' || c = '/') = true) {x : Char}
    (hx : isSdpTokenChar x = false) (hspace : x ≠ ' ') (hslash : x ≠ '/') : x ∉ more := by
  intro hmem
  have hchar := List.all_eq_true.mp h x hmem
  rw [hx, decide_eq_false hspace, decide_eq_false hslash] at hchar
  cases hchar

namespace SdpLine

theorem not_mem_text (l : SdpLine) {x : Char} (hx : x = '\n' ∨ x = '\r') : x ∉ l.text := by
  have htoken : isSdpTokenChar x = false := by rcases hx with rfl | rfl <;> decide
  have hplain : x ∉ mediaMark ∧ x ∉ entryMark ∧ x ≠ ' ' ∧ x ≠ '/' ∧ x ≠ '=' := by
    rcases hx with rfl | rfl <;> decide
  obtain ⟨hm, ha, hspace, hslash, hequal⟩ := hplain
  cases l with
  | media token more ht hmore =>
    simp only [text, List.mem_append, List.mem_cons, not_or]
    exact ⟨hm, ht.not_mem htoken, hspace, not_mem_more hmore htoken hspace hslash⟩
  | rtpmap pt name clock params hname hparams =>
    simp only [text, List.mem_append, List.mem_singleton, not_or]
    exact ⟨ha, not_mem_digits htoken, hspace, hname.not_mem htoken, hslash, not_mem_digits htoken,
      not_mem_paramsText hparams htoken hslash⟩
  | other type value htype hvalue =>
    simp only [text, List.mem_cons, not_or]
    rcases hx with rfl | rfl
    · exact ⟨htype.2.1.symm, hequal, hvalue.1⟩
    · exact ⟨htype.2.2.symm, hequal, hvalue.2⟩

theorem text_ne_nil (l : SdpLine) : l.text ≠ [] := by
  cases l with
  | media | rtpmap | other => exact List.cons_ne_nil _ _

/-- `line.startsWith("m=")`. -/
theorem startsWith_m (l : SdpLine) : mediaMark.isPrefixOf l.text = l.mediaType.isSome := by
  cases l with
  | media token more =>
    exact List.isPrefixOf_iff_prefix.mpr (List.prefix_append _ _)
  | rtpmap => rfl
  | other type value htype =>
    have hne : ('m' == type) = false := beq_false_of_ne htype.1.symm
    rw [text, mediaMark, List.isPrefixOf_cons_cons, hne, Bool.false_and]
    rfl

/-- `line.startsWith("m=" + kind)` does not ask where the media type ends. -/
theorem startsWith_kind {kind token more : Text} {htoken : IsSdpToken token}
    {hmore : more.all (fun c => isSdpTokenChar c || c = ' ' || c = '/') = true}
    (hkind : ' ' ∉ kind) :
    (mediaMark ++ kind).isPrefixOf (SdpLine.media token more htoken hmore).text
      = kind.isPrefixOf token := by
  rw [Bool.eq_iff_iff, List.isPrefixOf_iff_prefix, List.isPrefixOf_iff_prefix, text,
    List.prefix_append_right_inj]
  constructor
  · intro h
    exact Pattern.prefix_of_stop h hkind
  · intro h
    exact h.trans (List.prefix_append token _)

end SdpLine

/-! ### The text and its lines -/

theorem uncut_line (l : SdpLine) (t : Text) : Uncut lineEnd l.text t := by
  intro a b hab hb
  cases b with
  | nil => exact absurd rfl hb
  | cons c b =>
    have hmem : c ∈ l.text := by
      rw [hab]
      exact List.mem_append_right a List.mem_cons_self
    have hlf : c ≠ '\n' := fun h => l.not_mem_text (.inl h) hmem
    have hcr : c ≠ '\r' := fun h => l.not_mem_text (.inr h) hmem
    rw [List.cons_append, lineEnd]
    · exact fun u h => hlf (List.cons.inj h).1
    · exact fun u h => hcr (List.cons.inj h).1

theorem splitGo_line (l : SdpLine) (e : LineEnd) (t : Text) :
    splitGo lineEnd 0 [] (l.text ++ e.text ++ t) = l.text :: splitGo lineEnd 0 [] t := by
  rw [List.append_assoc, splitGo_uncut [] _ (uncut_line l _), List.nil_append]
  cases e with
  | lf => exact splitGo_sep (s := []) l.text rfl
  | crlf => exact splitGo_sep (s := ['\n']) l.text rfl

/-- The pieces: the lines, and what is behind the last end. -/
theorem split_lines (lines : List (SdpLine × LineEnd)) (last : Option SdpLine) :
    split lineEnd (lines.flatMap (fun l => l.1.text ++ l.2.text) ++ (last.map SdpLine.text).getD [])
      = lines.map (·.1.text) ++ [(last.map SdpLine.text).getD []] := by
  unfold split
  induction lines with
  | nil =>
    cases last with
    | none => rfl
    | some l =>
      have huncut := splitGo_uncut [] [] (uncut_line l [])
      rw [List.append_nil] at huncut
      exact huncut
  | cons l lines ih =>
    rw [List.flatMap_cons, List.append_assoc, splitGo_line, ih]
    rfl

theorem rdropWhile_lines (ls : List SdpLine) :
    (ls.map SdpLine.text).rdropWhile List.isEmpty = ls.map SdpLine.text := by
  refine List.rdropWhile_eq_self_iff.mpr ?_
  intro hne hempty
  obtain ⟨l, -, hl⟩ := List.mem_map.mp (List.getLast_mem hne)
  rw [← hl, List.isEmpty_iff] at hempty
  exact l.text_ne_nil hempty

theorem Sdp.allLines_eq_nil (sdp : Sdp) (h : sdp.text = []) : sdp.allLines = [] := by
  obtain ⟨lines, last⟩ := sdp
  obtain ⟨hlines, hlast⟩ := List.append_eq_nil_iff.mp h
  cases lines with
  | nil =>
    cases last with
    | none => rfl
    | some l => exact absurd hlast l.text_ne_nil
  | cons l lines =>
    rw [List.flatMap_cons] at hlines
    have hl := (List.append_eq_nil_iff.mp (List.append_eq_nil_iff.mp hlines).1).1
    exact absurd hl l.1.text_ne_nil

/-- **The lines are found**; an empty text has an empty line. -/
theorem splitLines_text (sdp : Sdp) :
    splitLines sdp.text = if sdp.text = [] then [[]] else sdp.allLines.map SdpLine.text := by
  unfold splitLines
  split
  · rfl
  · obtain ⟨lines, last⟩ := sdp
    have hsplit := split_lines lines last
    rw [Sdp.text, hsplit]
    cases last with
    | none =>
      have hlines : lines.map (·.1.text) = (lines.map (·.1)).map SdpLine.text := by
        rw [List.map_map]
        rfl
      rw [hlines, Sdp.allLines, Option.toList_none, List.append_nil]
      exact (List.rdropWhile_concat_pos _ _ _ rfl).trans (rdropWhile_lines _)
    | some l =>
      have hlines : lines.map (·.1.text) ++ [l.text]
          = (lines.map (·.1) ++ [l]).map SdpLine.text := by
        rw [List.map_append, List.map_map]
        rfl
      exact (congrArg _ hlines).trans (rdropWhile_lines _)

/-! ## 5. The section -/

/-- What is appended to the `StringBuilder`. -/
def joined (ls : List SdpLine) : Text := ls.flatMap fun l => l.text ++ ['\n']

/-- The loop over the lines themselves. -/
def collect (kind : Text) : Option (List SdpLine) → List SdpLine → Option (List SdpLine)
  | sb, [] => sb
  | sb, line :: lines =>
    match line.mediaType with
    | some token =>
      if kind.isPrefixOf token then collect kind (some [line]) lines
      else if sb.isSome then sb
      else collect kind none lines
    | none => collect kind (sb.map (· ++ [line])) lines

theorem sectionLoop_eq {kind : Text} (hkind : ' ' ∉ kind) (lines : List SdpLine)
    (sb : Option (List SdpLine)) :
    sectionLoop kind (sb.map joined) (lines.map SdpLine.text)
      = (collect kind sb lines).map joined := by
  induction lines generalizing sb with
  | nil => rfl
  | cons line lines ih =>
    rw [List.map_cons, sectionLoop, line.startsWith_m, collect]
    cases line with
    | media token more htoken hmore =>
      simp only [SdpLine.mediaType, Option.isSome_some, if_true, SdpLine.startsWith_kind hkind]
      split
      · have hone := ih (some [.media token more htoken hmore])
        simp only [Option.map_some, joined, List.flatMap_cons, List.flatMap_nil,
          List.append_nil] at hone
        exact hone
      · cases sb with
        | none => exact ih none
        | some collected => rfl
    | rtpmap | other =>
      simp only [SdpLine.mediaType, Option.isSome_none, Bool.false_eq_true, if_false]
      rw [← ih, Option.map_map, Option.map_map]
      congr 2
      funext collected
      simp [joined]

/-- All sections. -/
def sections : List SdpLine → List (List SdpLine)
  | [] => []
  | line :: lines =>
    if line.mediaType.isSome then (line :: lines.takeWhile (·.mediaType = none)) :: sections lines
    else sections lines

/-- The media type begins like the kind. -/
def isLike (kind : Text) (lines : List SdpLine) : Bool :=
  (lines.head?.bind SdpLine.mediaType).any kind.isPrefixOf

/-- **The section that is read**: the last of the first adjacent ones that are like the kind. -/
def seenSection (kind : Text) (lines : List SdpLine) : Option (List SdpLine) :=
  (((sections lines).dropWhile (!isLike kind ·)).takeWhile (isLike kind)).getLast?

/-- Its first codec. -/
def Sdp.seenCodec (sdp : Sdp) (kind : MediaKind) : Option Codec :=
  (seenSection (mediaName kind) sdp.allLines).bind fun lines =>
    lines.findSome? (SdpLine.codec (mediaName kind))

theorem isLike_cons {kind token : Text} {line : SdpLine} (htype : line.mediaType = some token)
    (lines : List SdpLine) : isLike kind (line :: lines) = true ↔ kind <+: token := by
  simp [isLike, htype]

/-- A section is collected up to the next one, and then perhaps that one. -/
theorem collect_some (kind : Text) (lines collected : List SdpLine) :
    collect kind (some collected) lines
      = ((collected ++ lines.takeWhile (·.mediaType = none))
          :: (sections lines).takeWhile (isLike kind)).getLast? := by
  induction lines generalizing collected with
  | nil => simp [collect, sections]
  | cons line lines ih =>
    rw [collect, sections]
    cases htype : line.mediaType with
    | none => simp [htype, ih]
    | some token =>
      by_cases hmark : kind <+: token
      · have hlike := fun ls => (isLike_cons htype ls).mpr hmark
        simp [htype, hmark, hlike, ih]
      · have hlike := fun ls => mt (isLike_cons htype ls).mp hmark
        simp [htype, hmark, hlike]

/-- **The section that is collected.** -/
theorem collect_none (kind : Text) (lines : List SdpLine) :
    collect kind none lines = seenSection kind lines := by
  unfold seenSection
  induction lines with
  | nil => rfl
  | cons line lines ih =>
    rw [collect, sections]
    cases htype : line.mediaType with
    | none => simpa using ih
    | some token =>
      by_cases hmark : kind <+: token
      · have hlike := fun ls => (isLike_cons htype ls).mpr hmark
        simp [hmark, hlike, collect_some]
      · have hlike := fun ls => mt (isLike_cons htype ls).mp hmark
        simpa [hmark, hlike] using ih

theorem mediaSection_eq {kind : Text} (hkind : ' ' ∉ kind) (sdp : Sdp) :
    mediaSection sdp.text kind = (seenSection kind sdp.allLines).map joined := by
  rw [mediaSection, splitLines_text, ← collect_none]
  split
  · next hempty =>
    rw [sdp.allLines_eq_nil hempty]
    rfl
  · exact sectionLoop_eq hkind sdp.allLines none

/-! ## 6. The entries -/

/-- **No match starts in another line**, up to the first codec. -/
def Quiet (kind : Text) : List SdpLine → Prop
  | [] => True
  | line :: lines =>
    (line.codec kind).isSome = true
      ∨ (match line with
          | .other .. => Uncut rtpmap.rest line.text ('\n' :: joined lines)
          | .media .. | .rtpmap .. => True)
        ∧ Quiet kind lines

theorem not_infix_of_colon {u : Text} (h : ':' ∉ u) : ¬ entryMark <:+: u := by
  intro hinside
  exact h (hinside.subset (by decide))

/-- An entry without its parameters. -/
def entryText (pt : Nat) (name : Text) (clock : Nat) : Text :=
  entryMark ++ (digits pt ++ ([' '] ++ (name ++ (['/'] ++ digits clock))))

/-- **An entry is matched up to its clock rate**, and no repetition gives anything back. -/
theorem matchAt_entry (pt : Nat) {name : Text} (hname : IsSdpToken name) (clock : Nat) {t : Text}
    (ht : ∀ c ∈ t.head?, c.isDigit = false) :
    rtpmap.matchAt (entryText pt name clock ++ t)
      = some ([digits pt, [' '], name, digits clock], t) := by
  have hdigit : ∀ n, ∀ c ∈ digits n, c.isDigit = true := fun n c hc => isDigit_of_mem_digits hc
  have hname' : ∀ c ∈ name, decide (c ≠ '/') = true :=
    fun c hc => decide_eq_true (token_ne (hname.char hc) (by decide))
  have hhead : ∀ c ∈ (name ++ (['/'] ++ (digits clock ++ t))).head?, isRegexSpace c = false := by
    intro c hc
    cases name with
    | nil => exact absurd rfl hname.1
    | cons x name =>
      cases hc
      exact token_not_space (hname.char List.mem_cons_self)
  have hclock : Pattern.matchAt [.plus Char.isDigit] (digits clock ++ t)
      = some ([digits clock], t) :=
    Pattern.matchAt_plus Nat.toDigits_ne_nil (hdigit clock) ht rfl
  have hslash : Pattern.matchAt [.lit ['/'], .plus Char.isDigit] (['/'] ++ (digits clock ++ t))
      = some ([digits clock], t) := (Pattern.matchAt_lit _ _ _).trans hclock
  have hnames : Pattern.matchAt [.plus (· ≠ '/'), .lit ['/'], .plus Char.isDigit]
      (name ++ (['/'] ++ (digits clock ++ t))) = some ([name, digits clock], t) :=
    Pattern.matchAt_plus hname.1 hname' (by rintro c ⟨⟩; rfl) hslash
  have hspace :
    Pattern.matchAt [.plus isRegexSpace, .plus (· ≠ '/'), .lit ['/'], .plus Char.isDigit]
      ([' '] ++ (name ++ (['/'] ++ (digits clock ++ t)))) = some ([[' '], name, digits clock], t) :=
    Pattern.matchAt_plus (by simp) (by simp [isRegexSpace]) hhead hnames
  have hpt := Pattern.matchAt_plus Nat.toDigits_ne_nil (hdigit pt) (by rintro c ⟨⟩; rfl) hspace
  simp only [entryText, List.append_assoc]
  exact (Pattern.matchAt_lit _ _ _).trans hpt

/-- A piece without the mark, up to the end of its line. -/
theorem findAll_skip {u : Text} (hu : ¬ entryMark <:+: u) (t : Text) :
    rtpmap.findAll (u ++ ['\n'] ++ t) = rtpmap.findAll t :=
  Pattern.findAll_uncut (Pattern.uncut_of_lit _ (by decide) hu t)

theorem findAll_entry (pt : Nat) {name : Text} (clock : Nat) {params : Option Text}
    (hname : IsSdpToken name) (hparams : ∀ t ∈ params, IsSdpToken t) (t : Text) :
    rtpmap.findAll ((SdpLine.rtpmap pt name clock params hname hparams).text ++ ['\n'] ++ t)
      = [digits pt, [' '], name, digits clock] :: rtpmap.findAll t := by
  have hparams' : ¬ entryMark <:+: SdpLine.paramsText params :=
    not_infix_of_colon (not_mem_paramsText hparams (by decide) (by decide))
  have hhead : ∀ c ∈ (SdpLine.paramsText params ++ ['\n'] ++ t).head?, c.isDigit = false := by
    cases params with
    | none | some => rintro c ⟨⟩; rfl
  have hsplit : (SdpLine.rtpmap pt name clock params hname hparams).text ++ ['\n'] ++ t
      = entryText pt name clock ++ (SdpLine.paramsText params ++ ['\n'] ++ t) := by
    simp only [SdpLine.text, entryText, List.append_assoc]
  have hne : entryText pt name clock ≠ [] := List.cons_ne_nil _ _
  rw [hsplit, Pattern.findAll_match hne (matchAt_entry pt hname clock hhead), findAll_skip hparams']

theorem parseInt_digits (n : Nat) :
    parseInt (digits n) = if n < 2 ^ 31 then .ok n else .error .numberFormat := by
  rw [parseInt, parseInteger_digits]
  by_cases h : n < 2 ^ 31
  · rw [if_pos h, if_pos h]
    rfl
  · rw [if_neg h, if_neg h]

/-- Both numbers are `int`s. -/
def Fits (codec : Codec) : Prop := codec.clock < 2 ^ 31 ∧ codec.pt < 2 ^ 31

instance (codec : Codec) : Decidable (Fits codec) := inferInstanceAs (Decidable (_ ∧ _))

/-- What is returned for a codec. -/
def returned : Option Codec → Except SdpError (Option Codec)
  | none => .ok none
  | some codec => if Fits codec then .ok (some codec) else .error .numberFormat

/-- One entry: a codec ends the loop. -/
theorem takeFirst_entry (kind : Text) (pt : Nat) {name : Text} (clock : Nat)
    (hmedia : isNonMedia name = false) (more : List (List Text)) :
    takeFirst kind true ([digits pt, [' '], name, digits clock] :: more)
      = returned (some ⟨kind ++ '/' :: name, clock, pt⟩) := by
  simp only [takeFirst, List.getD_cons_succ, List.getD_cons_zero, hmedia, Bool.and_false,
    Bool.false_eq_true, if_false, parseInt_digits, returned, Fits]
  by_cases hclock : clock < 2 ^ 31
  · by_cases hpt : pt < 2 ^ 31
    · simp only [hclock, hpt, and_self, if_true]
      rfl
    · simp only [hclock, hpt, and_false, if_true, if_false]
      rfl
  · simp only [hclock, false_and, if_false]
    rfl

/-- **The search and the loop over the entries**, line by line. -/
theorem takeFirst_findAll (kind : Text) (ls : List SdpLine) (hquiet : Quiet kind ls) :
    takeFirst kind true (rtpmap.findAll (joined ls))
      = returned (ls.findSome? (SdpLine.codec kind)) := by
  induction ls with
  | nil => rfl
  | cons line ls ih =>
    have hjoined : joined (line :: ls) = line.text ++ ['\n'] ++ joined ls := rfl
    rw [hjoined, List.findSome?_cons]
    cases line with
    | media token more htoken hmore =>
      obtain hcodec | ⟨-, hquiet⟩ := hquiet
      · cases hcodec
      have hcolon : ':' ∉ (SdpLine.media token more htoken hmore).text := by
        simp only [SdpLine.text, List.mem_append, List.mem_cons, not_or]
        exact ⟨by decide, htoken.not_mem (by decide), by decide,
          not_mem_more hmore (by decide) (by decide) (by decide)⟩
      rw [findAll_skip (not_infix_of_colon hcolon)]
      exact ih hquiet
    | other type value htype hvalue hentry =>
      obtain hcodec | ⟨huncut, hquiet⟩ := hquiet
      · cases hcodec
      have hend : Uncut rtpmap.rest ['\n'] (joined ls) :=
        Pattern.uncut_of_lit (u := []) _ (by decide) (not_infix_of_colon List.not_mem_nil) _
      rw [Pattern.findAll_uncut (Uncut.append huncut hend)]
      exact ih hquiet
    | rtpmap pt name clock params hname hparams =>
      rw [findAll_entry]
      cases hmedia : isNonMedia name with
      | true =>
        have hcodec : SdpLine.codec kind (.rtpmap pt name clock params hname hparams) = none := by
          rw [SdpLine.codec, hmedia]
          rfl
        obtain hsome | ⟨-, hquiet⟩ := hquiet
        · rw [hcodec] at hsome
          cases hsome
        rw [hcodec, ← ih hquiet]
        simp only [takeFirst, List.getD_cons_succ, List.getD_cons_zero, hmedia,
          Bool.and_self, if_true]
      | false =>
        have hcodec : SdpLine.codec kind (.rtpmap pt name clock params hname hparams)
            = some ⟨kind ++ '/' :: name, clock, pt⟩ := by
          rw [SdpLine.codec, hmedia]
          rfl
        rw [takeFirst_entry kind pt clock hmedia, hcodec]

theorem returned_eq_iff {seen first : Option Codec} :
    returned seen = .ok first ↔ seen = first ∧ ∀ codec ∈ first, Fits codec := by
  cases seen with
  | none =>
    constructor
    · intro h
      cases h
      exact ⟨rfl, by simp⟩
    · rintro ⟨rfl, -⟩
      rfl
  | some codec =>
    by_cases hfits : Fits codec
    · rw [returned, if_pos hfits]
      constructor
      · intro h
        cases h
        exact ⟨rfl, by simpa using hfits⟩
      · rintro ⟨rfl, -⟩
        rfl
    · rw [returned, if_neg hfits]
      constructor
      · intro h
        cases h
      · rintro ⟨rfl, hall⟩
        exact absurd (hall codec rfl) hfits

/-- **The first codec of the first section of the kind.**  If no match starts in another line, it is
returned exactly if the section that is read has the same first codec, and the numbers are
`int`s. -/
theorem firstMediaCodec_eq (sdp : Sdp) (kind : MediaKind)
    (hquiet : ∀ lines ∈ seenSection (mediaName kind) sdp.allLines, Quiet (mediaName kind) lines) :
    firstMediaCodec sdp.text (mediaName kind) = .ok (sdp.firstCodec kind) ↔
      sdp.seenCodec kind = sdp.firstCodec kind ∧ ∀ codec ∈ sdp.firstCodec kind, Fits codec := by
  have hkind : ' ' ∉ mediaName kind := by cases kind <;> decide
  have hresult : firstMediaCodec sdp.text (mediaName kind) = returned (sdp.seenCodec kind) := by
    rw [firstMediaCodec, firstInMedia, mediaSection_eq hkind sdp, Sdp.seenCodec]
    cases hsection : seenSection (mediaName kind) sdp.allLines with
    | none => rfl
    | some lines => exact takeFirst_findAll (mediaName kind) lines (hquiet lines hsection)
  rw [hresult, returned_eq_iff]

/-! ## 7. Examples -/

/-- `m=<media> 9 RTP/AVP 0` -/
def mediaLine (token : Text) (h : IsSdpToken token) : SdpLine :=
  .media token ['9', ' ', 'R', 'T', 'P', '/', 'A', 'V', 'P', ' ', '0'] h (by decide)

def audioLine : SdpLine := mediaLine ['a', 'u', 'd', 'i', 'o'] (by decide)

def videoLine : SdpLine := mediaLine ['v', 'i', 'd', 'e', 'o'] (by decide)

/-- `a=rtpmap:0 PCMU/8000` -/
def pcmuLine : SdpLine := .rtpmap 0 ['P', 'C', 'M', 'U'] 8000 none (by decide) (by simp)

/-- `a=rtpmap:8 PCMA/8000/1` -/
def pcmaLine : SdpLine := .rtpmap 8 ['P', 'C', 'M', 'A'] 8000 (some ['1']) (by decide) (by decide)

/-- `a=rtpmap:99 RED/8000` -/
def redLine : SdpLine := .rtpmap 99 ['R', 'E', 'D'] 8000 none (by decide) (by simp)

def codecPcmu : Codec := ⟨['a', 'u', 'd', 'i', 'o', '/', 'P', 'C', 'M', 'U'], 8000, 0⟩

def codecPcma : Codec := ⟨['a', 'u', 'd', 'i', 'o', '/', 'P', 'C', 'M', 'A'], 8000, 8⟩

def sdpOf (lines : List SdpLine) : Sdp := ⟨lines.map (·, .crlf), none⟩

/-- A section of video between two of audio. -/
def threeSections : Sdp :=
  sdpOf [audioLine, redLine, pcmaLine, videoLine, pcmuLine, audioLine, pcmuLine]

theorem firstMediaCodec_three_sections :
    firstMediaCodec threeSections.text (mediaName .audio) = .ok (some codecPcma) := by
  have hquiet : ∀ lines ∈ seenSection (mediaName .audio) threeSections.allLines,
      Quiet (mediaName .audio) lines := by
    rintro lines ⟨⟩
    exact .inr ⟨trivial, .inr ⟨trivial, .inl rfl⟩⟩
  exact (firstMediaCodec_eq threeSections .audio hquiet).mpr (by decide)

/-- Two sections of audio, one after the other. -/
def adjacentSections : Sdp := sdpOf [audioLine, pcmuLine, audioLine, pcmaLine]

/-- `m=audiox` in front of `m=audio`. -/
def longerToken : Sdp :=
  sdpOf [mediaLine ['a', 'u', 'd', 'i', 'o', 'x'] (by decide), pcmuLine, videoLine,
    audioLine, pcmaLine]

/-- `i=a=rtpmap:0 PCMU/8000` -/
def titleLine : SdpLine := .other 'i' pcmuLine.text (by decide) (by decide) (by decide)

def entryInTitle : Sdp := sdpOf [audioLine, titleLine, pcmaLine]

/-- A clock rate of `2^31`. -/
def hugeClock : Sdp :=
  sdpOf [audioLine, .rtpmap 8 ['P', 'C', 'M', 'A'] (2 ^ 31) none (by decide) (by simp)]

/-- **Not the first section, no section of the kind, no entry, no codec at all.** -/
theorem firstMediaCodec_other :
    (adjacentSections.firstCodec .audio = some codecPcmu
        ∧ firstMediaCodec adjacentSections.text (mediaName .audio) = .ok (some codecPcma))
      ∧ (longerToken.firstCodec .audio = some codecPcma
        ∧ firstMediaCodec longerToken.text (mediaName .audio) = .ok (some codecPcmu))
      ∧ (entryInTitle.firstCodec .audio = some codecPcma
        ∧ firstMediaCodec entryInTitle.text (mediaName .audio) = .ok (some codecPcmu))
      ∧ ((hugeClock.firstCodec .audio).isSome = true
        ∧ firstMediaCodec hugeClock.text (mediaName .audio) = .error .numberFormat) := by
  decide +kernel

end WebrtcBridge.Server.SdpCodecs
