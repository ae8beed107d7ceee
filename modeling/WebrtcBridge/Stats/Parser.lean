/-
# What `StatsReport.parse` makes of it

The Java side does not parse JSON.  It takes off the outer brackets, splits the text at the regular
expression `\}\s*,\s*\{`, and looks in each piece for quoted key words with `indexOf`; what comes
behind the next colon is the value.  There is no notion of nesting, of a string being open, or of an
escape.

Index arithmetic becomes suffixes: what follows the first occurrence of something.  Text the
printer would never produce is covered too, with two exceptions.  Digits outside ASCII, which
`Long.parseLong` accepts, count as no digits here.  A `double` is the decimal token it is read
from, and the other spellings `Double.parseDouble` takes (a leading `+`, a bare point, exponents,
hexadecimal, type suffixes, `NaN` and `Infinity`) count as no number.
-/
import Mathlib.Algebra.Group.Nat.Defs
import Mathlib.Data.List.DropRight
import WebrtcBridge.Stats.Report

namespace WebrtcBridge.Stats

open Lib Lib.Text

/-! ## 1. Java's library -/

/-- `\s` of a regular expression. -/
def isRegexSpace (c : Char) : Bool :=
  c = ' ' || c = '\t' || c = '\n' || c = '\x0b' || c = '\x0c' || c = '\r'

/-- `Character.isWhitespace`. -/
def isJavaWhitespace (c : Char) : Bool :=
  isRegexSpace c || ('\x1c' ≤ c && c ≤ '\x1f') || c = '\u1680' || ('\u2000' ≤ c && c ≤ '\u2006')
    || ('\u2008' ≤ c && c ≤ '\u200a') || c = '\u2028' || c = '\u2029'
    || c = '\u205f' || c = '\u3000'

/-- `String.strip`. -/
def strip (t : Text) : Text := (t.dropWhile isJavaWhitespace).rdropWhile isJavaWhitespace

/-- White space and then `c`: what follows. -/
def skipTo (c : Char) (t : Text) : Option Text :=
  match t.dropWhile isRegexSpace with
  | [] => none
  | x :: rest => if x = c then some rest else none

/-- A match of `\}\s*,\s*\{` at the start of a text: what follows. -/
def borderRest : Text → Option Text
  | [] => none
  | c :: rest => if c = '\x7d' then (skipTo ',' rest).bind (skipTo '\x7b') else none

/-- `split("\\}\\s*,\\s*\\{")`: empty pieces at the end are left out. -/
def splitObjects (t : Text) : List Text := (split borderRest t).rdropWhile List.isEmpty

/-- `Long.parseLong` (`bound` is `2 ^ 63`) and `Integer.parseInt` (`2 ^ 31`); `none` is a
`NumberFormatException`. -/
def parseInteger (bound : Nat) (t : Text) : Option Int :=
  let negative := t.head? = some '-'
  let ds := if t.head? = some '-' ∨ t.head? = some '+' then t.tail else t
  if ds.isEmpty || !ds.all Char.isDigit then none
  else
    let n := Nat.ofDigitChars 10 ds 0
    if negative then if n ≤ bound then some (-n) else none
    else if n < bound then some n else none

/-- A decimal token of the form `f64` prints; `Double.parseDouble` takes all of these. -/
def isDecimal (t : Text) : Bool :=
  let t := if t.head? = some '-' then t.tail else t
  let whole := t.takeWhile Char.isDigit
  match t.dropWhile Char.isDigit with
  | [] => !whole.isEmpty
  | c :: fraction => !whole.isEmpty && c = '.' && !fraction.isEmpty && fraction.all Char.isDigit

/-! ## 2. `StatsReport` -/

/-- `InboundRtpStats`. -/
@[ext]
structure InboundRtpStats where
  ssrc : Int
  kind : Option Text
  trackIdentifier : Option Text
  bytesReceived : Int
  packetsReceived : Int
  packetsLost : Int
  jitter : Text
  nackCount : Int
  firCount : Int
  pliCount : Int
  deriving DecidableEq

/-- `PeerConnectionStats`. -/
structure PeerConnectionStats where
  dataChannelsOpened : Int
  dataChannelsClosed : Int
  deriving DecidableEq

/-- `RemoteCandidateStats`. -/
structure RemoteCandidateStats where
  address : Option Text
  port : Int
  candidateType : Option Text
  deriving DecidableEq

/-- `StatsReport`. -/
structure StatsReport where
  inboundRtpStreams : List InboundRtpStats
  peerConnections : List PeerConnectionStats
  remoteCandidates : List RemoteCandidateStats
  deriving DecidableEq

/-- `substring` throws `StringIndexOutOfBoundsException`. -/
inductive ParseError
  | stringIndexOutOfBounds
  deriving DecidableEq, Repr

/-- `extractString`; `none` is `null`. -/
def extractString (json key : Text) : Option Text := do
  let rest ← after (inQuotes key) json
  let rest ← after [':'] rest
  let rest ← after ['"'] rest
  before '"' rest

/-- `extractRaw`.  A value that is a single quote starts and ends with one, and `substring(1, 0)`
throws. -/
def extractRaw (json key : Text) : Except ParseError (Option Text) :=
  match (after (inQuotes key) json).bind (after [':']) with
  | none => .ok none
  | some rest =>
    let rest := rest.dropWhile (· = ' ')
    let val := strip (rest.takeWhile fun c => c ≠ ',' ∧ c ≠ '\x7d')
    if val.head? = some '"' ∧ val.getLast? = some '"' then
      if val.length = 1 then .error .stringIndexOutOfBounds else .ok (some val.tail.dropLast)
    else .ok (some val)

/-- `extractLong` and `extractInt`: 0 if there is no value or no number. -/
def extractInteger (bound : Nat) (json key : Text) : Except ParseError Int :=
  (extractRaw json key).map fun val => (val.bind (parseInteger bound)).getD 0

def extractLong (json key : Text) : Except ParseError Int := extractInteger (2 ^ 63) json key

def extractInt (json key : Text) : Except ParseError Int := extractInteger (2 ^ 31) json key

/-- `extractDouble`. -/
def extractDouble (json key : Text) : Except ParseError Text :=
  (extractRaw json key).map fun val => (val.filter isDecimal).getD ['0']

/-- What an object adds to the report. -/
inductive StatsObject
  | inboundRtp (s : InboundRtpStats)
  | peerConnection (s : PeerConnectionStats)
  | remoteCandidate (s : RemoteCandidateStats)
  deriving DecidableEq

/-- The case `"inbound-rtp"`. -/
def readInboundRtp (obj : Text) : Except ParseError InboundRtpStats := do
  return {
    ssrc := ← extractLong obj "ssrc".toList
    kind := extractString obj "kind".toList
    trackIdentifier := extractString obj "track_identifier".toList
    bytesReceived := ← extractLong obj "bytes_received".toList
    packetsReceived := ← extractLong obj "packets_received".toList
    packetsLost := ← extractLong obj "packets_lost".toList
    jitter := ← extractDouble obj "jitter".toList
    nackCount := ← extractInt obj "nack_count".toList
    firCount := ← extractInt obj "fir_count".toList
    pliCount := ← extractInt obj "pli_count".toList }

/-- The case `"peer-connection"`. -/
def readPeerConnection (obj : Text) : Except ParseError PeerConnectionStats := do
  return {
    dataChannelsOpened := ← extractInt obj "data_channels_opened".toList
    dataChannelsClosed := ← extractInt obj "data_channels_closed".toList }

/-- The case `"remote-candidate"`. -/
def readRemoteCandidate (obj : Text) : Except ParseError RemoteCandidateStats := do
  return {
    address := extractString obj "address".toList
    port := ← extractInt obj "port".toList
    candidateType := extractString obj "candidate_type".toList }

/-- A piece with the braces the splitting took off. -/
def withBraces (piece : Text) : Text :=
  let obj := strip piece
  let obj := if obj.head? = some '\x7b' then obj else '\x7b' :: obj
  if obj.getLast? = some '\x7d' then obj else obj ++ ['\x7d']

/-- An object by its type; a type that is missing or unknown adds nothing. -/
def readObject (obj : Text) : Except ParseError (Option StatsObject) :=
  match extractString obj "type".toList with
  | none => .ok none
  | some type =>
    if type = "inbound-rtp".toList then
      (readInboundRtp obj).map fun s => some (.inboundRtp s)
    else if type = "peer-connection".toList then
      (readPeerConnection obj).map fun s => some (.peerConnection s)
    else if type = "remote-candidate".toList then
      (readRemoteCandidate obj).map fun s => some (.remoteCandidate s)
    else .ok none

/-- The three lists, in the order of the objects. -/
def collect (objects : List (Option StatsObject)) : StatsReport where
  inboundRtpStreams := objects.filterMap fun | some (.inboundRtp s) => some s | _ => none
  peerConnections := objects.filterMap fun | some (.peerConnection s) => some s | _ => none
  remoteCandidates := objects.filterMap fun | some (.remoteCandidate s) => some s | _ => none

/-- The text without the outer brackets. -/
def trimBrackets (json : Text) : Text :=
  let trimmed := strip json
  let trimmed := if trimmed.head? = some '[' then trimmed.tail else trimmed
  if trimmed.getLast? = some ']' then trimmed.dropLast else trimmed

/-- The pieces of a text, read one after another; an exception ends it. -/
def readPieces : List Text → Except ParseError (List (Option StatsObject))
  | [] => .ok []
  | piece :: pieces => do
    let object ← readObject (withBraces piece)
    let objects ← readPieces pieces
    return object :: objects

/-- `StatsReport.parse`. -/
def parse (json : Text) : Except ParseError StatsReport :=
  if json.isEmpty then .ok (collect [])
  else
    let trimmed := trimBrackets json
    if trimmed.isEmpty then .ok (collect [])
    else (readPieces (splitObjects trimmed)).map collect

end WebrtcBridge.Stats
