import Bulletin.Number.Digits
import Bulletin.Yaml.Cursor

/-! Tokens of a YAML text, and how anchors, aliases, tags and directives are read. Blocks are marked
by tokens of their own where the indentation starts or ends them, and a key is marked before the
node that turned out to be one. -/

namespace Bulletin.Yaml

/-- The text of a scalar. Where an escape wrote a surrogate there is no text, only code points. -/
inductive RawText where
  | text (t : Text)
  | unpaired (points : List Nat)
deriving DecidableEq, Repr

namespace RawText

def ofPoints (points : List Nat) : RawText :=
  if points.any Text.isSurrogate then .unpaired points else .text (points.map Char.ofNat)

/-- The text that decides what kind of value a scalar is. No form of a number, a date or a word
allows a surrogate, nor the character that stands here for it. -/
def form : RawText → Text
  | .text t => t
  | .unpaired points => Text.ofPoints (fun _ => '\ufffd') points

end RawText

/-- A directive before a document. Others than these two have no effect. -/
inductive Directive where
  | version (major minor : Nat)
  | tag (handle start : Text)
  | other
deriving DecidableEq, Repr

/-- A token. The list of tokens of a text ends with the end of the text or with a fault. -/
inductive Token where
  | directive (d : Directive)
  | documentStart
  | documentEnd
  | sequenceStart
  | mappingStart
  | blockEnd
  | flowSequenceStart
  | flowSequenceEnd
  | flowMappingStart
  | flowMappingEnd
  | entry
  | flowEntry
  | key
  | value
  | alias (name : Text)
  | anchor (name : Text)
  | tag (handle : Option Text) (suffix : Text)
  | scalar (text : RawText) (plain : Bool)
  | finish
  | fault (f : Fault)
deriving DecidableEq, Repr

namespace Property

def name : Reading Text := do
  Reading.skip
  let t ← Reading.takeWhile isAnchorChar
  if t = [] then throw .malformed
  Reading.require endsAnchor
  return t

def escapedBytes? : Text → Option (List UInt8)
  | [] => some []
  | '%' :: a :: b :: r =>
    if Number.isDigit 16 a && Number.isDigit 16 b then
      (escapedBytes? r).map (UInt8.ofNat (Number.ofDigits 16 [a, b]) :: ·)
    else none
  | _ => none

def isUtf8 (bytes : List UInt8) : Bool := (ByteArray.mk bytes.toArray).utf8Decode?.isSome

def escapeRun : Text → Nat
  | '%' :: _ :: _ :: r => 3 + escapeRun r
  | '%' :: r => 1 + r.length
  | _ => 0

def escapesValid : Nat → Text → Bool
  | 0, _ => true
  | _, [] => true
  | fuel + 1, c :: r =>
    if c = '%' then
      let n := escapeRun (c :: r)
      ((escapedBytes? ((c :: r).take n)).any isUtf8) && escapesValid fuel ((c :: r).drop n)
    else escapesValid fuel r

/-- Reads the characters of a tag or a tag prefix. Its escapes must be valid, but they stay as they
are written. -/
def uri (legacy : Bool) : Reading Text := do
  let t ← Reading.takeWhile (isUriChar legacy)
  if t = [] || !escapesValid t.length t then throw .malformed
  return t

/-- Reads a handle: an exclamation mark, and a word with another one after it if there is one. -/
def handle : Reading Text := do
  if (← Reading.peek) ≠ some '!' then throw .malformed
  if (← Reading.peek 1) = some ' ' then Reading.take 1
  else
    let word := ((← get).rest.drop 1).takeWhile isHandleChar
    if (← Reading.peek (word.length + 1)) ≠ some '!' then throw .malformed
    Reading.take (word.length + 2)

def tag (legacy : Bool) : Reading Token := do
  let double := (← Reading.peek 1) = some '!'
  let short : Text := if double then ['!', '!'] else ['!']
  if double then Reading.skip
  let result ←
    if (← Reading.peek 1) = some '<' then do
      Reading.skip 2
      let suffix ← uri legacy
      if (← Reading.peek) ≠ some '>' then throw .malformed
      Reading.skip
      pure (.tag none suffix)
    else if endsWord (← Reading.peek 1) then do
      Reading.skip
      pure (.tag none short)
    else do
      let word := ((← get).rest.drop 1).takeWhile fun c => !endsItem (some c)
      let handle ← if '!' ∈ word then handle else do Reading.skip; pure short
      pure (.tag (some handle) (← uri legacy))
  Reading.require endsItem
  return result

def versionNumber : Reading Nat := do
  let digits ← Reading.takeWhile (Number.isDigit 10)
  if digits = [] then throw .malformed
  return Number.ofDigits 10 digits

def directive (legacy : Bool) : Reading Directive := do
  Reading.skip
  let kind ← Reading.takeWhile isDirectiveChar
  if kind = [] then throw .malformed
  Reading.require endsItem
  let result ←
    if kind = "YAML".toList then do
      let _ ← Reading.spaces
      let major ← versionNumber
      if (← Reading.peek) ≠ some '.' then throw .malformed
      Reading.skip
      let minor ← versionNumber
      Reading.require endsItem
      pure (.version major minor)
    else if kind = "TAG".toList then do
      let _ ← Reading.spaces
      let handle ← handle
      if (← Reading.peek) ≠ some ' ' then throw .malformed
      let _ ← Reading.spaces
      let start ← uri legacy
      Reading.require endsItem
      pure (.tag handle start)
    else do
      let _ ← Reading.takeWhile fun c => !isNewline c
      pure .other
  Reading.finishLine
  return result

end Property
end Bulletin.Yaml
