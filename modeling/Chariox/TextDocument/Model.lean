import Chariox.Lib.Alignment

/-!
# Edits of a text document

An edit is planned on the snapshot that its author read, rebased over the line changes made since, and applied to the
current text.  A text is a list of characters; offsets count the bytes of their UTF-8 encoding.
-/

namespace Chariox.TextDocument

open Chariox.Alignment

abbrev Text := List Char

variable (text : Text)

abbrev byteLen : Nat := size Char.utf8Size text

structure TextRange where
  start : Nat
  stop : Nat
  deriving DecidableEq, Repr

def TextRange.isEmpty (range : TextRange) : Bool := range.start = range.stop

def TextRange.overlaps (range other : TextRange) : Bool := range.start < other.stop && other.start < range.stop

structure TextEditPlan where
  range : TextRange
  oldText : Text
  newText : Text
  deriving DecidableEq, Repr

structure ChangeDelta where
  range : TextRange
  removedLen : Nat
  insertedLen : Nat
  deriving DecidableEq, Repr

structure LineSpan where
  text : Text
  range : TextRange
  deriving DecidableEq, Repr

inductive ArtifactContent
  | text (text : Text)
  | bytes (bytes : List UInt8)
  deriving DecidableEq, Repr

def ArtifactContent.asText : ArtifactContent → Option Text
  | .text content => some content
  | .bytes _ => none

inductive ArtifactDomainKind
  | textDocument | structuredDocument | opaqueBlob
  deriving DecidableEq, Repr

inductive AgentEditOperation
  | replaceText (oldText newText : Text)
  | replaceRange (range : TextRange) (oldText newText : Text)
  | writeArtifact (content : ArtifactContent)
  deriving DecidableEq, Repr

abbrev ArtifactVersion := Nat

def ArtifactVersion.initial : ArtifactVersion := 1

structure ArtifactReservationOwner where
  providerRunId : String
  agentInstanceId : Option String
  toolName : String
  deriving DecidableEq, Repr

inductive ArtifactEditError
  | artifactNotTracked (path : String)
  | snapshotNotFound (snapshotId : String)
  | unsupportedDomain (domain : ArtifactDomainKind)
  | invalidOperation (message : String)
  | activeReservationConflict (path : String) (activeOwner : ArtifactReservationOwner)
      (requestedRanges reservedRanges : List TextRange) (message : String)
  | conflict (path : String) (baseVersion currentVersion : ArtifactVersion)
      (requestedRanges changedRanges : List TextRange) (message : String)
  deriving DecidableEq, Repr

/-! ### Offsets -/

def isCharBoundary (offset : Nat) : Bool := (splitAtSize Char.utf8Size text offset).isSome

/-- `text[..offset]`, at a character boundary. -/
def textTo (offset : Nat) : Text := ((splitAtSize Char.utf8Size text offset).getD (text, [])).1

/-- `text[offset..]`, at a character boundary. -/
def textFrom (offset : Nat) : Text := ((splitAtSize Char.utf8Size text offset).getD (text, [])).2

/-- `text[range.start..range.end]`. -/
def slice (range : TextRange) : Text := textFrom (textTo text range.stop) range.start

def validateBoundary (offset : Nat) : Except ArtifactEditError Unit :=
  if offset ≤ byteLen text && isCharBoundary text offset then .ok ()
  else .error (.invalidOperation "range does not fall on UTF-8 character boundaries")

/-- `str::find`: the offset of the first occurrence. -/
def findText (pattern : Text) : Text → Option Nat
  | [] => if pattern = [] then some 0 else none
  | c :: text =>
    if pattern.isPrefixOf (c :: text) then some 0 else (findText pattern text).map (fun offset => offset + c.utf8Size)

/-! ### Planning -/

def planReplaceText (base oldText newText : Text) : Except ArtifactEditError TextEditPlan :=
  match findText oldText base with
  | none => .error (.invalidOperation "old_text was not found in the base snapshot")
  | some start =>
    let stop := start + byteLen oldText
    if (findText oldText (textFrom base stop)).isSome then
      .error (.invalidOperation "old_text matched more than once; use a range-based edit")
    else .ok { range := ⟨start, stop⟩, oldText, newText }

def planReplaceRange (base : Text) (range : TextRange) (oldText newText : Text) :
    Except ArtifactEditError TextEditPlan := do
  validateBoundary base range.start
  validateBoundary base range.stop
  if range.start > range.stop || range.stop > byteLen base then
    throw (.invalidOperation "range is outside the base snapshot")
  else if slice base range ≠ oldText then
    if oldText ≠ [] then planReplaceText base oldText newText
    else throw (.invalidOperation "range content does not match old_text in the base snapshot")
  else pure { range, oldText, newText }

def planOperation (base : Text) : AgentEditOperation → Except ArtifactEditError TextEditPlan
  | .replaceText oldText newText => planReplaceText base oldText newText
  | .replaceRange range oldText newText => planReplaceRange base range oldText newText
  | .writeArtifact content =>
    match content.asText with
    | none => .error (.unsupportedDomain .textDocument)
    | some newText => .ok { range := ⟨0, byteLen base⟩, oldText := base, newText }

/-! ### The line diff -/

/-- `str::split_inclusive` at line ends. -/
def splitInclusive : Text → List Text
  | [] => []
  | c :: text =>
    if c = '\n' then [c] :: splitInclusive text
    else
      match splitInclusive text with
      | [] => [[c]]
      | line :: lines => (c :: line) :: lines

/-- The spans of consecutive segments. -/
def lineSpansFrom (start : Nat) : List Text → List LineSpan
  | [] => []
  | segment :: segments =>
    { text := segment, range := ⟨start, start + byteLen segment⟩ } :: lineSpansFrom (start + byteLen segment) segments

def lineSpans : List LineSpan := lineSpansFrom 0 (splitInclusive text)

/-- A row of the table: for each rest of the current lines, the length for `line` and the lines below it.  `below` is
the next row. -/
def lcsRow (line : Text) : List LineSpan → List Nat → List Nat
  | [], _ => [0]
  | other :: current, below =>
    let row := lcsRow line current below.tail
    (if line = other.text then below.tail.headD 0 + 1 else max (below.headD 0) (row.headD 0)) :: row

/-- The table of lengths, filled from the last line up. -/
def lcsLengths : List LineSpan → List LineSpan → List (List Nat)
  | [], current => [List.replicate (current.length + 1) 0]
  | line :: base, current =>
    let rows := lcsLengths base current
    lcsRow line.text current (rows.headD []) :: rows

/-- The walk through the table.  Each round advances one of the indices, so the number of lines is enough fuel. -/
def lcsWalk (base current : List LineSpan) (lengths : List (List Nat)) : Nat → Nat → Nat → List (Nat × Nat)
  | 0, _, _ => []
  | fuel + 1, i, j =>
    match base[i]?, current[j]? with
    | some line, some other =>
      if line.text = other.text then (i, j) :: lcsWalk base current lengths fuel (i + 1) (j + 1)
      else if ((lengths.getD (i + 1) []).getD j 0) > ((lengths.getD i []).getD (j + 1) 0) then
        lcsWalk base current lengths fuel (i + 1) j
      else lcsWalk base current lengths fuel i (j + 1)
    | _, _ => []

def lineLcsMatches (base current : List LineSpan) : List (Nat × Nat) :=
  lcsWalk base current (lcsLengths base current) (base.length + current.length) 0 0

/-- The offset where line `index` starts, or where the last line before it ends. -/
def startOffset (lines : List LineSpan) (index : Nat) : Nat :=
  match lines[index]? with
  | some line => line.range.start
  | none =>
    match lines[index - 1]? with
    | some line => line.range.stop
    | none => 0

/-- The offset where the lines from `first` up to `last` end. -/
def endOffset (lines : List LineSpan) (first last : Nat) : Nat :=
  if first = last then startOffset lines first
  else
    match lines[last - 1]? with
    | some line => line.range.stop
    | none => startOffset lines first

def pushDelta (deltas : List ChangeDelta) (baseLines currentLines : List LineSpan)
    (baseStart baseEnd currentStart currentEnd : Nat) : List ChangeDelta :=
  if baseStart = baseEnd && currentStart = currentEnd then deltas
  else
    let start := startOffset baseLines baseStart
    let stop := endOffset baseLines baseStart baseEnd
    let currentStartOffset := startOffset currentLines currentStart
    let currentEndOffset := endOffset currentLines currentStart currentEnd
    deltas ++ [{
      range := ⟨start, stop⟩
      removedLen := stop - start
      insertedLen := currentEndOffset - currentStartOffset }]

/-- The loop over the matches: the deltas so far and the lines after the last match. -/
def changeDeltasLoop (baseLines currentLines : List LineSpan) :
    List (Nat × Nat) → List ChangeDelta → Nat → Nat → List ChangeDelta
  | [], deltas, baseIndex, currentIndex =>
    pushDelta deltas baseLines currentLines baseIndex baseLines.length currentIndex currentLines.length
  | (matchedBase, matchedCurrent) :: rest, deltas, baseIndex, currentIndex =>
    changeDeltasLoop baseLines currentLines rest
      (pushDelta deltas baseLines currentLines baseIndex matchedBase currentIndex matchedCurrent)
      (matchedBase + 1) (matchedCurrent + 1)

def changeDeltas (base current : Text) : List ChangeDelta :=
  if base = current then []
  else
    let baseLines := lineSpans base
    let currentLines := lineSpans current
    changeDeltasLoop baseLines currentLines (lineLcsMatches baseLines currentLines) [] 0 0

def changedRanges (base current : Text) : List TextRange := (changeDeltas base current).map ChangeDelta.range

/-! ### Rebasing and applying -/

def deltaConflictsWithRange (delta : ChangeDelta) (range : TextRange) : Bool :=
  if delta.range.isEmpty then range.start < delta.range.start && delta.range.start < range.stop
  else range.overlaps delta.range

def usizeMax : Nat := 2 ^ 64 - 1

def shiftOffset (offset : Nat) (shift : Int) : Except ArtifactEditError Nat :=
  if shift < 0 then
    if shift.natAbs ≤ offset then .ok (offset - shift.natAbs)
    else .error (.invalidOperation "rebased range moved before start of artifact")
  else if offset + shift.toNat ≤ usizeMax then .ok (offset + shift.toNat)
  else .error (.invalidOperation "rebased range overflowed artifact bounds")

/-- The loop over the deltas that end before the range. -/
def shiftRange (planStart : Nat) : List ChangeDelta → Nat → Nat → Except ArtifactEditError TextRange
  | [], start, stop => .ok ⟨start, stop⟩
  | delta :: deltas, start, stop =>
    if delta.range.stop ≤ planStart then do
      let shift : Int := (delta.insertedLen : Int) - delta.removedLen
      let start ← shiftOffset start shift
      let stop ← shiftOffset stop shift
      shiftRange planStart deltas start stop
    else shiftRange planStart deltas start stop

def rebasePlan (base current : Text) (plan : TextEditPlan) : Except ArtifactEditError TextEditPlan :=
  if base = current then .ok plan
  else
    let deltas := changeDeltas base current
    if deltas.any (fun delta => deltaConflictsWithRange delta plan.range) then
      .error (.conflict "" .initial .initial [plan.range] (deltas.map ChangeDelta.range)
        "edit overlaps changes made since the base snapshot")
    else do
      let range ← shiftRange plan.range.start deltas plan.range.start plan.range.stop
      pure { range, oldText := plan.oldText, newText := plan.newText }

def applyPlan (current : Text) (plan : TextEditPlan) : Except ArtifactEditError Text := do
  validateBoundary current plan.range.start
  validateBoundary current plan.range.stop
  if plan.range.start > plan.range.stop || plan.range.stop > byteLen current then
    throw (.invalidOperation "rebased range is outside the current artifact")
  else if slice current plan.range ≠ plan.oldText then
    throw (.invalidOperation "rebased range content does not match old_text")
  else pure (textTo current plan.range.start ++ plan.newText ++ textFrom current plan.range.stop)

end Chariox.TextDocument
