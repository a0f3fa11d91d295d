import Chariox.Lib.Text

/-!
# Shell marks

The scanner that finds the OSC 133 marks of a shell in the raw output of its terminal.  The marks it reports do not
depend on how the output is cut into chunks, and a well-formed mark is reported exactly when the output before it left
no OSC sequence open (`marks_not_missed`): the escape byte of a mark behind an open sequence is taken for the end of
that sequence.
-/

namespace Chariox.ShellMarks

open List

abbrev Bytes := List UInt8

def utf8 (text : String) : Bytes := text.toUTF8.data.toList

/-- `str::from_utf8`. -/
def fromUtf8 (bytes : Bytes) : Option String := String.fromUTF8? ⟨bytes.toArray⟩

theorem fromUtf8_utf8 (text : String) : fromUtf8 (utf8 text) = some text :=
  dif_pos text.isValidUTF8

/-- What a shell reports about the command line it runs. -/
inductive ShellMark where
  | commandStarted
  | commandFinished (exitCode : Option Nat) (jobs : List Nat)
  deriving DecidableEq

/-- `str::parse::<u32>`. -/
def parseU32 (text : List Char) : Option Nat :=
  let digits := if text.head? = some '+' then text.tail else text
  let value := Nat.ofDigitChars 10 digits 0
  if digits ≠ [] ∧ digits.all Char.isDigit ∧ value < 2 ^ 32 then some value else none

def jobsOf (text : List Char) : List Nat := (splitChar ',' text).filterMap parseU32

def parse (body : Bytes) : Option ShellMark := do
  let rest ← body.dropPrefix? (utf8 "133;")
  if rest = utf8 "C" then
    some .commandStarted
  else if rest = utf8 "D" then
    some (.commandFinished none [])
  else
    let fields ← fromUtf8 (← rest.dropPrefix? (utf8 "D;"))
    let (status, jobs) := (splitOnce ';' fields.toList).getD (fields.toList, [])
    some (.commandFinished (parseU32 status) (jobsOf jobs))

/-- Longer bodies are not marks. -/
def maxBody : Nat := 4096

inductive Scan where
  | idle
  | escape
  | body (body : Bytes)
  | bodyEscape (body : Bytes)
  deriving DecidableEq

/-- The scanner reads one byte. -/
def Scan.next : Scan → UInt8 → Scan × Option ShellMark
  | .idle, byte => (if byte = 0x1b then .escape else .idle, none)
  | .escape, byte => (if byte = 0x1b then .escape else if byte = 0x5d then .body [] else .idle, none)
  | .body read, byte =>
    if byte = 0x07 then (.idle, parse read)
    else if byte = 0x1b then (.bodyEscape read, none)
    else (if (read ++ [byte]).length > maxBody then .idle else .body (read ++ [byte]), none)
  | .bodyEscape read, byte => (.idle, if byte = 0x5c then parse read else none)

/-- The marks found in a chunk of the output. -/
def feed (scan : Scan) : Bytes → Scan × List ShellMark
  | [] => (scan, [])
  | byte :: bytes =>
    let (after, mark) := scan.next byte
    let (final, marks) := feed after bytes
    (final, mark.toList ++ marks)

/-- The marks of the calls of `feed` on one chunk after the other. -/
def feedAll (scan : Scan) : List Bytes → Scan × List ShellMark
  | [] => (scan, [])
  | chunk :: chunks =>
    let (after, marks) := feed scan chunk
    let (final, more) := feedAll after chunks
    (final, marks ++ more)

/-! ### Chunks -/

theorem feed_append (scan : Scan) (a b : Bytes) :
    feed scan (a ++ b) = ((feed (feed scan a).1 b).1, (feed scan a).2 ++ (feed (feed scan a).1 b).2) := by
  induction a generalizing scan with
  | nil => simp [feed]
  | cons byte a ih => simp [feed, ih]

theorem feedAll_eq (scan : Scan) (cks : List Bytes) : feedAll scan cks = feed scan cks.flatten := by
  induction cks generalizing scan with
  | nil => rfl
  | cons ck cks ih => simp [feedAll, feed_append, ih]

/-! ### Marks -/

/-- The body of a mark and what it says. -/
inductive Denotes : Bytes → ShellMark → Prop where
  | started : Denotes (utf8 "133;C") .commandStarted
  | finished : Denotes (utf8 "133;D") (.commandFinished none [])
  | status (status : String) : ';' ∉ status.toList →
    Denotes (utf8 ("133;D;" ++ status)) (.commandFinished (parseU32 status.toList) [])
  | jobs (status jobs : String) : ';' ∉ status.toList →
    Denotes (utf8 ("133;D;" ++ status ++ ";" ++ jobs))
      (.commandFinished (parseU32 status.toList) (jobsOf jobs.toList))

/-- A well-formed mark: the escape sequence with a body that fits and one of the two ends. -/
def IsMark (m : Bytes) (mark : ShellMark) : Prop :=
  ∃ body ending, Denotes body mark ∧ (∀ byte ∈ body, byte ≠ 0x07 ∧ byte ≠ 0x1b) ∧ body.length ≤ maxBody ∧
    (ending = [0x07] ∨ ending = [0x1b, 0x5c]) ∧ m = [0x1b, 0x5d] ++ (body ++ ending)

theorem parse_fields (fields : String) : parse (utf8 ("133;D;" ++ fields)) =
    let (status, jobs) := (splitOnce ';' fields.toList).getD (fields.toList, [])
    some (.commandFinished (parseU32 status) (jobsOf jobs)) := by
  have hbody : utf8 ("133;D;" ++ fields) = utf8 "133;" ++ utf8 "D;" ++ utf8 fields := by
    rfl
  have hstd : utf8 "D;" ++ utf8 fields ≠ utf8 "C" := fun h => by cases h
  have hfin : utf8 "D;" ++ utf8 fields ≠ utf8 "D" := fun h => by cases h
  rw [hbody, parse]
  simp [hstd, hfin, dropPrefix?_append_of_beq _ BEq.rfl, fromUtf8_utf8]

variable {mark : ShellMark}

theorem parse_of_denotes {body : Bytes} (h : Denotes body mark) : parse body = some mark := by
  cases h with
  | started => decide
  | finished => decide
  | status sts hs =>
    rw [parse_fields, splitOnce_of_notMem hs]
    simp [jobsOf]
    decide
  | jobs sts jobs hs =>
    rw [String.append_assoc, String.append_assoc, parse_fields, String.toList_append, String.toList_append]
    simp [splitOnce_append hs]

theorem feed_body {body : Bytes} (hpl : ∀ byte ∈ body, byte ≠ 0x07 ∧ byte ≠ 0x1b) (read : Bytes)
    (hs : (read ++ body).length ≤ maxBody) : feed (.body read) body = (.body (read ++ body), []) := by
  induction body generalizing read with
  | nil => simp [feed]
  | cons byte body ih =>
    obtain ⟨⟨hb, he⟩, hpl⟩ := forall_mem_cons.1 hpl
    rw [append_cons] at hs ⊢
    have hroom : ¬ (read ++ [byte]).length > maxBody := by
      rw [length_append] at hs
      omega
    simp only [feed, Scan.next, if_neg hb, if_neg he, if_neg hroom, ih hpl _ hs]
    rfl

/-- No OSC sequence is open. -/
def Scan.closed : Scan → Bool
  | .idle | .escape => true
  | .body _ | .bodyEscape _ => false

theorem feed_mark {m : Bytes} (h : IsMark m mark) {scan : Scan} (hc : scan.closed) : feed scan m = (.idle, [mark]) := by
  obtain ⟨body, en, hb, hpl, hs, he, rfl⟩ := h
  have hopen : feed scan [0x1b, 0x5d] = (.body [], []) := by
    cases scan with
    | idle => rfl
    | escape => rfl
    | body => cases hc
    | bodyEscape => cases hc
  rw [feed_append, hopen, feed_append, feed_body hpl [] hs]
  rcases he with rfl | rfl <;> simp [feed, Scan.next, parse_of_denotes hb]

theorem feed_idle {bytes : Bytes} (h : ∀ byte ∈ bytes, byte ≠ 0x1b) : feed .idle bytes = (.idle, []) := by
  induction bytes with
  | nil => rfl
  | cons byte bytes ih =>
    obtain ⟨hb, h⟩ := forall_mem_cons.1 h
    simp [feed, Scan.next, hb, ih h]

/-- The escape byte of a mark ends an open sequence, and its body is plain output. -/
theorem feed_mark_of_open {m : Bytes} (h : IsMark m mark) {scan : Scan} (hc : ¬ scan.closed) :
    (feed scan m).2 = [] := by
  obtain ⟨body, en, -, hpl, -, he, rfl⟩ := h
  have hopen : feed scan [0x1b, 0x5d] = (.idle, []) := by
    cases scan with
    | idle => exact absurd rfl hc
    | escape => exact absurd rfl hc
    | body => rfl
    | bodyEscape => rfl
  rw [feed_append, hopen, feed_append, feed_idle fun byte hb => (hpl byte hb).2]
  rcases he with rfl | rfl <;> rfl

/-- The marks reported for some output do not depend on its chunks.  A well-formed mark is reported behind the marks of
the output before it exactly when that output leaves no OSC sequence open; otherwise it is the last mark reported only
if the same mark was reported last before. -/
theorem marks_not_missed (chunks : List Bytes) : (∀ chunks' : List Bytes, chunks.flatten = chunks'.flatten →
      (feedAll .idle chunks).2 = (feedAll .idle chunks').2) ∧
    ∀ (p m : Bytes) (mark : ShellMark), IsMark m mark → chunks.flatten = p ++ m →
      ((feedAll .idle chunks).2 = (feed .idle p).2 ++ [mark] ↔ (feed .idle p).1.closed) ∧
      ((feedAll .idle chunks).2.getLast? = some mark ↔
        (feed .idle p).1.closed ∨ (feed .idle p).2.getLast? = some mark) := by
  constructor
  · intro chunks' h
    rw [feedAll_eq, feedAll_eq, h]
  · intro p m mark hm hc
    rw [feedAll_eq, hc, feed_append]
    by_cases hcl : (feed .idle p).1.closed
    · simp [feed_mark hm hcl, hcl]
    · simp [feed_mark_of_open hm hcl, hcl]

/-- A title, some output and a mark, in three chunks. -/
theorem marks_not_missed_started :
    (feedAll .idle [[0x1b, 0x5d, 0x30], [0x07, 0x61, 0x1b], [0x5d] ++ utf8 "133;C" ++ [0x07]]).2.getLast? =
      some .commandStarted :=
  ((marks_not_missed _).2 [0x1b, 0x5d, 0x30, 0x07, 0x61] _ _
    ⟨_, _, .started, by decide +kernel, by decide +kernel, .inl rfl, rfl⟩ rfl).2.2 (.inl (by decide +kernel))

/-- A program that was killed within an OSC sequence hides the next mark of the shell. -/
theorem mark_behind_open_sequence_missed : ∃ p m mark, IsMark m mark ∧ (feedAll .idle [p, m]).2.getLast? ≠ some mark := by
  exact ⟨[0x1b, 0x5d, 0x30], [0x1b, 0x5d] ++ utf8 "133;C" ++ [0x07], .commandStarted,
    ⟨_, _, .started, by decide +kernel, by decide +kernel, .inl rfl, rfl⟩, by decide +kernel⟩

end Chariox.ShellMarks
