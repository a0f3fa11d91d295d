import Chariox.Lib.Except
import Chariox.Lib.OrdMap
import Chariox.Lib.Runs

/-!
# The scopes of the usage meter

The relay counts bytes by realm and by the scope that a client chose as a label.  A new label is counted under its own
name while its realm has room for it, and everything else under `other`.  A report takes all counters out of the meter;
what it cannot spool goes back key by key, without that check.

So a realm keeps to its bound as long as every label that was counted while the report was running is one of those that
go back.  Other labels find the meter empty, and stand beside the old ones after the failure.
-/

namespace Chariox.UsageMeter

open List

def controlScope : String := "control"

def otherScope : String := "other"

def maxScopeLen : Nat := 48

def maxScopesPerRealm : Nat := 16

def maxKeys : Nat := 8192

def maxBatchEntries : Nat := 10000

/-! ### Counters -/

structure UsageCounters where
  bytesIn : Nat
  bytesOut : Nat
  framesIn : Nat
  framesOut : Nat
  deriving DecidableEq, Repr

inductive Direction
  | incoming
  | outgoing
  deriving DecidableEq, Repr

namespace UsageCounters

def default : UsageCounters := ⟨0, 0, 0, 0⟩

def add (self : UsageCounters) (direction : Direction) (bytes : Nat) : UsageCounters :=
  match direction with
  | .incoming =>
    { self with bytesIn := saturatingAdd self.bytesIn bytes, framesIn := saturatingAdd self.framesIn 1 }
  | .outgoing =>
    { self with bytesOut := saturatingAdd self.bytesOut bytes, framesOut := saturatingAdd self.framesOut 1 }

def merge (self other : UsageCounters) : UsageCounters where
  bytesIn := saturatingAdd self.bytesIn other.bytesIn
  bytesOut := saturatingAdd self.bytesOut other.bytesOut
  framesIn := saturatingAdd self.framesIn other.framesIn
  framesOut := saturatingAdd self.framesOut other.framesOut

end UsageCounters

/-! ### The meter -/

/-- A realm and a scope. -/
abbrev Key := String ×ₗ String

abbrev UsageSnapshot := OrdMap Key UsageCounters

/-- The keys of a realm.  They are next to each other in the map, where the code counts them as a range. -/
def keysOf (keys : List Key) (realm : String) : List Key := keys.filter (fun key => (ofLex key).1 = realm)

/-- The characters are those whose bytes the code allows. -/
def isLabel (scope : String) : Bool :=
  !scope.isEmpty && decide (scope.utf8ByteSize ≤ maxScopeLen) &&
    scope.toList.all (fun c => c.isLower || c.isDigit || c == '_' || c == '.' || c == '-')

def boundedScope (counters : UsageSnapshot) (realm scope : String) : String :=
  if isLabel scope = false then otherScope
  else if scope = controlScope ∨ scope = otherScope ∨ counters.contains (toLex (realm, scope)) = true then scope
  else if (keysOf counters.keys realm).length < maxScopesPerRealm - 2 then scope
  else otherScope

namespace UsageSnapshot

/-- `entry(key).or_default().merge(counters)`. -/
def mergeAt (all : UsageSnapshot) (key : Key) (counters : UsageCounters) : UsageSnapshot :=
  all.insert key (((all.get key).getD .default).merge counters)

def add (all : UsageSnapshot) (realm scope : String) (counters : UsageCounters) : UsageSnapshot :=
  let key := toLex (realm, boundedScope all realm scope)
  all.mergeAt (if all.contains key = true ∨ all.len < maxKeys then key else toLex (realm, otherScope)) counters

def record (all : UsageSnapshot) (realm scope : String) (direction : Direction) (bytes : Nat) : UsageSnapshot :=
  all.add realm scope (UsageCounters.default.add direction bytes)

def restore (all : UsageSnapshot) (drained : List (Key × UsageCounters)) : UsageSnapshot :=
  drained.foldl (fun all entry => all.mergeAt entry.1 entry.2) all

end UsageSnapshot

/-- The meter and the report that is running: `drained` is what it took and has not yet spooled. -/
structure UsageReporter where
  meter : UsageSnapshot
  drained : List (Key × UsageCounters)

inductive Action
  | record (realm scope : String) (direction : Direction) (bytes : Nat)
  /-- A connection authenticates; what it exchanged before is control traffic of the realm. -/
  | bindRealm (realm : String) (beforeAuth : UsageCounters)
  /-- A report begins; there is one at a time. -/
  | drain
  /-- The report has written its next batch. -/
  | writeSpool
  /-- The report gets no batch id, or cannot write the batch. -/
  | restore
  deriving DecidableEq, Repr

namespace UsageReporter

def new : UsageReporter := ⟨.empty, []⟩

def step (self : UsageReporter) : Action → UsageReporter
  | .record realm scope direction bytes => { self with meter := self.meter.record realm scope direction bytes }
  | .bindRealm realm beforeAuth =>
    if beforeAuth = .default then self else { self with meter := self.meter.add realm controlScope beforeAuth }
  | .drain => if self.drained.isEmpty then ⟨.empty, self.meter.entries⟩ else self
  | .writeSpool => { self with drained := self.drained.drop maxBatchEntries }
  | .restore => ⟨self.meter.restore self.drained, []⟩

def run (actions : List Action) : UsageReporter := actions.foldl step new

/-- A label in the meter whose realm has counters that go back is one of those labels. -/
def restoresKnown (self : UsageReporter) : Action → Bool
  | .restore => self.meter.keys.all (fun key =>
      (ofLex key).2 = controlScope || (ofLex key).2 = otherScope || (self.drained.map Prod.fst).contains key ||
        (keysOf (self.drained.map Prod.fst) (ofLex key).1).isEmpty)
  | _ => true

end UsageReporter

/-! ### Labels -/

/-- The keys of a realm that had to be admitted. -/
def labelsOf (keys : List Key) (realm : String) : List Key :=
  (keysOf keys realm).filter (fun key => (ofLex key).2 ≠ controlScope ∧ (ofLex key).2 ≠ otherScope)

/-- No realm has more labels than there is room for beside `control` and `other`. -/
def Bounded (keys : List Key) : Prop := ∀ realm, (labelsOf keys realm).length ≤ maxScopesPerRealm - 2

variable {keys : List Key} {realm scope : String} {all : UsageSnapshot} {key other : Key}

theorem mem_labelsOf : key ∈ labelsOf keys realm ↔
      key ∈ keys ∧ (ofLex key).1 = realm ∧ (ofLex key).2 ≠ controlScope ∧ (ofLex key).2 ≠ otherScope := by
  simp only [labelsOf, keysOf, mem_filter, decide_eq_true_eq, and_assoc]

theorem length_le_of_subset {l l' : List Key} (hl : l.Nodup) (h : l ⊆ l') : l.length ≤ l'.length :=
  (hl.subperm h).length_le

/-- The labels of each realm are among sufficiently few. -/
theorem bounded_of_subset (h : ∀ rl, ∃ l : List Key, l.length ≤ maxScopesPerRealm - 2 ∧ labelsOf all.keys rl ⊆ l) :
    Bounded all.keys := by
  intro rl
  obtain ⟨l, hl, hs⟩ := h rl
  exact (length_le_of_subset ((all.keys_nodup.filter _).filter _) hs).trans hl

theorem length_keysOf_le (all : UsageSnapshot) (realm : String) :
    (keysOf all.keys realm).length ≤ (labelsOf all.keys realm).length + 2 := by
  have hsub : keysOf all.keys realm ⊆
      toLex (realm, controlScope) :: toLex (realm, otherScope) :: labelsOf all.keys realm := by
    intro key hk
    obtain ⟨hm, hr⟩ := mem_filter.1 hk
    obtain rfl := of_decide_eq_true hr
    by_cases hctl : ofLex key.2 = controlScope
    · rw [← hctl]
      exact mem_cons_self
    by_cases hoth : ofLex key.2 = otherScope
    · rw [← hoth]
      exact mem_cons_of_mem _ mem_cons_self
    · exact mem_cons_of_mem _ (mem_cons_of_mem _ (mem_labelsOf.2 ⟨hm, rfl, hctl, hoth⟩))
  exact length_le_of_subset (all.keys_nodup.filter _) hsub

theorem of_mem_mergeAt {cns : UsageCounters} (h : other ∈ (all.mergeAt key cns).keys) :
    other = key ∨ other ∈ all.keys := by
  obtain ⟨v, hg⟩ := OrdMap.mem_keys.1 h
  rcases OrdMap.of_get_insert hg with ⟨heq, -⟩ | ⟨-, hg⟩
  · exact .inl heq
  · exact .inr (OrdMap.mem_keys.2 ⟨v, hg⟩)

/-- A key may be counted if its scope needs no room, if it is there, or if its realm has room for it. -/
theorem Bounded.mergeAt (h : Bounded all.keys)
    (hs : scope = controlScope ∨ scope = otherScope ∨ all.contains (toLex (realm, scope)) = true ∨
      (keysOf all.keys realm).length < maxScopesPerRealm - 2) (cns : UsageCounters) :
    Bounded (all.mergeAt (toLex (realm, scope)) cns).keys := by
  refine bounded_of_subset fun rl' => ?_
  by_cases hroom : (keysOf all.keys rl').length < maxScopesPerRealm - 2
  · refine ⟨toLex (realm, scope) :: labelsOf all.keys rl', ?_, fun key hk => ?_⟩
    · exact (Nat.succ_le_succ (length_filter_le _ _)).trans hroom
    obtain ⟨hm, hl⟩ := mem_labelsOf.1 hk
    rcases of_mem_mergeAt hm with rfl | ho
    · exact mem_cons_self
    · exact mem_cons_of_mem _ (mem_labelsOf.2 ⟨ho, hl⟩)
  · refine ⟨labelsOf all.keys rl', h rl', fun key hk => ?_⟩
    obtain ⟨hm, hr, hl⟩ := mem_labelsOf.1 hk
    refine mem_labelsOf.2 ⟨?_, hr, hl⟩
    rcases of_mem_mergeAt hm with rfl | ho
    · rcases hs with hc | hot | ht | hle
      · exact absurd hc hl.1
      · exact absurd hot hl.2
      · exact OrdMap.mem_keys.2 (OrdMap.contains_iff.1 ht)
      · exact absurd (hr ▸ hle) hroom
    · exact ho

theorem Bounded.add (h : Bounded all.keys) (rl sc : String) (cns : UsageCounters) :
    Bounded (all.add rl sc cns).keys := by
  unfold UsageSnapshot.add
  dsimp only
  split
  · refine h.mergeAt ?_ cns
    unfold boundedScope
    split
    · exact .inr (.inl rfl)
    split
    · tauto
    split
    · tauto
    · exact .inr (.inl rfl)
  · exact h.mergeAt (.inr (.inl rfl)) cns

theorem of_mem_restore {drained : List (Key × UsageCounters)} (h : key ∈ (all.restore drained).keys) :
    key ∈ drained.map Prod.fst ∨ key ∈ all.keys := by
  induction drained generalizing all with
  | nil => exact .inr h
  | cons e rest ih =>
    rcases ih h with hr | hm
    · exact .inl (mem_cons_of_mem _ hr)
    rcases of_mem_mergeAt hm with rfl | ho
    · exact .inl mem_cons_self
    · exact .inr ho

theorem bounded_nil : Bounded [] := fun _ => Nat.zero_le _

namespace UsageReporter

variable {self : UsageReporter}

/-- The meter and what a report has taken are bounded. -/
def Held (self : UsageReporter) : Prop := Bounded self.meter.keys ∧ Bounded (self.drained.map Prod.fst)

/-- The labels of a realm after a restore are those put back, or those in the meter when none are put back. -/
theorem Held.restore (h : self.Held) (hkn : self.restoresKnown .restore = true) :
    Bounded (self.meter.restore self.drained).keys := by
  refine bounded_of_subset fun realm => ?_
  by_cases hback : keysOf (self.drained.map Prod.fst) realm = []
  · refine ⟨_, h.1 realm, fun key hkey => ?_⟩
    obtain ⟨hm, hr, hl⟩ := mem_labelsOf.1 hkey
    rcases of_mem_restore hm with hd | ho
    · have hnone : key ∈ keysOf _ realm := mem_filter.2 ⟨hd, decide_eq_true hr⟩
      rw [hback] at hnone
      cases hnone
    · exact mem_labelsOf.2 ⟨ho, hr, hl⟩
  · refine ⟨_, h.2 realm, fun key hkey => ?_⟩
    obtain ⟨hm, rfl, hl⟩ := mem_labelsOf.1 hkey
    refine mem_labelsOf.2 ⟨?_, rfl, hl⟩
    rcases of_mem_restore hm with hd | ho
    · exact hd
    · have hkey := all_eq_true.1 hkn key ho
      simpa [hl.1, hl.2, hback] using hkey

theorem held_step (a : Action) (h : self.Held) (hkn : self.restoresKnown a = true) : (self.step a).Held := by
  cases a with
  | record rl sc => exact ⟨h.1.add rl sc _, h.2⟩
  | bindRealm rl beforeAuth =>
    rw [step]
    split
    · exact h
    · exact ⟨h.1.add rl controlScope beforeAuth, h.2⟩
  | drain =>
    rw [step]
    split
    · exact ⟨bounded_nil, h.1⟩
    · exact h
  | writeSpool =>
    refine ⟨h.1, fun rl => ?_⟩
    have hsub := (drop_sublist maxBatchEntries self.drained).map Prod.fst
    exact ((hsub.filter _).filter _).length_le.trans (h.2 rl)
  | restore => exact ⟨h.restore hkn, bounded_nil⟩

/-- In every run in which the labels counted while a failed report was running are among those it puts back, the meter
never holds more than 16 scopes of a realm. -/
theorem scopes_within_limit {actions : List Action} (h : everyStep step restoresKnown new actions = true)
    (realm : String) : (keysOf (run actions).meter.keys realm).length ≤ maxScopesPerRealm := by
  have hnew : new.Held := ⟨bounded_nil, bounded_nil⟩
  have hh : (run actions).Held :=
    foldl_induction (P := Held) (fun _ a hh hkn => held_step a hh hkn) hnew h
  exact (length_keysOf_le _ realm).trans (Nat.add_le_add_right (hh.1 realm) 2)

/-- The client counts the same label again while a report fails. -/
def sameLabel : List Action :=
  [.record "realm" "session" .incoming 9, .drain, .record "realm" "session" .incoming 1, .restore]

theorem scopes_within_limit_sameLabel : everyStep step restoresKnown new sameLabel = true ∧
      (run sameLabel).meter.get (toLex ("realm", "session")) = some ⟨10, 0, 2, 0⟩ ∧
      (keysOf (run sameLabel).meter.keys "realm").length ≤ maxScopesPerRealm :=
  ⟨by decide +kernel, by decide +kernel, scopes_within_limit (by decide +kernel) "realm"⟩

/-- A realm fills its labels, and counts three new ones while the report that took them fails. -/
def newLabels : List Action :=
  ["a", "b", "c", "d", "e", "f", "g", "h", "i", "j", "k", "l", "m", "n"].map (.record "realm" · .incoming 1) ++
    [.drain] ++ ["o", "p", "q"].map (.record "realm" · .incoming 1) ++ [.restore]

/-- The meter then holds seventeen scopes of the realm. -/
theorem restore_exceeds_limit : (keysOf (run newLabels).meter.keys "realm").length = 17 := by
  decide +kernel

end UsageReporter

end Chariox.UsageMeter
