import Chariox.Lib.Except
import Chariox.Lib.OrdMap
import Chariox.Lib.Text

/-!
# The paths of an app package

A package holds portable relative paths.  Its path set keeps every directory and file under its name in lower case, so
that two names which a file system without case would take for one are found.
-/

namespace Chariox.AppPackage

open OrdMap List

inductive ErrorCode
  | invalidPath
  | invalidManifest
  | invalidSchema
  | archiveLimit
  | duplicatePath
  deriving DecidableEq, Repr

structure PackageError where
  code : ErrorCode
  message : String
  deriving DecidableEq, Repr

structure Limits where
  maxPathBytes : Nat
  maxPathDepth : Nat

def invalid : PackageError := ⟨.invalidPath, "path must be a portable relative package path"⟩

/-- `str::to_ascii_lowercase`. -/
def lower (text : List Char) : List Char := text.map Char.toLower

/-- A name of a device, whatever its extension. -/
def isDevice (stem : List Char) : Bool :=
  ["con", "prn", "aux", "nul"].any (fun name => name.toList = stem) ||
    (stem.length = 4 && ("com".toList.isPrefixOf stem || "lpt".toList.isPrefixOf stem) &&
      stem[3]?.any (fun c => '1' ≤ c && c ≤ '9'))

def validatePart (part : List Char) : Except PackageError Unit := do
  failIf (part = [] ∨ part = ['.'] ∨ part = ['.', '.'] ∨ part.getLast? = some '.' ∨ part.getLast? = some ' ') invalid
  failIf (isDevice (lower ((splitChar '.' part).headD []))) invalid

def validatePath (path : List Char) (limits : Limits) : Except PackageError Unit := do
  failIf (path = [] ∨ limits.maxPathBytes < (path.map Char.utf8Size).sum ∨ path.any (fun c => 127 < c.toNat) ∨
    path.any (fun c => c.toNat < 32 || c.toNat = 127 || "<>:\\\"|?*".toList.contains c)) invalid
  let parts := splitChar '/' path
  failIf (limits.maxPathDepth < parts.length) ⟨.archiveLimit, "path exceeds depth limit"⟩
  parts.forM validatePart

/-- The names in the set by their lower case form, with whether they are files. -/
abbrev PathSet := OrdMap (List Char) (List Char × Bool)

namespace PathSet

def insertName (set : PathSet) (name : List Char × Bool) : Except PackageError PathSet :=
  match set.get (lower name.1) with
  | some (old, oldFile) =>
    if old ≠ name.1 ∨ oldFile = true ∨ name.2 = true then
      .error ⟨.duplicatePath, "duplicate, case-colliding, or file/directory-conflicting path"⟩
    else .ok set
  | none => .ok (OrdMap.insert set (lower name.1) name)

/-- Where the names of a path end: before every slash, and at its end. -/
def ends (path : List Char) : List Nat :=
  (range path.length).filter (fun i => path[i]? = some '/') ++ [path.length]

/-- The directories of a path, and the path as a file. -/
def names (path : List Char) : List (List Char × Bool) :=
  (ends path).map (fun stop => (path.take stop, decide (stop = path.length)))

def insert (limits : Limits) (set : PathSet) (path : List Char) : Except PackageError PathSet := do
  validatePath path limits
  (names path).foldlM insertName set

def insertAll (paths : List (List Char)) (limits : Limits) : Except PackageError PathSet :=
  paths.foldlM (insert limits) OrdMap.empty

/-! ### Names that clash -/

/-- Two names that are one without case, and not the same directory. -/
def Clash (x y : List Char × Bool) : Prop := lower x.1 = lower y.1 ∧ (x.1 ≠ y.1 ∨ x.2 = true ∨ y.2 = true)

variable {m : PathSet} {l : List (List Char × Bool)} {x y : List Char × Bool} {p q d : List Char} {limits : Limits}

theorem insertName_of_some (h : m.get (lower x.1) = some y) (hy : lower y.1 = lower x.1) :
    m.insertName x = .ok m ∧ y = x ∧ x.2 = false ∨ (∃ e, m.insertName x = .error e) ∧ Clash y x := by
  unfold insertName
  rw [h]
  dsimp only
  split
  · rename_i hc
    exact .inr ⟨⟨_, rfl⟩, hy, hc⟩
  · rename_i hc
    simp only [not_or, Bool.not_eq_true, ne_eq, not_not] at hc
    exact .inl ⟨rfl, Prod.ext hc.1 (hc.2.1.trans hc.2.2.symm), hc.2.2⟩

/-- A name stored under a new key: it clashes as the stored ones do. -/
theorem get_insert_clash (hx : m.get (lower x.1) = none) :
    (∀ v, (OrdMap.insert m (lower x.1) x).get (lower y.1) = some v → ¬ Clash v y) ↔
      (∀ v, m.get (lower y.1) = some v → ¬ Clash v y) ∧ ¬ Clash x y := by
  by_cases hk : lower y.1 = lower x.1
  · rw [hk, get_insert_self, hx]
    simp
  · rw [get_insert_of_ne _ hk]
    simp [Clash, Ne.symm hk]

/-- The names of a list are accepted exactly when none clashes with a stored name or with another one. -/
theorem foldlM_insertName (hm : ∀ k v, m.get k = some v → lower v.1 = k) : (∃ s, l.foldlM insertName m = .ok s) ↔
      (∀ x ∈ l, ∀ v, m.get (lower x.1) = some v → ¬ Clash v x) ∧ l.Pairwise (fun x y => ¬ Clash x y) := by
  induction l generalizing m with
  | nil => exact ⟨fun _ => ⟨nofun, Pairwise.nil⟩, fun _ => ⟨m, rfl⟩⟩
  | cons x l ih =>
    rw [foldlM_cons, pairwise_cons, forall_mem_cons]
    rcases hget : m.get (lower x.1) with _ | v
    · have hins : m.insertName x = .ok (OrdMap.insert m (lower x.1) x) := by
        unfold insertName
        rw [hget]
      have hm' : ∀ k v, (OrdMap.insert m (lower x.1) x).get k = some v → lower v.1 = k := forall_insert rfl hm
      rw [hins]
      refine (ih hm').trans ?_
      simp only [get_insert_clash hget]
      constructor
      · exact fun h => ⟨⟨nofun, fun y hy => (h.1 y hy).1⟩, fun y hy => (h.1 y hy).2, h.2⟩
      · exact fun h => ⟨fun y hy => ⟨h.1.2 y hy, h.2.1 y hy⟩, h.2.2⟩
    · rcases insertName_of_some hget (hm _ _ hget) with ⟨hins, rfl, hx⟩ | ⟨⟨e, hins⟩, hc⟩
      · rw [hins]
        refine (ih hm).trans ⟨fun h => ⟨⟨?_, h.1⟩, fun y hy hc => ?_, h.2⟩, fun h => ⟨h.1.2, h.2.2⟩⟩
        · rintro w hw ⟨-, hc⟩
          cases hw
          simp [hx] at hc
        · exact h.1 y hy v (hc.1 ▸ hget) hc
      · rw [hins]
        exact ⟨fun ⟨s, hs⟩ => (by cases hs), fun h => absurd hc (h.1.1 v rfl)⟩

/-- A run of insertions: every path is valid, and all their names are accepted. -/
theorem foldlM_insert (paths : List (List Char)) (m : PathSet) : (∃ s, paths.foldlM (insert limits) m = .ok s) ↔
      (∀ p ∈ paths, validatePath p limits = .ok ()) ∧ ∃ s, (paths.flatMap names).foldlM insertName m = .ok s := by
  induction paths generalizing m with
  | nil => simp
  | cons p paths ih =>
    rw [foldlM_cons, flatMap_cons, foldlM_append, forall_mem_cons, insert]
    rcases hval : validatePath p limits with e | u
    · exact ⟨fun ⟨s, hs⟩ => (by cases hs), fun h => (by cases h.1.1)⟩
    · rcases hnames : (names p).foldlM insertName m with e | s
      · exact ⟨fun ⟨s, hs⟩ => (by cases hs), fun ⟨_, s, hs⟩ => (by cases hs)⟩
      · simp only [true_and]
        exact ih s

/-! ### The names of a path -/

theorem mem_names : x ∈ names p ↔ x = (p, true) ∨ x.2 = false ∧ x.1 ++ ['/'] <+: p := by
  obtain ⟨d, f⟩ := x
  simp only [names, ends, map_append, mem_append, mem_map, mem_filter, mem_range, decide_eq_true_eq, map_singleton,
    mem_singleton, take_length, decide_true]
  constructor
  · rintro (⟨i, ⟨hi, hs⟩, heq⟩ | h)
    · right
      cases heq
      refine ⟨decide_eq_false (Nat.ne_of_lt hi), ?_⟩
      have htake : p.take i ++ ['/'] = p.take (i + 1) := by rw [take_add_one, hs, Option.toList_some]
      rw [htake]
      exact take_prefix _ _
    · exact .inl h
  · rintro (h | ⟨rfl, rest, rfl⟩)
    · exact .inr h
    · left
      refine ⟨d.length, ⟨by simp, by simp⟩, ?_⟩
      simp

/-- The names of one path are of different lengths. -/
theorem names_pairwise (p : List Char) : (names p).Pairwise (fun x y => ¬ Clash x y) := by
  have hlt : (ends p).Pairwise (· < ·) := by
    refine pairwise_append.2 ⟨pairwise_lt_range.filter _, pairwise_singleton _ _, fun i hi j hj => ?_⟩
    rw [mem_singleton.1 hj]
    exact mem_range.1 (mem_filter.1 hi).1
  have hle : ∀ i ∈ ends p, i ≤ p.length := by
    intro i hi
    rcases mem_append.1 hi with hi | hi
    · exact Nat.le_of_lt (mem_range.1 (mem_filter.1 hi).1)
    · exact Nat.le_of_eq (mem_singleton.1 hi)
  refine pairwise_map.2 (hlt.imp_of_mem fun hi hj hij hc => ?_)
  have hlen := congrArg length hc.1
  have hi := hle _ hi
  have hj := hle _ hj
  simp only [lower, length_map, length_take] at hlen
  omega

theorem eq_slash_of_toLower {c : Char} (h : c.toLower = '/') : c = '/' := by
  unfold Char.toLower at h
  split at h
  · rename_i hc
    have hv := congrArg (fun c : Char => c.val) h
    simp only at hv
    grind
  · exact h

theorem prefix_lower : lower p ++ ['/'] <+: lower q ↔ ∃ e, e ++ ['/'] <+: q ∧ lower p = lower e := by
  unfold lower
  rw [prefix_map_iff]
  constructor
  · rintro ⟨l, hl, heq⟩
    obtain ⟨e, cs, rfl, he, hcs⟩ := append_eq_map_iff.1 heq
    obtain ⟨c, rfl, hc⟩ := map_eq_singleton_iff.1 hcs
    obtain rfl := eq_slash_of_toLower hc
    exact ⟨e, hl, he.symm⟩
  · rintro ⟨e, he, heq⟩
    exact ⟨e ++ ['/'], he, by rw [map_append, heq]; rfl⟩

/-- Two paths of which neither is the other one or one of its directories without case, and that spell their common
directories alike. -/
structure Apart (p q : List Char) : Prop where
  notEqual : lower p ≠ lower q
  notDirectory : ¬ lower p ++ ['/'] <+: lower q
  noDirectory : ¬ lower q ++ ['/'] <+: lower p
  spelled : ∀ d e, d ++ ['/'] <+: p → e ++ ['/'] <+: q → lower d = lower e → d = e

theorem Apart.symm (h : Apart p q) : Apart q p :=
  ⟨h.notEqual.symm, h.noDirectory, h.notDirectory, fun d e hd he heq => (h.spelled e d he hd heq.symm).symm⟩

theorem apart_iff : Apart p q ↔ ∀ x ∈ names p, ∀ y ∈ names q, ¬ Clash x y := by
  constructor
  · rintro h x hx y hy ⟨heq, hc⟩
    rcases mem_names.1 hx with rfl | ⟨hxd, hx⟩
    · rcases mem_names.1 hy with rfl | ⟨-, hy⟩
      · exact h.notEqual heq
      · exact h.notDirectory (prefix_lower.2 ⟨y.1, hy, heq⟩)
    · rcases mem_names.1 hy with rfl | ⟨hyd, hy⟩
      · exact h.noDirectory (prefix_lower.2 ⟨x.1, hx, heq.symm⟩)
      · simp [h.spelled _ _ hx hy heq, hxd, hyd] at hc
  · intro h
    have hp : (p, true) ∈ names p := mem_names.2 (.inl rfl)
    have hq : (q, true) ∈ names q := mem_names.2 (.inl rfl)
    refine ⟨fun heq => h _ hp _ hq ⟨heq, by simp⟩, fun hd => ?_, fun hd => ?_, fun d e hd he heq => ?_⟩
    · obtain ⟨e, he, heq⟩ := prefix_lower.1 hd
      exact h _ hp (e, false) (mem_names.2 (.inr ⟨rfl, he⟩)) ⟨heq, by simp⟩
    · obtain ⟨e, he, heq⟩ := prefix_lower.1 hd
      exact h (e, false) (mem_names.2 (.inr ⟨rfl, he⟩)) _ hq ⟨heq.symm, by simp⟩
    · by_contra hne
      exact h (d, false) (mem_names.2 (.inr ⟨rfl, hd⟩)) (e, false) (mem_names.2 (.inr ⟨rfl, he⟩))
        ⟨heq, .inl hne⟩

theorem insertAll_isOk (paths : List (List Char)) (limits : Limits) : (insertAll paths limits).isOk = true ↔
    (∀ p ∈ paths, validatePath p limits = .ok ()) ∧ paths.Pairwise Apart := by
  rw [isOk_iff, insertAll, foldlM_insert, foldlM_insertName (fun _ _ h => by cases h), pairwise_flatMap]
  refine and_congr_right fun _ => ?_
  simp only [← apart_iff]
  exact ⟨fun h => h.2.2, fun h => ⟨nofun, fun p _ => names_pairwise p, h⟩⟩

/-- A path set accepts the paths of a list exactly when each is valid and any two are apart, so in any order. -/
theorem insertAll_accepts (paths : List (List Char)) (limits : Limits) : ((insertAll paths limits).isOk = true ↔
        (∀ p ∈ paths, validatePath p limits = .ok ()) ∧ paths.Pairwise Apart) ∧
      ∀ others, others ~ paths → (insertAll others limits).isOk = (insertAll paths limits).isOk := by
  refine ⟨insertAll_isOk paths limits, fun others hperm => Bool.eq_iff_iff.2 ?_⟩
  rw [insertAll_isOk, insertAll_isOk, hperm.pairwise_iff Apart.symm]
  simp only [hperm.mem_iff]

/-- Two spellings of one directory: no path is another one or its directory without case, yet the second is refused. -/
theorem directories_collide :
    let paths := ["Ui/a".toList, "ui/b".toList]
    let limits : Limits := ⟨255, 24⟩
    (∀ p ∈ paths, validatePath p limits = .ok ()) ∧
      paths.Pairwise (fun p q => lower p ≠ lower q ∧ ¬ lower p ++ ['/'] <+: lower q ∧ ¬ lower q ++ ['/'] <+: lower p) ∧
      (insertAll paths limits).isOk = false := by
  decide +kernel

end PathSet

end Chariox.AppPackage
