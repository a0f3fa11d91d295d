import Chariox.Lib.Text

/-!
# The ignore rules of live sync

A path is excluded when the last rule that matches it does not include it again.  A rule without a slash is matched
against every part of the path, the others against the whole path, with `*` for any text.
-/

namespace Chariox.WorkspaceLiveSync

open List

variable {p v head tail : List Char}

def wildcardMatch (pattern value : List Char) : Bool :=
  if pattern = value then true
  else
    match _hs : splitOnce '*' pattern with
    | none => false
    | some (head, tail) =>
      if !head.isPrefixOf value then false
      else
        let remainder := value.drop head.length
        if !tail.contains '*' then tail.isEmpty || tail.isSuffixOf remainder
        else remainder.tails.any (fun rest => wildcardMatch tail rest)
termination_by pattern.length
decreasing_by
  rw [(splitOnce_eq_some _hs).1]
  simp
  omega

/-! ### The language of a pattern -/

/-- Every `*` stands for any text, and every other character for itself. -/
inductive Language : List Char → List Char → Prop
  | nil : Language [] []
  | star (text : List Char) {pattern value : List Char} (h : Language pattern value) :
    Language ('*' :: pattern) (text ++ value)
  | char {c : Char} (hc : c ≠ '*') {pattern value : List Char} (h : Language pattern value) :
    Language (c :: pattern) (c :: value)

theorem language_self (p : List Char) : Language p p := by
  induction p with
  | nil => exact Language.nil
  | cons c p ih =>
    by_cases hc : c = '*'
    · subst hc
      exact Language.star ['*'] ih
    · exact Language.char hc ih

theorem language_star : Language ('*' :: p) v ↔ ∃ rest, rest <:+ v ∧ Language p rest := by
  constructor
  · intro h
    cases h with
    | star text h => exact ⟨_, suffix_append _ _, h⟩
    | char hc => exact absurd rfl hc
  · rintro ⟨rest, ⟨text, rfl⟩, h⟩
    exact Language.star text h

/-- A text without `*` in front of a pattern stands for itself. -/
theorem language_append (hh : '*' ∉ head) : Language (head ++ p) v ↔ ∃ rest, v = head ++ rest ∧ Language p rest := by
  induction head generalizing v with
  | nil => simp
  | cons c head ih =>
    obtain ⟨hc, hh⟩ := not_or.1 (fun h => hh (mem_cons.2 h))
    constructor
    · intro h
      cases h with
      | star => exact absurd rfl hc
      | char _ h =>
        obtain ⟨rest, rfl, hr⟩ := (ih hh).1 h
        exact ⟨rest, rfl, hr⟩
    · rintro ⟨rest, rfl, h⟩
      exact Language.char (Ne.symm hc) ((ih hh).2 ⟨rest, rfl, h⟩)

theorem language_literal (hp : '*' ∉ p) : Language p v ↔ v = p := by
  have h := language_append (p := []) (v := v) hp
  rw [append_nil] at h
  rw [h]
  constructor
  · rintro ⟨rest, rfl, hrest⟩
    cases hrest
    simp
  · rintro rfl
    exact ⟨[], by simp, Language.nil⟩

/-- The value starts with the head, and a rest of what follows is in the language of the tail. -/
theorem language_split (hh : '*' ∉ head) : Language (head ++ '*' :: tail) v ↔
    head.isPrefixOf v = true ∧ ∃ rest, rest <:+ v.drop head.length ∧ Language tail rest := by
  rw [language_append hh, List.isPrefixOf_iff_prefix]
  constructor
  · rintro ⟨rest, rfl, h⟩
    rw [drop_left]
    exact ⟨prefix_append _ _, language_star.1 h⟩
  · rintro ⟨⟨rest, rfl⟩, h⟩
    rw [drop_left] at h
    exact ⟨rest, rfl, language_star.2 h⟩

theorem wildcardMatch_eq (pattern value : List Char) : (wildcardMatch pattern value = true) = Language pattern value := by
  apply propext
  fun_induction wildcardMatch pattern value with
  | case1 p => simp [language_self]
  | case2 p v hne hsplit =>
    rw [language_literal (splitOnce_eq_none hsplit)]
    simp [Ne.symm hne]
  | case3 p v hne head tail hsplit hpre =>
    obtain ⟨rfl, hh⟩ := splitOnce_eq_some hsplit
    rw [language_split hh]
    simp_all
  | case4 p v hne head tail hsplit hpre remainder hstar =>
    obtain ⟨rfl, hh⟩ := splitOnce_eq_some hsplit
    have htail : '*' ∉ tail := by simpa using hstar
    have hhead : head.isPrefixOf v = true := by simpa using hpre
    simp only [language_split hh, language_literal htail, exists_eq_right, hhead, true_and]
    rw [Bool.or_eq_true, isSuffixOf_iff_suffix, List.isEmpty_iff]
    constructor
    · rintro (rfl | h)
      · exact nil_suffix
      · exact h
    · exact .inr
  | case5 p v hne head tail hsplit hpre remainder hstar ih =>
    obtain ⟨rfl, hh⟩ := splitOnce_eq_some hsplit
    have hhead : head.isPrefixOf v = true := by simpa using hpre
    simp only [language_split hh, hhead, true_and, any_eq_true, mem_tails, ih]
    rfl

/-- A match is a word of the language of the pattern. -/
theorem wildcardMatch_iff (pattern value : List Char) :
    wildcardMatch pattern value = true ↔ Language pattern value := by
  rw [wildcardMatch_eq]

/-! ### Rules -/

/-- `str::trim_end_matches`. -/
def trimEndMatches (c : Char) (text : List Char) : List Char := (text.reverse.dropWhile (· = c)).reverse

def ignorePatternMatches (pattern path : List Char) : Bool :=
  let directoryPattern : Bool := pattern.getLast? = some '/'
  let pattern := trimEndMatches '/' pattern
  if pattern.isEmpty then false
  else if pattern.contains '/' then
    wildcardMatch pattern path || (pattern.isPrefixOf path && (path.drop pattern.length).head? = some '/') ||
      (directoryPattern && path = pattern)
  else (splitChar '/' path).any (wildcardMatch pattern)

def ruleMatches (path rule : List Char) : Bool := ignorePatternMatches (rule.dropWhile (· = '!')) path

def userRulesExcludePath (path : List Char) (rules : List (List Char)) : Bool :=
  rules.foldl (fun excluded rule => if ruleMatches path rule then !(rule.head? = some '!') else excluded) false

/-- What a rule without its marks stands for: with a slash inside, paths of its language and what is below it; otherwise
paths with a part of its language. -/
def Selects (path rule : List Char) : Prop :=
  let pattern := trimEndMatches '/' (rule.dropWhile (· = '!'))
  pattern ≠ [] ∧
    if '/' ∈ pattern then Language pattern path ∨ ∃ below, path = pattern ++ '/' :: below
    else ∃ part ∈ splitChar '/' path, Language pattern part

theorem below_iff {pattern path : List Char} : pattern.isPrefixOf path = true ∧
    (path.drop pattern.length).head? = some '/' ↔ ∃ below, path = pattern ++ '/' :: below := by
  rw [List.isPrefixOf_iff_prefix]
  constructor
  · rintro ⟨⟨rest, rfl⟩, hs⟩
    rw [drop_left, head?_eq_some_iff] at hs
    obtain ⟨below, rfl⟩ := hs
    exact ⟨below, rfl⟩
  · rintro ⟨below, rfl⟩
    simp

theorem ruleMatches_iff {path rule : List Char} : ruleMatches path rule = true ↔ Selects path rule := by
  unfold ruleMatches ignorePatternMatches Selects
  generalize rule.dropWhile (· = '!') = text
  dsimp only
  generalize trimEndMatches '/' text = pattern
  by_cases hnil : pattern = []
  · simp [hnil]
  by_cases hslash : '/' ∈ pattern
  · -- a path that is the pattern is in its language
    have hself : path = pattern → Language pattern path := fun h => h ▸ language_self _
    simp only [List.isEmpty_iff, hnil, hslash, contains_eq_mem, decide_true, if_true, if_false, Bool.or_eq_true,
      Bool.and_eq_true, decide_eq_true_eq, below_iff, wildcardMatch_eq, ne_eq, not_false_eq_true, true_and]
    tauto
  · simp [hnil, hslash, wildcardMatch_eq]

theorem foldl_excludes (path : List Char) (rules : List (List Char)) (excluded : Bool) :
    rules.foldl (fun excluded rule => if ruleMatches path rule then !(rule.head? = some '!') else excluded) excluded =
        true ↔
      (∃ before rule after, rules = before ++ rule :: after ∧ Selects path rule ∧ rule.head? ≠ some '!' ∧
        ∀ later ∈ after, ¬ Selects path later) ∨ (excluded = true ∧ ∀ rule ∈ rules, ¬ Selects path rule) := by
  induction rules generalizing excluded with
  | nil => simp
  | cons rule rules ih =>
    rw [foldl_cons, ih]
    constructor
    · rintro (⟨before, r, after, rfl, h⟩ | ⟨hex, hno⟩)
      · exact .inl ⟨rule :: before, r, after, rfl, h⟩
      by_cases hm : Selects path rule
      · rw [if_pos (ruleMatches_iff.2 hm)] at hex
        exact .inl ⟨[], rule, rules, rfl, hm, by simpa using hex, hno⟩
      · rw [if_neg (mt ruleMatches_iff.1 hm)] at hex
        exact .inr ⟨hex, forall_mem_cons.2 ⟨hm, hno⟩⟩
    · rintro (⟨before, r, after, heq, hs, hhead, hlater⟩ | ⟨hex, hno⟩)
      · cases before with
        | nil =>
          cases heq
          exact .inr ⟨by simp [ruleMatches_iff.2 hs, hhead], hlater⟩
        | cons =>
          cases heq
          exact .inl ⟨_, r, after, rfl, hs, hhead, hlater⟩
      · obtain ⟨hr, hno⟩ := forall_mem_cons.1 hno
        exact .inr ⟨by simp [mt ruleMatches_iff.1 hr, hex], hno⟩

/-- A path is excluded exactly when some rule that does not start with an exclamation mark selects it and no later rule
does. -/
theorem userRulesExcludePath_iff (path : List Char) (rules : List (List Char)) :
    userRulesExcludePath path rules = true ↔ ∃ before rule after, rules = before ++ rule :: after ∧
      Selects path rule ∧ rule.head? ≠ some '!' ∧ ∀ later ∈ after, ¬ Selects path later := by
  rw [userRulesExcludePath, foldl_excludes]
  simp

end Chariox.WorkspaceLiveSync
