import Chariox.EditCoordinator.NoLostUpdate
import Chariox.Lib.Runs

/-!
# Reservations and their tokens

A token names its artifact and its owner, but not the entry of the coordinator that it stands for.  The tokens that
were given out and not released yet, with the ranges each of them reserved, are kept as history.  As long as the tokens
of one owner on one artifact are released in the order in which they were given out, and no artifact is forgotten while
a token on it is outstanding, the entries of an artifact are those of its outstanding tokens, in their order.
-/

namespace Chariox

open TextDocument List

/-- A token that is outstanding, and the ranges it reserved. -/
structure HeldToken where
  id : Nat
  token : ArtifactReservationToken
  ranges : List TextRange
  deriving DecidableEq, Repr

namespace HeldToken

def reservation (held : HeldToken) : ActiveEditReservation := ⟨held.token.owner, held.ranges⟩

/-- The byte is in a range that the token reserved. -/
def Holds (held : HeldToken) (byte : Nat) : Prop := ∃ range ∈ held.ranges, range.start ≤ byte ∧ byte < range.stop

end HeldToken

/-- A coordinator and the tokens that are outstanding, in the order in which they were given out. -/
structure ReservationHistory where
  coordinator : ArtifactEditCoordinator
  outstanding : List HeldToken
  nextId : Nat
  deriving DecidableEq

inductive ReservationAction
  | tryReserveRanges (identity : WorkspaceIdentity) (path : String) (ranges : List TextRange)
      (owner : ArtifactReservationOwner)
  | releaseReservation (id : Nat)
  | forgetArtifact (identity : WorkspaceIdentity) (path : String)
  | readArtifact (request : ArtifactReadRequest)
  deriving DecidableEq, Repr

/-- The ranges that a request reserves: no range stands for the whole artifact. -/
def requestedRanges (ranges : List TextRange) : List TextRange :=
  if ranges.isEmpty then [wholeArtifactRange] else ranges

def ArtifactEditCoordinator.reservationsOf (c : ArtifactEditCoordinator) (artifactId : String) :
    List ActiveEditReservation :=
  (c.activeReservations.get artifactId).getD []

namespace ReservationHistory

def new : ReservationHistory := ⟨.new, [], 0⟩

def step (H : ContentHash) (h : ReservationHistory) : ReservationAction → ReservationHistory
  | .tryReserveRanges identity path ranges owner =>
    match h.coordinator.tryReserveRanges identity path ranges owner with
    | (coordinator, .ok token) =>
      { coordinator := coordinator
        outstanding := h.outstanding ++ [⟨h.nextId, token, requestedRanges ranges⟩]
        nextId := h.nextId + 1 }
    | (coordinator, .error _) => { h with coordinator := coordinator }
  | .releaseReservation id =>
    match h.outstanding.find? (fun held => held.id == id) with
    | none => h
    | some held =>
      { h with
        coordinator := h.coordinator.releaseReservation held.token
        outstanding := h.outstanding.filter (fun other => other.id != id) }
  | .forgetArtifact identity path => { h with coordinator := h.coordinator.forgetArtifact identity path }
  | .readArtifact request => { h with coordinator := (h.coordinator.readArtifact H request).1 }

def run (H : ContentHash) (actions : List ReservationAction) : ReservationHistory := actions.foldl (step H) new

/-- No token of the same owner on the same artifact was given out before and is outstanding. -/
def isOldest (h : ReservationHistory) (held : HeldToken) : Bool :=
  h.outstanding.find? (fun other => other.token = held.token) == some held

/-- A released token is the oldest outstanding one of its owner on its artifact, and an artifact that is forgotten has
no outstanding token. -/
def keepsTokens (h : ReservationHistory) : ReservationAction → Bool
  | .releaseReservation id => h.outstanding.all (fun held => held.id != id || h.isOldest held)
  | .forgetArtifact identity path =>
    h.outstanding.all (fun held => held.token.artifactId != artifactIdFor identity path)
  | .tryReserveRanges .. | .readArtifact _ => true

def heldOn (h : ReservationHistory) (artifactId : String) : List HeldToken :=
  h.outstanding.filter (fun held => held.token.artifactId == artifactId)

/-- The entries of the coordinator are those of the outstanding tokens, and entries of different owners are disjoint. -/
structure Matched (h : ReservationHistory) : Prop where
  entries : ∀ artifactId, h.coordinator.reservationsOf artifactId = (h.heldOn artifactId).map HeldToken.reservation
  disjoint : ∀ x ∈ h.outstanding, ∀ y ∈ h.outstanding, x.token.artifactId = y.token.artifactId →
    x.token.owner ≠ y.token.owner → rangesOverlap x.ranges y.ranges = false
  ids : h.outstanding.Pairwise (fun x y => x.id ≠ y.id)
  fresh : ∀ x ∈ h.outstanding, x.id < h.nextId

theorem matched_new : new.Matched where
  entries := fun _ => rfl
  disjoint := nofun
  ids := List.Pairwise.nil
  fresh := nofun

theorem rangesOverlap_comm (left right : List TextRange) : rangesOverlap left right = rangesOverlap right left := by
  have hone : ∀ left right : List TextRange, rangesOverlap left right = true → rangesOverlap right left = true := by
    intro left right h
    simp only [rangesOverlap, any_eq_true] at h ⊢
    obtain ⟨l, hl, r, hr, ho⟩ := h
    refine ⟨r, hr, l, hl, ?_⟩
    simp only [TextRange.overlaps, Bool.and_eq_true] at ho ⊢
    exact ⟨ho.2, ho.1⟩
  rw [Bool.eq_iff_iff]
  exact ⟨hone left right, hone right left⟩

theorem not_holds_of_disjoint {x y : HeldToken} (h : rangesOverlap x.ranges y.ranges = false) (byte : Nat) :
    ¬ (x.Holds byte ∧ y.Holds byte) := by
  rintro ⟨⟨r, hr, hst, hstop⟩, ⟨r', hr', hst', hstop'⟩⟩
  have hover : rangesOverlap x.ranges y.ranges = true := by
    simp only [rangesOverlap, any_eq_true]
    refine ⟨r, hr, r', hr', ?_⟩
    simp only [TextRange.overlaps, Bool.and_eq_true, decide_eq_true_eq]
    omega
  rw [h] at hover
  cases hover

/-! ### The steps -/

variable {h : ReservationHistory}

variable {owner : ArtifactReservationOwner} {identity : WorkspaceIdentity} {ranges : List TextRange}
variable {held : HeldToken} {path : String}

theorem tryReserveRanges_ok {c c' : ArtifactEditCoordinator} {tk : ArtifactReservationToken}
    (hok : c.tryReserveRanges identity path ranges owner = (c', .ok tk)) : tk = ⟨artifactIdFor identity path, owner⟩ ∧
      (∀ rsv ∈ c.reservationsOf tk.artifactId, rsv.owner ≠ owner →
        rangesOverlap (requestedRanges ranges) rsv.ranges = false) ∧
      ∀ aid, c'.reservationsOf aid =
        c.reservationsOf aid ++ (if aid = tk.artifactId then [⟨owner, requestedRanges ranges⟩] else []) := by
  unfold ArtifactEditCoordinator.tryReserveRanges at hok
  simp only at hok
  split at hok
  · cases hok
  rename_i hf
  cases hok
  refine ⟨rfl, ?_, ?_⟩
  · intro rsv hm hne
    have hnot := find?_eq_none.1 hf rsv hm
    simp only [Bool.and_eq_true, decide_eq_true_eq, not_and, Bool.not_eq_true] at hnot
    exact hnot hne
  · intro aid
    simp only [ArtifactEditCoordinator.reservationsOf, OrdMap.get_insert]
    split
    · rename_i heq
      subst heq
      rfl
    · rw [append_nil]

theorem tryReserveRanges_error {c c' : ArtifactEditCoordinator} {er : ArtifactEditError}
    (he : c.tryReserveRanges identity path ranges owner = (c', .error er)) : c' = c := by
  unfold ArtifactEditCoordinator.tryReserveRanges at he
  simp only at he
  split at he
  · cases he
    rfl
  · cases he

theorem reservationsOf_releaseReservation (c : ArtifactEditCoordinator) (tk : ArtifactReservationToken)
    (artifactId : String) : (c.releaseReservation tk).reservationsOf artifactId =
      if artifactId = tk.artifactId then
        (c.reservationsOf artifactId).eraseP (fun rsv => rsv.owner = tk.owner)
      else c.reservationsOf artifactId := by
  unfold ArtifactEditCoordinator.releaseReservation ArtifactEditCoordinator.reservationsOf
  cases hget : c.activeReservations.get tk.artifactId with
  | none =>
    by_cases heq : artifactId = tk.artifactId
    · subst heq
      simp [hget]
    · simp [heq]
  | some =>
    simp only
    by_cases heq : artifactId = tk.artifactId
    · subst heq
      rw [if_pos rfl, hget]
      split
      · rename_i he
        rw [OrdMap.get_remove_self]
        exact (isEmpty_iff.1 he).symm
      · rw [OrdMap.get_insert_self]
        rfl
    · split
      · rw [OrdMap.get_remove_of_ne _ heq]
      · rw [OrdMap.get_insert_of_ne _ heq]

theorem Matched.reserve (hm : h.Matched) {coordinator : ArtifactEditCoordinator} {tk : ArtifactReservationToken}
    (hok : h.coordinator.tryReserveRanges identity path ranges owner = (coordinator, .ok tk)) :
    Matched ⟨coordinator, h.outstanding ++ [⟨h.nextId, tk, requestedRanges ranges⟩], h.nextId + 1⟩ := by
  obtain ⟨ht, hf, he⟩ := tryReserveRanges_ok hok
  have hnew : ∀ x ∈ h.outstanding, x.token.artifactId = tk.artifactId → x.token.owner ≠ tk.owner →
      rangesOverlap (requestedRanges ranges) x.ranges = false := by
    intro x hx hid hne
    have hmem : x.reservation ∈ h.coordinator.reservationsOf tk.artifactId := by
      rw [hm.entries]
      exact mem_map.2 ⟨x, mem_filter.2 ⟨hx, by simpa using hid⟩, rfl⟩
    refine hf x.reservation hmem ?_
    rw [ht] at hne
    exact hne
  refine ⟨?_, ?_, ?_, ?_⟩
  · intro aid
    rw [he aid, hm.entries aid]
    simp only [heldOn]
    by_cases heq : aid = tk.artifactId
    · subst heq
      simp [HeldToken.reservation, ht]
    · simp [heq, Ne.symm heq]
  · intro x hx y hy hid hne
    rcases mem_append.1 hx with hx | hx <;> rcases mem_append.1 hy with hy | hy
    · exact hm.disjoint x hx y hy hid hne
    · cases mem_singleton.1 hy
      rw [rangesOverlap_comm]
      exact hnew x hx hid hne
    · cases mem_singleton.1 hx
      exact hnew y hy hid.symm (Ne.symm hne)
    · cases mem_singleton.1 hx
      cases mem_singleton.1 hy
      exact absurd rfl hne
  · rw [pairwise_append]
    refine ⟨hm.ids, pairwise_singleton .., ?_⟩
    exact fun x hx => forall_mem_singleton.2 (Nat.ne_of_lt (hm.fresh x hx))
  · refine forall_mem_append.2 ⟨?_, forall_mem_singleton.2 (Nat.lt_succ_self _)⟩
    exact fun x hx => Nat.lt_succ_of_lt (hm.fresh x hx)

section

variable (hm : h.Matched) (holdest : h.isOldest held = true)

include hm holdest

/-- The outstanding tokens around the oldest one of its owner on its artifact. -/
theorem Matched.split : ∃ b rest, h.outstanding = b ++ held :: rest ∧ (∀ x ∈ b, x.token ≠ held.token) ∧
      h.outstanding.find? (fun o => o.id == held.id) = some held ∧
      h.outstanding.filter (fun o => o.id != held.id) = b ++ rest := by
  rw [isOldest, beq_iff_eq, find?_eq_some_iff_append] at holdest
  obtain ⟨-, b, rest, hs, hb⟩ := holdest
  have hids := hm.ids
  rw [hs, pairwise_append, pairwise_cons] at hids
  have hoth : ∀ x ∈ b, x.id ≠ held.id := fun x hx => hids.2.2 x hx held mem_cons_self
  refine ⟨b, rest, hs, by simpa using hb, ?_, ?_⟩
  · rw [find?_eq_some_iff_append]
    exact ⟨by simp, b, rest, hs, by simpa using hoth⟩
  rw [hs, filter_append, filter_cons, if_neg (by simp)]
  congr 1
  · rw [filter_eq_self]
    intro x hx
    simpa using hoth x hx
  rw [filter_eq_self]
  intro x hx
  simpa using Ne.symm (hids.2.1.1 x hx)

theorem Matched.eraseP_entries (aid : String) : (h.coordinator.releaseReservation held.token).reservationsOf aid =
      ((h.outstanding.filter (fun o => o.id != held.id)).filter
        (fun o => o.token.artifactId == aid)).map HeldToken.reservation := by
  obtain ⟨b, rest, hs, hb, -, hf⟩ := hm.split holdest
  rw [reservationsOf_releaseReservation, hm.entries, heldOn, hf, hs]
  simp only [filter_append, filter_cons, map_append]
  by_cases heq : aid = held.token.artifactId
  · subst heq
    rw [if_pos rfl, if_pos (by simp), eraseP_append_right]
    · simp [HeldToken.reservation]
    intro rsv hme
    obtain ⟨x, hx, rfl⟩ := mem_map.1 hme
    obtain ⟨hx, hid⟩ := mem_filter.1 hx
    rw [beq_iff_eq] at hid
    intro hma
    have hown : x.token.owner = held.token.owner := of_decide_eq_true hma
    have htok : x.token = ⟨x.token.artifactId, x.token.owner⟩ := rfl
    rw [hid, hown] at htok
    exact hb x hx htok
  · rw [if_neg heq, if_neg (by simpa using Ne.symm heq)]

theorem Matched.release : Matched { h with
      coordinator := h.coordinator.releaseReservation held.token
      outstanding := h.outstanding.filter (fun o => o.id != held.id) } where
  entries := hm.eraseP_entries holdest
  disjoint := fun x hx y hy => hm.disjoint x (mem_of_mem_filter hx) y (mem_of_mem_filter hy)
  ids := hm.ids.filter _
  fresh := fun x hx => hm.fresh x (mem_of_mem_filter hx)

end

theorem Matched.forget (hm : h.Matched) (hn : ∀ he ∈ h.outstanding, he.token.artifactId ≠ artifactIdFor identity path) :
    Matched { h with coordinator := h.coordinator.forgetArtifact identity path } :=
  { hm with
    entries := by
      intro aid
      rw [show ({ h with coordinator := h.coordinator.forgetArtifact identity path } :
        ReservationHistory).heldOn aid = h.heldOn aid from rfl, ← hm.entries aid]
      unfold ArtifactEditCoordinator.forgetArtifact ArtifactEditCoordinator.reservationsOf
      simp only [OrdMap.get_remove]
      split
      · rename_i heq
        have hemp : h.heldOn aid = [] := by
          rw [heldOn, filter_eq_nil_iff]
          intro he hh
          simpa [heq] using hn he hh
        have hents := hm.entries aid
        rw [hemp] at hents
        exact hents.symm
      · rfl }

theorem eq_of_find_id {id : Nat} (hf : h.outstanding.find? (fun x => x.id == id) = some held) :
    held ∈ h.outstanding ∧ held.id = id := by
  have hsome := find?_some hf
  exact ⟨mem_of_find?_eq_some hf, by simpa using hsome⟩

theorem Matched.step (H : ContentHash) (hm : h.Matched) {a : ReservationAction}
    (hkp : h.keepsTokens a = true) : (h.step H a).Matched := by
  cases a with
  | tryReserveRanges =>
    simp only [ReservationHistory.step]
    split
    · rename_i hok
      exact hm.reserve hok
    rename_i her
    rw [tryReserveRanges_error her]
    exact hm
  | releaseReservation =>
    simp only [ReservationHistory.step]
    split
    · exact hm
    rename_i he hf
    obtain ⟨hme, rfl⟩ := eq_of_find_id hf
    have hall := all_eq_true.1 hkp he hme
    exact hm.release (by simpa using hall)
  | forgetArtifact =>
    refine hm.forget ?_
    intro he hh
    have hall := all_eq_true.1 hkp he hh
    simpa using hall
  | readArtifact => exact { hm with entries := hm.entries }

theorem run_matched (H : ContentHash) {acts : List ReservationAction}
    (hkp : everyStep (step H) keepsTokens new acts = true) : (run H acts).Matched := by
  exact foldl_induction (P := Matched) (fun _ _ hm hs => hm.step H hs) matched_new hkp

/-- In every run that releases the tokens of an owner in their order and forgets no artifact with outstanding tokens,
outstanding tokens of different owners on one artifact have no byte in common, and the release of a token in that order
removes exactly its entry. -/
theorem reservations_follow_tokens (H : ContentHash) (actions : List ReservationAction)
    (hkeeps : everyStep (step H) keepsTokens new actions = true) :
    (∀ x ∈ (run H actions).outstanding, ∀ y ∈ (run H actions).outstanding,
      x.token.artifactId = y.token.artifactId → x.token.owner ≠ y.token.owner →
        ∀ byte, ¬ (x.Holds byte ∧ y.Holds byte)) ∧
      (∀ artifactId, (run H actions).coordinator.reservationsOf artifactId =
        ((run H actions).heldOn artifactId).map HeldToken.reservation) ∧
      ∀ held ∈ (run H actions).outstanding, (run H actions).isOldest held = true →
        ∃ before rest, (run H actions).outstanding = before ++ held :: rest ∧
          ((run H actions).step H (.releaseReservation held.id)).outstanding = before ++ rest ∧
          ∀ artifactId, ((run H actions).step H (.releaseReservation held.id)).coordinator.reservationsOf artifactId =
            ((before ++ rest).filter (fun other => other.token.artifactId == artifactId)).map
              HeldToken.reservation := by
  have hm := run_matched H hkeeps
  refine ⟨?_, hm.entries, ?_⟩
  · intro x hx y hy hid hne byte
    exact not_holds_of_disjoint (hm.disjoint x hx y hy hid hne) byte
  intro held hh ho
  obtain ⟨before, rest, hs, -, hf, hfl⟩ := hm.split ho
  have hents := hm.eraseP_entries ho
  simp only [hfl] at hents
  refine ⟨before, rest, hs, ?_, ?_⟩
  · simp only [ReservationHistory.step, hf, hfl]
  · simp only [ReservationHistory.step, hf]
    exact hents

/-! ### Runs -/

open CoordinatorHistory (plainHash)

def sampleIdentity : WorkspaceIdentity := ⟨none, none, none, none, none, "w"⟩

def sampleOwner (run : String) : ArtifactReservationOwner := ⟨run, none, "edit"⟩

/-- Two tokens of one owner, released in their order, and one of another owner. -/
def releasedInOrder : List ReservationAction :=
  [.tryReserveRanges sampleIdentity "a" [⟨0, 4⟩] (sampleOwner "r"),
    .tryReserveRanges sampleIdentity "a" [⟨8, 12⟩] (sampleOwner "r"),
    .tryReserveRanges sampleIdentity "a" [⟨4, 8⟩] (sampleOwner "q"), .releaseReservation 0]

theorem reservations_follow_tokens_releasedInOrder :
    (run plainHash releasedInOrder).outstanding.map HeldToken.id = [1, 2] ∧
      ∀ artifactId, (run plainHash releasedInOrder).coordinator.reservationsOf artifactId =
        ((run plainHash releasedInOrder).heldOn artifactId).map HeldToken.reservation :=
  ⟨by decide +kernel, (reservations_follow_tokens plainHash releasedInOrder (by decide +kernel)).2.1⟩

/-- The second of two tokens of one owner is released first, and another owner asks for the freed ranges. -/
def releasedOutOfOrder : List ReservationAction :=
  [.tryReserveRanges sampleIdentity "a" [⟨0, 4⟩] (sampleOwner "r"),
    .tryReserveRanges sampleIdentity "a" [⟨8, 12⟩] (sampleOwner "r"), .releaseReservation 1,
    .tryReserveRanges sampleIdentity "a" [⟨0, 4⟩] (sampleOwner "q")]

/-- An artifact is forgotten while a token on it is outstanding, and another owner reserves the same ranges. -/
def forgottenWhileHeld : List ReservationAction :=
  [.tryReserveRanges sampleIdentity "a" [⟨0, 4⟩] (sampleOwner "r"), .forgetArtifact sampleIdentity "a",
    .tryReserveRanges sampleIdentity "a" [⟨0, 4⟩] (sampleOwner "q")]

/-- The release of the second token frees the ranges of the first one, which is outstanding, and leaves its own ranges
reserved; in both runs two owners then hold the same bytes. -/
theorem released_frees_other : (run plainHash (releasedOutOfOrder.take 3)).outstanding =
        [⟨0, ⟨artifactIdFor sampleIdentity "a", sampleOwner "r"⟩, [⟨0, 4⟩]⟩] ∧
      (run plainHash (releasedOutOfOrder.take 3)).coordinator.reservationsOf (artifactIdFor sampleIdentity "a") =
        [⟨sampleOwner "r", [⟨8, 12⟩]⟩] ∧
      (∀ actions ∈ [releasedOutOfOrder, forgottenWhileHeld],
        (run plainHash actions).outstanding.map (fun held => (held.token, held.ranges)) =
          [(⟨artifactIdFor sampleIdentity "a", sampleOwner "r"⟩, [⟨0, 4⟩]),
            (⟨artifactIdFor sampleIdentity "a", sampleOwner "q"⟩, [⟨0, 4⟩])]) := by
  decide +kernel

end ReservationHistory

end Chariox
