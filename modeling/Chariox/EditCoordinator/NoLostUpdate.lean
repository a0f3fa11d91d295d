import Chariox.EditCoordinator.Model

/-!
# No lost update

A prepared edit is committed when the artifact still has the version it was prepared on.  While the artifact stays
tracked its version rises with every change of its content, so equal versions mean equal contents
(`committed_on_prepared_content`).  An artifact that is forgotten and read again starts over at the first version: an
edit prepared before can then be committed over a content it was not prepared on (`forgotten_update`).
-/

namespace Chariox

open TextDocument ArtifactEditCoordinator List

/-- A prepared edit, the content it was prepared against, and how often its artifact had been forgotten by then. -/
structure Preparation where
  edit : PreparedArtifactEdit
  against : ArtifactContent
  forgets : Nat
  deriving DecidableEq

/-- The coordinator with the edits that its users prepared, and how often each artifact was forgotten. -/
structure CoordinatorHistory where
  coordinator : ArtifactEditCoordinator
  prepared : List Preparation
  forgets : String → Nat

/-- What the owners of edits do, in any order; an edit is committed by its place among the prepared ones. -/
inductive CoordinatorOp
  | readArtifact (request : ArtifactReadRequest)
  | prepareEdit (request : ArtifactWriteRequest)
  | forgetArtifact (workspaceIdentity : WorkspaceIdentity) (path : String)
  | tryReserveRanges (workspaceIdentity : WorkspaceIdentity) (path : String) (ranges : List TextRange)
      (owner : ArtifactReservationOwner)
  | releaseReservation (token : ArtifactReservationToken)
  | commitPreparedEdit (index : Nat)

namespace CoordinatorHistory

def new : CoordinatorHistory where
  coordinator := .new
  prepared := []
  forgets := fun _ => 0

/-- Remember a prepared edit together with the content that is tracked now. -/
def remember (h : CoordinatorHistory) (edit : PreparedArtifactEdit) : CoordinatorHistory :=
  match h.coordinator.currentContent edit.artifactId with
  | none => h
  | some content =>
    { h with prepared := h.prepared ++ [{ edit, against := content, forgets := h.forgets edit.artifactId }] }

def apply (H : ContentHash) (h : CoordinatorHistory) : CoordinatorOp → CoordinatorHistory
  | .readArtifact request => { h with coordinator := (h.coordinator.readArtifact H request).1 }
  | .prepareEdit request =>
    match h.coordinator.prepareEdit request with
    | .ok edit => h.remember edit
    | .error _ => h
  | .forgetArtifact identity path =>
    { h with
      coordinator := h.coordinator.forgetArtifact identity path
      forgets := fun id => if id = artifactIdFor identity path then h.forgets id + 1 else h.forgets id }
  | .tryReserveRanges identity path ranges owner =>
    { h with coordinator := (h.coordinator.tryReserveRanges identity path ranges owner).1 }
  | .releaseReservation token => { h with coordinator := h.coordinator.releaseReservation token }
  | .commitPreparedEdit index =>
    match h.prepared[index]? with
    | none => h
    | some p => { h with coordinator := (h.coordinator.commitPreparedEdit H p.edit).1 }

def run (H : ContentHash) (h : CoordinatorHistory) (ops : List CoordinatorOp) : CoordinatorHistory :=
  ops.foldl (apply H) h

/-- No tracked artifact has used up its version numbers. -/
def VersionsLeft (h : CoordinatorHistory) : Prop :=
  ∀ tracked ∈ h.coordinator.artifacts.values, tracked.version < 2 ^ 64 - 1

instance (h : CoordinatorHistory) : Decidable h.VersionsLeft :=
  inferInstanceAs (Decidable (∀ tracked ∈ h.coordinator.artifacts.values, tracked.version < 2 ^ 64 - 1))

/-- A content that is read under the digest of the tracked one is the tracked one. -/
def NoCollision (H : ContentHash) (h : CoordinatorHistory) : CoordinatorOp → Prop
  | .readArtifact request =>
    ∀ tracked ∈ h.coordinator.artifacts.get (artifactIdFor request.workspaceIdentity request.path),
      H.hashContent tracked.content = H.hashContent request.content → tracked.content = request.content
  | _ => True

variable {H : ContentHash} {h : CoordinatorHistory}

/-! ### What an edit is prepared on -/

/-- A prepared edit goes from the version of the tracked artifact to the next one. -/
structure PreparedOn (edit : PreparedArtifactEdit) (tracked : TrackedArtifact) : Prop where
  previous : edit.previousVersion = tracked.version
  next : edit.newVersion = nextVersion tracked.version

variable {c : ArtifactEditCoordinator} {request : ArtifactWriteRequest} {edit : PreparedArtifactEdit}
variable {tracked : TrackedArtifact} {id : String}

theorem preparedOn_of_applyWholeArtifactEdit
    (h : c.applyWholeArtifactEdit id tracked request = .ok edit) : edit.artifactId = id ∧ PreparedOn edit tracked := by
  unfold applyWholeArtifactEdit at h
  cases hsnap : c.intentSnapshot id request.intent with
  | error =>
    rw [hsnap] at h
    cases h
  | ok =>
    rw [hsnap] at h
    simp only [bind, Except.bind] at h
    split at h
    · cases h
    split at h
    · cases h
    split at h
    · split at h <;> cases h
      exact ⟨rfl, rfl, rfl⟩
    · cases h

theorem preparedOn_of_applyTextEdit
    (h : c.applyTextEdit id tracked request = .ok edit) : edit.artifactId = id ∧ PreparedOn edit tracked := by
  unfold applyTextEdit at h
  split at h
  · cases h
  simp only [bind, Except.bind] at h
  split at h
  · cases h
  split at h
  · cases h
  split at h
  · cases h
  split at h
  · cases h
  split at h <;> cases h
  exact ⟨rfl, rfl, rfl⟩

theorem preparedOn_of_prepareEdit (h : c.prepareEdit request = .ok edit) :
    ∃ tracked, c.artifacts.get edit.artifactId = some tracked ∧ PreparedOn edit tracked := by
  unfold prepareEdit at h
  dsimp only at h
  split at h
  · cases h
  rename_i tracked ht
  have hedit : edit.artifactId = artifactIdFor request.workspaceIdentity request.intent.path ∧
      PreparedOn edit tracked := by
    split at h
    · exact preparedOn_of_applyTextEdit h
    · exact preparedOn_of_applyWholeArtifactEdit h
    · exact preparedOn_of_applyWholeArtifactEdit h
  exact ⟨tracked, by rw [hedit.1]; exact ht, hedit.2⟩

/-! ### The invariant -/

/-- A prepared edit whose artifact was not forgotten since: the artifact is tracked, has not gone back behind the version
of the edit, and at that version has the content the edit was prepared against. -/
def Preparation.Valid (p : Preparation) (h : CoordinatorHistory) : Prop :=
  p.forgets = h.forgets p.edit.artifactId →
    ∃ tracked, h.coordinator.artifacts.get p.edit.artifactId = some tracked ∧
      p.edit.previousVersion ≤ tracked.version ∧
      (tracked.version = p.edit.previousVersion → tracked.content = p.against)

structure Consistent (H : ContentHash) (h : CoordinatorHistory) : Prop where
  hashed : ∀ id tracked, h.coordinator.artifacts.get id = some tracked →
    tracked.contentHash = H.hashContent tracked.content
  next : ∀ p ∈ h.prepared, p.edit.newVersion = nextVersion p.edit.previousVersion
  past : ∀ p ∈ h.prepared, p.forgets ≤ h.forgets p.edit.artifactId
  valid : ∀ p ∈ h.prepared, Preparation.Valid p h

theorem new_consistent (H : ContentHash) : Consistent H new where
  hashed := nofun
  next := nofun
  past := nofun
  valid := nofun

theorem nextVersion_eq {ver : Nat} (h : ver < 2 ^ 64 - 1) : nextVersion ver = ver + 1 := by
  apply Nat.mod_eq_of_lt
  omega

/-- An artifact gets a new content under the next version, or keeps its version and its content. -/
theorem Consistent.track (hc : Consistent H h) (ha : c.artifacts = h.coordinator.artifacts.insert id tracked)
    (hh : tracked.contentHash = H.hashContent tracked.content) (hr : ∀ old, h.coordinator.artifacts.get id = some old →
      old.version < tracked.version ∨ (tracked.version = old.version ∧ tracked.content = old.content)) :
    Consistent H { h with coordinator := c } := by
  refine ⟨?_, hc.next, hc.past, ?_⟩
  · rw [ha]
    exact OrdMap.forall_insert hh hc.hashed
  · intro p hp hf
    obtain ⟨old, ho, hle, hco⟩ := hc.valid p hp hf
    rw [ha, OrdMap.get_insert]
    by_cases hid : p.edit.artifactId = id
    · rw [hid] at ho
      simp only [hid]
      refine ⟨tracked, rfl, ?_, ?_⟩
      · rcases hr old ho with hlt | ⟨heq, -⟩
        · exact hle.trans hlt.le
        · exact hle.trans heq.ge
      intro hs
      rcases hr old ho with hlt | ⟨heq, hk⟩
      · exact absurd hs (hle.trans_lt hlt).ne'
      · rw [hk]
        exact hco (heq.symm.trans hs)
    · simp only [hid]
      exact ⟨old, ho, hle, hco⟩

theorem Consistent.readArtifact (hc : Consistent H h) (hl : h.VersionsLeft) {req : ArtifactReadRequest}
    (hn : h.NoCollision H (.readArtifact req)) :
    Consistent H { h with coordinator := (h.coordinator.readArtifact H req).1 } := by
  refine hc.track rfl rfl ?_
  intro old ho
  unfold readVersion
  rw [ho]
  dsimp only
  split
  · -- the digests agree, so the contents do
    rename_i hs
    rw [hc.hashed _ old ho] at hs
    exact .inr ⟨rfl, (hn old ho hs).symm⟩
  · left
    rw [nextVersion_eq (hl old (OrdMap.mem_values.2 ⟨_, ho⟩))]
    exact Nat.lt_succ_self _

theorem commitPreparedEdit_cases (H : ContentHash) (c : ArtifactEditCoordinator) (edit : PreparedArtifactEdit) :
    ((c.commitPreparedEdit H edit).1 = c ∧ (c.commitPreparedEdit H edit).2.isApplied = false) ∨
      ∃ trk, c.artifacts.get edit.artifactId = some trk ∧ trk.version = edit.previousVersion ∧
        (c.commitPreparedEdit H edit).1.artifacts = c.artifacts.insert edit.artifactId {
          path := edit.path, domain := edit.domain, version := edit.newVersion, content := edit.content,
          contentHash := H.hashContent edit.content } := by
  unfold commitPreparedEdit
  split
  · exact .inl ⟨rfl, rfl⟩
  rename_i trk ht
  split
  · exact .inl ⟨rfl, rfl⟩
  · rename_i hv
    exact .inr ⟨trk, ht, not_not.1 hv, rfl⟩

theorem Consistent.commit (hc : Consistent H h) (hl : h.VersionsLeft) {p : Preparation} (hp : p ∈ h.prepared) :
    Consistent H { h with coordinator := (h.coordinator.commitPreparedEdit H p.edit).1 } := by
  rcases commitPreparedEdit_cases H h.coordinator p.edit with ⟨heq, -⟩ | ⟨trk, ht, hv, ha⟩
  · rw [heq]
    exact hc
  refine hc.track ha rfl ?_
  intro old ho
  rw [ht] at ho
  cases ho
  left
  rw [hc.next p hp, ← hv, nextVersion_eq (hl trk (OrdMap.mem_values.2 ⟨_, ht⟩))]
  exact Nat.lt_succ_self _

theorem Consistent.remember (hc : Consistent H h)
    (he : h.coordinator.prepareEdit request = .ok edit) : Consistent H (h.remember edit) := by
  obtain ⟨trk, ht, hon⟩ := preparedOn_of_prepareEdit he
  have hreme : h.remember edit = { h with prepared := h.prepared ++
      [{ edit, against := trk.content, forgets := h.forgets edit.artifactId }] } := by
    unfold CoordinatorHistory.remember currentContent
    rw [ht]
    rfl
  rw [hreme]
  refine ⟨hc.hashed, ?_, ?_, ?_⟩
  · refine forall_mem_append.2 ⟨hc.next, forall_mem_singleton.2 ?_⟩
    exact hon.next.trans (congrArg nextVersion hon.previous.symm)
  · exact forall_mem_append.2 ⟨hc.past, forall_mem_singleton.2 (le_refl _)⟩
  · refine forall_mem_append.2 ⟨hc.valid, forall_mem_singleton.2 ?_⟩
    exact fun _ => ⟨trk, ht, hon.previous.le, fun _ => rfl⟩

theorem Consistent.forget (hc : Consistent H h) (ident : WorkspaceIdentity) (path : String) :
    Consistent H (h.apply H (.forgetArtifact ident path)) := by
  refine ⟨fun i t ht => hc.hashed i t (OrdMap.of_get_remove ht).2, hc.next, ?_, ?_⟩
  · intro p hp
    have hle := hc.past p hp
    show p.forgets ≤ if _ then _ else _
    split
    · exact Nat.le_succ_of_le hle
    · exact hle
  · intro p hp hf
    change p.forgets = (if p.edit.artifactId = artifactIdFor ident path then h.forgets p.edit.artifactId + 1
      else h.forgets p.edit.artifactId) at hf
    split at hf
    · have := hc.past p hp
      omega
    rename_i hid
    obtain ⟨trk, htr, hr⟩ := hc.valid p hp hf
    exact ⟨trk, (OrdMap.get_remove_of_ne _ hid).trans htr, hr⟩

theorem Consistent.frame (hc : Consistent H h)
    (ha : c.artifacts = h.coordinator.artifacts) : Consistent H { h with coordinator := c } := by
  refine ⟨?_, hc.next, hc.past, ?_⟩
  · rw [ha]
    exact hc.hashed
  intro p hp hf
  rw [ha]
  exact hc.valid p hp hf

theorem Consistent.apply (hc : Consistent H h) (hl : h.VersionsLeft) {op : CoordinatorOp} (hn : h.NoCollision H op) :
    Consistent H (h.apply H op) := by
  cases op with
  | readArtifact => exact hc.readArtifact hl hn
  | prepareEdit =>
    unfold CoordinatorHistory.apply
    dsimp only
    split
    · rename_i he
      exact hc.remember he
    · exact hc
  | forgetArtifact ident path => exact hc.forget ident path
  | tryReserveRanges =>
    refine hc.frame ?_
    unfold tryReserveRanges
    dsimp only
    split <;> rfl
  | releaseReservation =>
    refine hc.frame ?_
    unfold releaseReservation
    split <;> rfl
  | commitPreparedEdit =>
    unfold CoordinatorHistory.apply
    dsimp only
    split
    · exact hc
    · rename_i hp
      exact hc.commit hl (mem_of_getElem? hp)

/-! ### Runs -/

/-- Before every operation of the run version numbers are left, and no content that is read collides with the one that
is tracked. -/
def Undisturbed (H : ContentHash) (h : CoordinatorHistory) : List CoordinatorOp → Prop
  | [] => True
  | op :: ops => h.VersionsLeft ∧ h.NoCollision H op ∧ Undisturbed H (h.apply H op) ops

theorem Consistent.run (hc : Consistent H h) (ops : List CoordinatorOp) (hl : Undisturbed H h ops) :
    Consistent H (h.run H ops) := by
  induction ops generalizing h with
  | nil => exact hc
  | cons op ops ih => exact ih (hc.apply hl.1 hl.2.1) hl.2.2

/-- In every run: an edit whose artifact was not forgotten since the preparation is committed only over the content it
was prepared against. -/
theorem committed_on_prepared_content (H : ContentHash) (ops : List CoordinatorOp)
    (hrun : Undisturbed H new ops) (index : Nat) (p : Preparation) (hp : (new.run H ops).prepared[index]? = some p)
    (hkept : p.forgets = (new.run H ops).forgets p.edit.artifactId)
    (happlied : ((new.run H ops).coordinator.commitPreparedEdit H p.edit).2.isApplied = true) :
    (new.run H ops).coordinator.currentContent p.edit.artifactId = some p.against := by
  have hc := (new_consistent H).run ops hrun
  rcases commitPreparedEdit_cases H (new.run H ops).coordinator p.edit with ⟨-, hno⟩ | ⟨trk, ht, hv, -⟩
  · rw [hno] at happlied
    cases happlied
  obtain ⟨trk', ht', -, hco⟩ := hc.valid p (mem_of_getElem? hp) hkept
  rw [ht] at ht'
  cases ht'
  unfold currentContent
  rw [ht, Option.map_some, hco hv]

/-! ### A forgotten artifact -/

/-- The content itself as its digest. -/
def plainHash : ContentHash where
  hashContent
    | .text text => String.ofList ('t' :: text)
    | .bytes bytes => String.ofList ('b' :: bytes.map (fun byte => Char.ofNat byte.toNat))

def sharedWorkspace : WorkspaceIdentity where
  vcsProvider := none
  repoId := some "r"
  repoUrl := none
  branch := none
  headCommit := none
  worktreeRootFingerprint := "w"

def readNotes (text : String) : CoordinatorOp :=
  .readArtifact {
    workspaceIdentity := sharedWorkspace, path := "a", domain := .textDocument, content := .text text.toList }

def editNotes (oldText newText : String) : CoordinatorOp :=
  .prepareEdit {
    workspaceIdentity := sharedWorkspace
    intent := { path := "a", snapshotId := none, operation := .replaceText oldText.toList newText.toList } }

def preparedNotes (content : String) : PreparedArtifactEdit where
  artifactId := "repo_id:r::a"
  path := "a"
  domain := .textDocument
  previousVersion := 1
  newVersion := 2
  content := .text content.toList
  warning := none

/-- The content is read twice; two owners prepare an edit of it, and the second commits first. -/
theorem committed_on_prepared_content_twoOwners :
    let h := new.run plainHash [readNotes "ab", readNotes "ab", editNotes "b" "c", editNotes "a" "d"]
    (h.coordinator.commitPreparedEdit plainHash (preparedNotes "db")).2.isApplied = true ∧
      h.coordinator.currentContent "repo_id:r::a" = some (.text "ab".toList) := by
  have hrun : Undisturbed plainHash new [readNotes "ab", readNotes "ab", editNotes "b" "c", editNotes "a" "d"] :=
    ⟨by decide, nofun, by decide, fun tracked ht _ => by cases ht; rfl, by decide, trivial, by decide, trivial, trivial⟩
  exact ⟨by decide, committed_on_prepared_content plainHash _ hrun 1 ⟨preparedNotes "db", .text "ab".toList, 0⟩ (by decide)
    (by decide) (by decide)⟩

/-- The artifact is forgotten after the edit was prepared and read again with another content, under the first version. -/
theorem forgotten_update :
    let h := new.run plainHash
      [readNotes "ab", editNotes "b" "c", .forgetArtifact sharedWorkspace "a", readNotes "xb"]
    h.prepared.map Preparation.edit = [preparedNotes "ac"] ∧
      h.prepared.map Preparation.against = [.text "ab".toList] ∧
      h.coordinator.currentContent "repo_id:r::a" = some (.text "xb".toList) ∧
      (h.coordinator.commitPreparedEdit plainHash (preparedNotes "ac")).2 = .applied 2 := by
  decide

end CoordinatorHistory

end Chariox
