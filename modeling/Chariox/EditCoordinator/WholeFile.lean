import Chariox.EditCoordinator.NoLostUpdate
import Chariox.TextDocument.Rebase

/-!
# Whole-file writes

A whole-file write is planned as a replacement of the whole base and rebased like any other edit.  A change since the
base conflicts with it unless it only inserts lines before the first or behind the last line of the base; when all
changes are such insertions, their lines stay beside the written content (`inserted_line_stays`).  In every other case
the write is committed as it is, or reports a conflict (`write_committed_or_conflict`).
-/

namespace Chariox

open TextDocument Chariox.Alignment List

namespace TextDocument

variable {base current : Text} {plan : TextEditPlan}

/-- The change only inserts text at the start or at the end of the base. -/
def EndInsertion (base : Text) (delta : ChangeDelta) : Prop :=
  delta.range.start = delta.range.stop ∧ (delta.range.start = 0 ∨ delta.range.start = byteLen base)

instance (base : Text) (delta : ChangeDelta) : Decidable (EndInsertion base delta) := instDecidableAnd

/-- Nothing changed since the base, or some change does more than insert at an end. -/
def WriteSettled (base current : Text) : Prop :=
  base = current ∨ ∃ delta ∈ changeDeltas base current, ¬ EndInsertion base delta

theorem conflicts_iff {delta : ChangeDelta} (hd : delta ∈ changeDeltas base current) :
    deltaConflictsWithRange delta ⟨0, byteLen base⟩ = false ↔ EndInsertion base delta := by
  obtain ⟨pieces, hs, -, hdl⟩ := exists_alignment base current
  rw [← hdl] at hd
  obtain ⟨c, hc, rfl⟩ := mem_map.1 hd
  have hst : c.start ≤ c.stop Char.utf8Size := Nat.le_add_right ..
  have hle : c.stop Char.utf8Size ≤ 0 + byteLen base := hs ▸ stop_le_of_mem_changes Char.utf8Size hc
  constructor
  · intro h
    have hap := apart_of_not_conflict h
    dsimp only at hap
    change c.start = c.stop Char.utf8Size ∧ (c.start = 0 ∨ c.start = byteLen base)
    omega
  · rintro ⟨he, hat⟩
    rw [deltaConflictsWithRange, if_pos (show (deltaOf c).range.isEmpty = true from decide_eq_true he)]
    rcases hat with hat | hat <;> simp [hat]

/-- A write over a changed base conflicts, if some change does more than insert at an end. -/
theorem rebasePlan_conflict (hne : base ≠ current) (he : ∃ delta ∈ changeDeltas base current, ¬ EndInsertion base delta)
    (hr : plan.range = ⟨0, byteLen base⟩) :
    rebasePlan base current plan = .error (.conflict "" .initial .initial [plan.range]
      ((changeDeltas base current).map ChangeDelta.range) "edit overlaps changes made since the base snapshot") := by
  obtain ⟨delta, hd, hend⟩ := he
  rw [← conflicts_iff hd, Bool.not_eq_false, ← hr] at hend
  rw [rebasePlan, if_neg hne]
  rw [if_pos (any_eq_true.2 ⟨delta, hd, hend⟩)]

/-- Insertions before a range shift it, if the shifted range fits. -/
theorem shiftRange_of_insertions {ps st stop : Nat} {ds : List ChangeDelta} (hins : ∀ dt ∈ ds, dt.removedLen = 0)
    (hle : st ≤ stop) (hfit : stop + totalShift ps ds ≤ usizeMax) : ∃ range, shiftRange ps ds st stop = .ok range := by
  induction ds generalizing st stop with
  | nil => exact ⟨_, rfl⟩
  | cons dt ds ih =>
    obtain ⟨hdt, hins⟩ := forall_mem_cons.1 hins
    by_cases hbef : dt.range.stop ≤ ps
    · have hrest : 0 ≤ totalShift ps ds := by
        refine sum_nonneg fun x hx => ?_
        obtain ⟨d, hd, rfl⟩ := mem_map.1 hx
        simp [hins d (mem_filter.1 hd).1]
      have htot : totalShift ps (dt :: ds) = dt.insertedLen + totalShift ps ds := by simp [totalShift, hbef, hdt]
      rw [htot] at hfit
      have hshift : ∀ n ≤ stop, shiftOffset n ((dt.insertedLen : Int) - dt.removedLen) = .ok (n + dt.insertedLen) := by
        intro n hn
        have hn' : n + dt.insertedLen ≤ usizeMax := by omega
        simp [shiftOffset, hdt, hn']
      obtain ⟨range, hr⟩ := ih hins (Nat.add_le_add_right hle dt.insertedLen) (by push_cast; omega)
      refine ⟨range, ?_⟩
      rw [shiftRange, if_pos hbef]
      dsimp only
      rw [hshift st hle, hshift stop le_rfl]
      exact hr
    · have htot : totalShift ps (dt :: ds) = totalShift ps ds := by simp [totalShift, hbef]
      rw [htot] at hfit
      rw [shiftRange, if_neg hbef]
      exact ih hins hle hfit

/-- Over insertions at the ends a write is applied between them. -/
theorem rebasePlan_endInsertions (hne : base ≠ current)
    (he : ∀ delta ∈ changeDeltas base current, EndInsertion base delta) (hfit : byteLen current ≤ usizeMax)
    (written : Text) : ∃ front back rebased, front ++ back ≠ [] ∧
      rebasePlan base current ⟨⟨0, byteLen base⟩, base, written⟩ = .ok rebased ∧
      applyPlan current rebased = .ok (front ++ written ++ back) := by
  have hcf : ∀ dt ∈ changeDeltas base current, deltaConflictsWithRange dt ⟨0, byteLen base⟩ = false :=
    fun dt hd => (conflicts_iff hd).2 (he dt hd)
  have hr : (⟨0, byteLen base⟩ : TextRange) = ⟨byteLen [], byteLen [] + byteLen base⟩ := by simp
  obtain ⟨before, after, -, -, ht, hkept, htot⟩ :=
    @exists_kept base current ⟨⟨0, byteLen base⟩, base, written⟩ [] [] (by simp) hr hcf
  have hins : ∀ dt ∈ changeDeltas base current, dt.removedLen = 0 := by
    intro dt hd
    have hemp := (he dt hd).1
    rw [← hkept] at hd
    obtain ⟨c, -, rfl⟩ := mem_map.1 hd
    change c.start = c.start + byteLen c.old at hemp
    exact Nat.left_eq_add.1 hemp
  have hsize : byteLen (target before) + (byteLen base + byteLen (target after)) = byteLen current := by
    simp [← ht, target]
  have hzero : byteLen [] = 0 := rfl
  obtain ⟨range, hs⟩ := shiftRange_of_insertions hins (Nat.zero_le (byteLen base))
    (show (byteLen base : Int) + totalShift 0 (changeDeltas base current) ≤ usizeMax by dsimp only at htot; omega)
  refine ⟨target before, target after, ⟨range, base, written⟩, fun hnil => hne ?_, ?_, ?_⟩
  · obtain ⟨hb, ha⟩ := append_eq_nil_iff.1 hnil
    simpa [target, hb, ha] using ht
  · have hany : ¬ (changeDeltas base current).any (fun dt => deltaConflictsWithRange dt ⟨0, byteLen base⟩) = true := by
      simpa using hcf
    rw [rebasePlan, if_neg hne]
    rw [if_neg hany, hs]
    rfl
  · rw [@applyPlan_rebased base current ⟨⟨0, byteLen base⟩, base, written⟩ ⟨range, base, written⟩ before after [] hr hs
      rfl rfl ht htot]
    simp [target]

end TextDocument

namespace ArtifactEditCoordinator

section

variable {c : Coordinator} {request : ArtifactWriteRequest} {tracked : TrackedArtifact}
  {base : ArtifactVersion × Text} {current : Text}

/-- The edit of the tracked text is planned on `base` while the text is `current`. -/
def PlannedOn (c : Coordinator) (request : ArtifactWriteRequest) (tracked : TrackedArtifact)
    (base : ArtifactVersion × Text) (current : Text) : Prop :=
  tracked.content = .text current ∧ ∃ snapshot, textBase tracked current snapshot = .ok base ∧
    c.intentSnapshot (artifactIdFor request.workspaceIdentity request.intent.path) request.intent = .ok snapshot

variable {edit : PreparedArtifactEdit}

theorem plannedOn_of_ok {id : String} {ct : ArtifactContent}
    (hid : id = artifactIdFor request.workspaceIdentity request.intent.path)
    (hw : request.intent.operation = .writeArtifact ct) (h : c.applyTextEdit id tracked request = .ok edit) :
    ∃ base current written, PlannedOn c request tracked base current ∧ ct = .text written := by
  unfold applyTextEdit at h
  split at h
  · cases h
  rename_i current hc
  obtain ⟨snapshot, hs, h⟩ := of_bind_ok h
  obtain ⟨base, hb, h⟩ := of_bind_ok h
  obtain ⟨plan, hp, -⟩ := of_bind_ok h
  have hcont : tracked.content = .text current := by
    cases htext : tracked.content with
    | text =>
      rw [htext] at hc
      cases hc
      rfl
    | bytes =>
      rw [htext] at hc
      cases hc
  cases ct with
  | text written => exact ⟨base, current, written, ⟨hcont, snapshot, hb, hid ▸ hs⟩, rfl⟩
  | bytes =>
    rw [hw] at hp
    cases hp

/-- The write is prepared as it is or is a conflict; over insertions at the ends it is prepared between them. -/
theorem PlannedOn.applyTextEdit {written : Text} (h : PlannedOn c request tracked base current)
    (hw : request.intent.operation = .writeArtifact (.text written)) {id : String}
    (hid : id = artifactIdFor request.workspaceIdentity request.intent.path) :
    (base.2 = current ∧ ∃ edit, c.applyTextEdit id tracked request = .ok edit ∧ edit.content = .text written) ∨
      (base.2 ≠ current ∧ WriteSettled base.2 current ∧ c.applyTextEdit id tracked request =
        .error (textConflictError tracked base.1 current base.2 ⟨⟨0, byteLen base.2⟩, base.2, written⟩)) ∨
      (base.2 ≠ current ∧ ¬ WriteSettled base.2 current ∧ (byteLen current ≤ usizeMax → ∃ edit front back,
        c.applyTextEdit id tracked request = .ok edit ∧ front ++ back ≠ [] ∧
          edit.content = .text (front ++ written ++ back))) := by
  obtain ⟨hc, snapshot, hb, hs⟩ := h
  unfold ArtifactEditCoordinator.applyTextEdit
  simp only [hc, ArtifactContent.asText, hid, hs, hb, hw, planOperation, bind, Except.bind]
  by_cases hsame : base.2 = current
  · have hrebase : rebaseOver tracked base.1 current base.2 ⟨⟨0, byteLen base.2⟩, base.2, written⟩ =
        .ok ⟨⟨0, byteLen base.2⟩, base.2, written⟩ := by
      rw [rebaseOver, rebasePlan, if_pos hsame]
    have happ : applyPlan current ⟨⟨0, byteLen base.2⟩, base.2, written⟩ = .ok written := by
      rw [← hsame]
      simpa using @applyPlan_of_validOn ⟨⟨0, byteLen base.2⟩, base.2, written⟩ [] [] (by simp)
    rw [hrebase]
    simp only [happ]
    exact .inl ⟨hsame, _, rfl, rfl⟩
  right
  by_cases hset : ∃ delta ∈ changeDeltas base.2 current, ¬ EndInsertion base.2 delta
  · rw [rebaseOver, rebasePlan_conflict hsame hset rfl]
    exact .inl ⟨hsame, .inr hset, rfl⟩
  · refine .inr ⟨hsame, not_or.2 ⟨hsame, hset⟩, fun hfit => ?_⟩
    push Not at hset
    obtain ⟨front, back, rebased, hnil, hr, ha⟩ := rebasePlan_endInsertions hsame hset hfit written
    rw [rebaseOver, hr]
    simp only [ha]
    exact ⟨_, front, back, rfl, hnil, rfl⟩

/-- An edit that was prepared just now is committed. -/
theorem commitPreparedEdit_prepared (H : ContentHash) (h : c.prepareEdit request = .ok edit) :
    (c.commitPreparedEdit H edit).2.isApplied = true := by
  obtain ⟨trk, ht, hon⟩ := CoordinatorHistory.preparedOn_of_prepareEdit h
  unfold commitPreparedEdit
  rw [ht]
  dsimp only
  rw [if_neg (not_not.2 hon.previous.symm)]
  cases edit.warning <;> rfl

theorem currentContent_committed {H : ContentHash} {later : Coordinator}
    (h : (later.commitPreparedEdit H edit).2.isApplied = true) :
    (later.commitPreparedEdit H edit).1.currentContent edit.artifactId = some edit.content := by
  rcases CoordinatorHistory.commitPreparedEdit_cases H later edit with ⟨-, hno⟩ | ⟨old, -, -, har⟩
  · rw [hno] at h
    cases h
  · rw [currentContent, har, OrdMap.get_insert_self]
    rfl

end

/-- A whole-file write of a text: every content that is committed for it is the written one, and likewise every change
since its base makes it a conflict, exactly when nothing changed or some change does more than insert at an end of the
base. -/
theorem write_committed_or_conflict (H : ContentHash) (c : Coordinator) (request : ArtifactWriteRequest)
    (tracked : TrackedArtifact) (content : ArtifactContent) (hwrite : request.intent.operation = .writeArtifact content)
    (htracked : c.artifacts.get (artifactIdFor request.workspaceIdentity request.intent.path) = some tracked)
    (hdomain : tracked.domain = .textDocument)
    (hfits : ∀ current, tracked.content = .text current → byteLen current ≤ usizeMax) :
    let settled := ∀ base current written, PlannedOn c request tracked base current → content = .text written →
      WriteSettled base.2 current
    ((∀ edit, c.prepareEdit request = .ok edit → ∀ later : Coordinator,
      (later.commitPreparedEdit H edit).2.isApplied = true →
        (later.commitPreparedEdit H edit).1.currentContent edit.artifactId = some content) ↔ settled) ∧
    ((∀ base current written, PlannedOn c request tracked base current → content = .text written →
      base.2 ≠ current → ∃ requested changed message, c.prepareEdit request =
        .error (.conflict tracked.path base.1 tracked.version requested changed message)) ↔ settled) := by
  intro settled
  have hprep : c.prepareEdit request =
      c.applyTextEdit (artifactIdFor request.workspaceIdentity request.intent.path) tracked request := by
    unfold prepareEdit
    simp only [htracked, hdomain]
  refine ⟨⟨?_, ?_⟩, ?_, ?_⟩
  · rintro hall base current written hp rfl
    by_contra hset
    rcases hp.applyTextEdit hwrite rfl with ⟨hs, -⟩ | ⟨-, hs, -⟩ | ⟨-, -, hmix⟩
    · exact hset (.inl hs)
    · exact hset hs
    · obtain ⟨edit, front, back, hok, hnil, hed⟩ := hmix (hfits _ hp.1)
      rw [← hprep] at hok
      have happlied := commitPreparedEdit_prepared H hok
      have heq := (currentContent_committed happlied).symm.trans (hall edit hok c happlied)
      rw [hed] at heq
      have hlen := congrArg length (ArtifactContent.text.inj (Option.some.inj heq))
      have hpos := length_pos_iff.2 hnil
      simp only [length_append] at hlen hpos
      omega
  · intro hset edit hok later ha
    rw [hprep] at hok
    obtain ⟨base, current, written, hp, rfl⟩ := plannedOn_of_ok rfl hwrite hok
    rw [currentContent_committed ha]
    rcases hp.applyTextEdit hwrite rfl with ⟨-, edit', hok', hed⟩ | ⟨-, -, he⟩ | ⟨-, hns, -⟩
    · cases hok.symm.trans hok'
      rw [hed]
    · cases hok.symm.trans he
    · exact absurd (hset base current written hp rfl) hns
  · rintro hall base current written hp rfl
    by_contra hset
    rcases hp.applyTextEdit hwrite rfl with ⟨hs, -⟩ | ⟨-, hs, -⟩ | ⟨hne, -, hmix⟩
    · exact hset (.inl hs)
    · exact hset hs
    · obtain ⟨edit, -, -, hok, -⟩ := hmix (hfits _ hp.1)
      obtain ⟨_, _, _, he⟩ := hall base current written hp rfl hne
      cases (hprep.trans hok).symm.trans he
  · rintro hset base current written hp rfl hne
    rcases hp.applyTextEdit hwrite rfl with ⟨hs, -⟩ | ⟨-, -, he⟩ | ⟨-, hns, -⟩
    · exact absurd hs hne
    · exact ⟨_, _, _, hprep.trans he⟩
    · exact absurd (hset base current written hp rfl) hns

open CoordinatorHistory

/-- Write the notes over the text that was read first. -/
def writeNotes (text : String) : ArtifactWriteRequest where
  workspaceIdentity := sharedWorkspace
  intent := {
    path := "a", snapshotId := some "snap:repo_id:r::a:1:1", operation := .writeArtifact (.text text.toList) }

/-- One line was inserted at the start and another one changed: a conflict. -/
theorem write_committed_or_conflict_lines :
    let c := (CoordinatorHistory.new.run plainHash [readNotes "a\nb\n", readNotes "x\na\nc\n"]).coordinator
    ∃ requested changed message, c.prepareEdit (writeNotes "c\n") = .error (.conflict "a" 1 2 requested changed message) := by
  refine (write_committed_or_conflict plainHash
    (CoordinatorHistory.new.run plainHash [readNotes "a\nb\n", readNotes "x\na\nc\n"]).coordinator (writeNotes "c\n")
    ⟨"a", .textDocument, 2, .text "x\na\nc\n".toList, plainHash.hashContent (.text "x\na\nc\n".toList)⟩
    (.text "c\n".toList) rfl (by decide +kernel) rfl ?_).2.2 ?_ (1, "a\nb\n".toList) "x\na\nc\n".toList _
    ⟨rfl, _, rfl, rfl⟩ rfl (by decide)
  · rintro current ⟨⟩
    decide +kernel
  · rintro base cur _ ⟨hc, snapshot, hbase, hsnap⟩ -
    cases hc
    cases hsnap
    cases hbase
    exact .inr ⟨⟨⟨2, 4⟩, 2, 2⟩, by decide +kernel, by decide +kernel⟩

/-- A line was added behind the last one; it stays behind the written content. -/
theorem inserted_line_stays :
    let c := (CoordinatorHistory.new.run plainHash [readNotes "a\n", readNotes "a\nb\n"]).coordinator
    (c.applyEdit plainHash (writeNotes "c\n")).2.isApplied = true ∧
      (c.applyEdit plainHash (writeNotes "c\n")).1.currentContent "repo_id:r::a" = some (.text "c\nb\n".toList) := by
  decide +kernel

end ArtifactEditCoordinator

end Chariox
