import Chariox.AppOutbox.Model

/-!
# An occurrence is accepted at most once

Receipts are deleted, but only when their occurrence lies before the replay floor of the installation, and floors never
go down.  An occurrence id holds the time of its occurrence, so the identity of a deleted receipt stays before the floor
for ever and is refused.
-/

namespace Chariox.AppOutbox

open List

variable {V : Type} {C : OutboxCodec V} {t t' : AppOutbox}

/-! ### Rows and floors -/

/-- The part of a row that no UPDATE changes. -/
structure RowKey where
  sequence : Nat
  identity : OccurrenceIdentity
  receiptId : String
  occurredAtMs : Nat

def keyOf (row : OutboxRow) : RowKey where
  sequence := row.sequence
  identity := row.identity
  receiptId := row.receiptId
  occurredAtMs := row.occurredAtMs

def keys (t : AppOutbox) : List RowKey := t.rows.map keyOf

variable {ps : List (Prepared V)} {f : OutboxRow → OutboxRow} {occurrences : List (Occurrence V)} {r : Receipt}
variable {p : OutboxRow → Bool} {row : OutboxRow} {id owner installation : String} {revision : Nat}

theorem keys_updateRows (hf : ∀ row, keyOf (f row) = keyOf row) : (t.updateRows p f).keys = t.keys := by
  simp only [keys, updateRows, map_map]
  apply map_congr_left
  intro row _
  simp only [Function.comp_apply]
  split
  · exact hf row
  · rfl

/-- No floor of the first state is higher in it than in the second. -/
def FloorsRise (t t' : AppOutbox) : Prop :=
  ∀ owner installation floor, t.floor owner installation = some floor →
    ∃ floor', t'.floor owner installation = some floor' ∧ floor ≤ floor'

theorem FloorsRise.refl (t : AppOutbox) : FloorsRise t t := fun _ _ fl h => ⟨fl, h, le_refl fl⟩

theorem FloorsRise.of_eq (h : t'.floors = t.floors) : FloorsRise t t' := by
  intro ow inst fl hf
  refine ⟨fl, ?_, le_refl fl⟩
  rw [AppOutbox.floor, h]
  exact hf

/-- What `advance_floor` does: it sets one floor, to no less than it was. -/
theorem advanceFloor_spec {now floor : Nat} (h : t.advanceFloor owner installation now = .ok (t', floor)) :
    t' = { t with floors := t.floors.insert (toLex (owner, installation)) floor } ∧ FloorsRise t t' ∧
      t'.floor owner installation = some floor := by
  obtain ⟨now', -, h⟩ := of_bind_ok h
  obtain ⟨ht, hf⟩ := Prod.mk.inj (Except.ok.inj h)
  subst ht
  rw [hf]
  refine ⟨rfl, ?_, ?_⟩
  · intro o i minimum hm
    show ∃ fl', OrdMap.get (OrdMap.insert _ _ _) _ = some fl' ∧ _
    rw [OrdMap.get_insert]
    by_cases hkey : toLex (o, i) = toLex (owner, installation)
    · obtain ⟨rfl, rfl⟩ := Prod.mk.inj (toLex.injective hkey)
      rw [if_pos hkey]
      rw [hm] at hf
      exact ⟨floor, rfl, hf ▸ le_max_left _ _⟩
    · rw [if_neg hkey]
      exact ⟨minimum, hm, le_refl minimum⟩
  · exact OrdMap.get_insert_self ..

/-! ### The time in an occurrence id -/

theorem validate_timestamp {time : Nat} (h : validate id time = .ok ()) :
    ∃ first ha, splitChar '.' id.toList = [first, (toString time).toList, ha] := by
  unfold validate at h
  split at h
  · cases h
  split at h
  · rename_i first ts ha hs
    split at h
    · cases h
    rename_i hno
    simp only [Bool.or_eq_true, decide_eq_true_eq, not_or, not_not] at hno
    exact ⟨first, ha, by rw [hs, hno.1.1.2]⟩
  · cases h

theorem validate_unique {time time' : Nat} (h : validate id time = .ok ())
    (h' : validate id time' = .ok ()) : time = time' := by
  obtain ⟨first, ha, hs⟩ := validate_timestamp h
  obtain ⟨first', ha', hs'⟩ := validate_timestamp h'
  rw [hs] at hs'
  have htext : (toString time).toList = (toString time').toList :=
    (cons.inj (cons.inj hs').2).1
  have hstring : "" ++ toString time = "" ++ toString time' := by
    rw [String.toList_inj.1 htext]
  exact numbered_injective hstring

/-! ### The invariant -/

/-- Every time that the occurrence id admits lies before the floor of the installation. -/
def Passed (t : AppOutbox) (identity : OccurrenceIdentity) : Prop :=
  ∃ floor, t.floor identity.ownerId identity.installationId = some floor ∧
    ∀ time, validate identity.occurrenceId time = .ok () → time < floor

theorem Passed.rise {identity : OccurrenceIdentity} (h : t.Passed identity) (hr : FloorsRise t t') :
    t'.Passed identity := by
  obtain ⟨fl, hf, hb⟩ := h
  obtain ⟨fl', hf', hle⟩ := hr _ _ fl hf
  exact ⟨fl', hf', fun time hv => (hb time hv).trans_le hle⟩

/-- The receipts are unique, their occurrence ids valid, and every identity that ever got a receipt still has it or lies
before the floor. -/
structure Sound (t : AppOutbox) (created : List OccurrenceIdentity) : Prop where
  numbered : ∀ key ∈ t.keys, key.sequence ≤ t.lastSequence
  sequences : (t.keys.map RowKey.sequence).Nodup
  receiptIds : (t.keys.map RowKey.receiptId).Nodup
  validated : ∀ key ∈ t.keys, validate key.identity.occurrenceId key.occurredAtMs = .ok ()
  recorded : ∀ key ∈ t.keys, key.identity ∈ created
  covered : ∀ identity ∈ created, identity ∈ t.keys.map RowKey.identity ∨ t.Passed identity
  once : created.Nodup

theorem new_sound : Sound new [] where
  numbered := by simp [keys, new]
  sequences := by simp [keys, new]
  receiptIds := by simp [keys, new]
  validated := by simp [keys, new]
  recorded := by simp [keys, new]
  covered := by simp
  once := nodup_nil

theorem eq_of_nodup_keys {α : Type} {f : RowKey → α} (hnd : (t.keys.map f).Nodup) {other : OutboxRow}
    (hr : row ∈ t.rows) (ho : other ∈ t.rows) (heq : f (keyOf row) = f (keyOf other)) : row = other := by
  rw [keys, map_map] at hnd
  exact inj_on_of_nodup_map hnd hr ho heq

variable {created : List OccurrenceIdentity}

section

variable (h : Sound t created)

include h

theorem Sound.update (hk : t'.keys = t.keys) (hl : t'.lastSequence = t.lastSequence)
    (hr : FloorsRise t t') : Sound t' created where
  numbered := by rw [hk, hl]; exact h.numbered
  sequences := by rw [hk]; exact h.sequences
  receiptIds := by rw [hk]; exact h.receiptIds
  validated := by rw [hk]; exact h.validated
  recorded := by rw [hk]; exact h.recorded
  covered := by
    intro ident hm
    rw [hk]
    exact (h.covered ident hm).imp_right fun hp => hp.rise hr
  once := h.once

theorem Sound.delete {keep : OutboxRow → Bool} (hd : ∀ row ∈ t.rows, keep row = false → ∃ fl,
      t.floor row.identity.ownerId row.identity.installationId = some fl ∧ row.occurredAtMs < fl) :
    Sound { t with rows := t.rows.filter keep } created := by
  have hsub : (keys { t with rows := t.rows.filter keep }).Sublist t.keys := filter_sublist.map keyOf
  refine ⟨?_, ?_, ?_, ?_, ?_, ?_, h.once⟩
  · exact fun key hk => h.numbered key (hsub.subset hk)
  · exact (hsub.map _).nodup h.sequences
  · exact (hsub.map _).nodup h.receiptIds
  · exact fun key hk => h.validated key (hsub.subset hk)
  · exact fun key hk => h.recorded key (hsub.subset hk)
  · intro ident hc
    rcases h.covered ident hc with hr | hp
    · obtain ⟨key, hk, rfl⟩ := mem_map.1 hr
      obtain ⟨row, hm, rfl⟩ := mem_map.1 hk
      by_cases hkeep : keep row = true
      · left
        exact mem_map_of_mem (mem_map_of_mem (mem_filter.2 ⟨hm, hkeep⟩))
      right
      obtain ⟨fl, hf, hlt⟩ := hd row hm (Bool.eq_false_iff.2 hkeep)
      refine ⟨fl, hf, ?_⟩
      intro time hv
      rw [validate_unique hv (h.validated _ hk)]
      exact hlt
    · exact .inr hp

/-- A row is added for an identity that has none and that is not before the floor. -/
theorem Sound.insert (hro : t'.rows = t.rows ++ [row])
    (hs : row.sequence = t.lastSequence + 1) (hl : t'.lastSequence = t.lastSequence + 1)
    (hri : FloorsRise t t') (hv : validate row.identity.occurrenceId row.occurredAtMs = .ok ())
    (hrc : ∀ o ∈ t.rows, o.receiptId ≠ row.receiptId)
    (hi : ∀ o ∈ t.rows, o.identity ≠ row.identity) (hf : ¬ t.Passed row.identity) :
    Sound t' (created ++ [row.identity]) := by
  have hkeys : t'.keys = t.keys ++ [keyOf row] := by
    simp [keys, hro]
  have hk : ∀ key ∈ t'.keys, key ∈ t.keys ∨ key = keyOf row := by
    simp [hkeys]
  have hnd : ∀ {α : Type} (f : RowKey → α), (t.keys.map f).Nodup → f (keyOf row) ∉ t.keys.map f →
      (t'.keys.map f).Nodup := by
    intro α f ho hn
    rw [hkeys, map_append, map_singleton, ← concat_eq_append]
    exact List.Nodup.concat hn ho
  have hnew : row.identity ∉ created := by
    intro hm
    rcases h.covered _ hm with hr | hp
    · obtain ⟨key, hk, heq⟩ := mem_map.1 hr
      obtain ⟨o, hot, rfl⟩ := mem_map.1 hk
      exact hi o hot heq
    · exact hf hp
  refine ⟨?_, ?_, ?_, ?_, ?_, ?_, ?_⟩
  · intro key hm
    rw [hl]
    rcases hk key hm with ho | rfl
    · have := h.numbered key ho
      omega
    · exact hs.le
  · refine hnd _ h.sequences fun hm => ?_
    obtain ⟨key, hk, heq⟩ := mem_map.1 hm
    have hle := h.numbered key hk
    have hnext : key.sequence = t.lastSequence + 1 := heq.trans hs
    omega
  · refine hnd _ h.receiptIds fun hm => ?_
    obtain ⟨key, hk, heq⟩ := mem_map.1 hm
    obtain ⟨o, hot, rfl⟩ := mem_map.1 hk
    exact hrc o hot heq
  · intro key hm
    rcases hk key hm with ho | rfl
    · exact h.validated key ho
    · exact hv
  · intro key hm
    rcases hk key hm with ho | rfl
    · exact mem_append_left _ (h.recorded key ho)
    · exact mem_append_right _ (mem_singleton_self _)
  · intro ident hm
    rw [hkeys, map_append]
    rcases mem_append.1 hm with ho | hl
    · rcases h.covered ident ho with hr | hp
      · exact .inl (mem_append_left _ hr)
      · exact .inr (hp.rise hri)
    left
    rw [mem_singleton.1 hl]
    exact mem_append_right _ (mem_singleton_self _)
  · rw [← concat_eq_append]
    exact List.Nodup.concat hnew h.once

end

/-! ### Accepting -/

theorem insertRow_spec (h : t.insertRow row = .ok t') :
    t' = { t with rows := t.rows ++ [{ row with sequence := t.lastSequence + 1 }], lastSequence := t.lastSequence + 1 } ∧
      (∀ o ∈ t.rows, o.receiptId ≠ row.receiptId) ∧ ∀ o ∈ t.rows, o.identity ≠ row.identity := by
  unfold insertRow at h
  split at h
  · cases h
  split at h
  · cases h
  rename_i hno
  cases h
  simp only [any_eq_true, Bool.or_eq_true, decide_eq_true_eq, not_exists, not_and, not_or] at hno
  exact ⟨rfl, fun o ho => (hno o ho).1, fun o ho => (hno o ho).2⟩

theorem receipt_spec (h : t.receipt owner installation id = .ok r) :
    ∃ row ∈ t.rows, row.receiptId = id ∧ r = row.decode := by
  unfold receipt at h
  split at h
  · cases h
  rename_i row hf
  cases h
  have hp := find?_some hf
  simp only [Bool.and_eq_true, decide_eq_true_eq] at hp
  exact ⟨row, mem_of_find?_eq_some hf, hp.2, rfl⟩

variable {automation : VerifiedAutomation V} {occurrence : Occurrence V} {now : Nat}

/-- What one `accept` added to the table: nothing, or a row for the identity of the occurrence. -/
inductive Accepted (t t' : AppOutbox) (identity : OccurrenceIdentity) (r : Receipt) : List OutboxRow → Prop
  | existing (row : OutboxRow) (hrow : row ∈ t.rows) (hidentity : row.identity = identity) (hr : r = row.decode)
      (ht : t' = t) : Accepted t t' identity r []
  | added (row : OutboxRow) (hidentity : row.identity = identity) (hrows : t'.rows = t.rows ++ [row])
      (hlast : t'.lastSequence = t.lastSequence + 1) (hsequence : row.sequence = t.lastSequence + 1)
      (hnew : ∀ other ∈ t.rows, other.identity ≠ identity) : Accepted t t' identity r [row]

theorem Sound.acceptNew (h : Sound t created) {pay inv dg dr : String}
    (hv : validate occurrence.occurrenceId occurrence.occurredAtMs = .ok ())
    (hacc : t.acceptNew automation occurrence pay inv dg now dr = .ok (t', r)) :
    ∃ news, Accepted t t' (identityOf automation occurrence) r news ∧
      Sound t' (created ++ news.map OutboxRow.identity) := by
  obtain ⟨⟨t₁, fl⟩, had, hacc⟩ := of_bind_ok hacc
  have hacc := of_check hacc
  obtain ⟨_, hf, hacc⟩ := of_bind_ok hacc
  have hacc := of_check hacc
  obtain ⟨-, -, hacc⟩ := of_bind_ok hacc
  obtain ⟨-, -, hacc⟩ := of_bind_ok hacc
  obtain ⟨-, -, hacc⟩ := of_bind_ok hacc
  obtain ⟨t₂, hin, hacc⟩ := of_bind_ok hacc
  obtain ⟨r', -, hacc⟩ := of_bind_ok hacc
  obtain ⟨rfl, rfl⟩ := Prod.mk.inj (Except.ok.inj hacc)
  obtain ⟨ht₁, hri, hs⟩ := advanceFloor_spec had
  obtain ⟨ht₂, hr, hi⟩ := insertRow_spec hin
  have hrows : t₁.rows = t.rows := by rw [ht₁]
  have hlast : t₁.lastSequence = t.lastSequence := by rw [ht₁]
  have hs₁ : Sound t₁ created := h.update (by rw [keys, hrows]; rfl) hlast hri
  refine ⟨_, .added { newRow automation occurrence pay inv dg now dr with
    sequence := t.lastSequence + 1 } rfl ?_ ?_ rfl ?_, ?_⟩
  · rw [ht₂, hlast, hrows]
  · rw [ht₂, hlast]
  · rw [← hrows]
    exact hi
  · refine hs₁.insert (by rw [ht₂, hlast]) (by rw [hlast]) (by rw [ht₂]) (FloorsRise.of_eq (by rw [ht₂])) hv
      hr hi ?_
    -- the floor that was just set does not lie after the occurrence
    rintro ⟨floor', hflr', hbef⟩
    have hsame : fl = floor' := Option.some.inj (hs.symm.trans hflr')
    have hlt := hbef _ hv
    have hge := not_of_failIf hf
    omega

theorem Sound.accept (h : Sound t created) {pay inv dr : String}
    (hv : validate occurrence.occurrenceId occurrence.occurredAtMs = .ok ())
    (hacc : t.accept C automation occurrence pay inv now dr = .ok (t', r)) :
    ∃ news, Accepted t t' (identityOf automation occurrence) r news ∧
      Sound t' (created ++ news.map OutboxRow.identity) := by
  obtain ⟨dg, -, hacc⟩ := of_bind_ok hacc
  split at hacc
  · rename_i row hf
    have hacc := of_check hacc
    obtain ⟨r', hr, hacc⟩ := of_bind_ok hacc
    obtain ⟨rfl, rfl⟩ := Prod.mk.inj (Except.ok.inj hacc)
    have hrow := mem_of_find?_eq_some hf
    have hident : row.identity = identityOf automation occurrence := by
      simpa using find?_some hf
    obtain ⟨o, ho, hid, hd⟩ := receipt_spec hr
    obtain rfl : o = row := eq_of_nodup_keys h.receiptIds ho hrow hid
    refine ⟨[], .existing o hrow hident hd rfl, ?_⟩
    rw [map_nil, append_nil]
    exact h
  · exact h.acceptNew hv hacc

theorem Sound.not_created {news : List OutboxRow} (h : Sound t (created ++ news.map OutboxRow.identity))
    (hr : row ∈ news) : row.identity ∉ created := by
  intro hc
  exact (nodup_append.1 h.once).2.2 _ hc _ (mem_map_of_mem hr) rfl

/-- The rows that a batch added stand behind the old ones, under later numbers. -/
theorem Sound.acceptAll (h : Sound t created) {drawn : Nat → String} {rs : List Receipt}
    (hv : ∀ p ∈ ps, validate p.occurrence.occurrenceId p.occurrence.occurredAtMs = .ok ())
    (ha : acceptAll C now ps drawn t = .ok (t', rs)) :
    ∃ news, t'.rows = t.rows ++ news ∧ (∀ row ∈ news, t.lastSequence < row.sequence) ∧
      Sound t' (created ++ news.map OutboxRow.identity) ∧
      ∀ (n : Nat) (p : Prepared V) (r : Receipt), ps[n]? = some p → rs[n]? = some r → identityOf p.automation p.occurrence ∈ created →
        ∃ row ∈ t.rows, row.identity = identityOf p.automation p.occurrence ∧ r = row.decode := by
  induction ps generalizing t created drawn rs with
  | nil =>
    obtain ⟨rfl, rfl⟩ := Prod.mk.inj (Except.ok.inj ha)
    refine ⟨[], (append_nil _).symm, by simp, ?_, by simp⟩
    rw [map_nil, append_nil]
    exact h
  | cons p ps ih =>
    obtain ⟨⟨t₁, r₁⟩, hf, ha⟩ := of_bind_ok ha
    obtain ⟨⟨t₂, rs₂⟩, hre, ha⟩ := of_bind_ok ha
    obtain ⟨rfl, rfl⟩ := Prod.mk.inj (Except.ok.inj ha)
    obtain ⟨added, had, hs₁⟩ := h.accept (hv p mem_cons_self) hf
    obtain ⟨news, hrows, hab, hs₂, hrc⟩ := ih hs₁ (fun q hq => hv q (mem_cons_of_mem _ hq)) hre
    have hstep : t₁.rows = t.rows ++ added ∧ t.lastSequence ≤ t₁.lastSequence ∧
        ∀ row ∈ added, t.lastSequence < row.sequence := by
      cases had with
      | existing row hro hi hr ht =>
        subst ht
        exact ⟨(append_nil _).symm, le_refl _, by simp⟩
      | added row hi hrows =>
        refine ⟨hrows, by omega, ?_⟩
        intro o hot
        rw [mem_singleton.1 hot]
        omega
    refine ⟨added ++ news, ?_, ?_, ?_, ?_⟩
    · rw [hrows, hstep.1, append_assoc]
    · intro row hro
      rcases mem_append.1 hro with ho | hn
      · exact hstep.2.2 row ho
      · exact hstep.2.1.trans_lt (hab row hn)
    · rw [map_append, ← append_assoc]
      exact hs₂
    · intro n q r hq hr hc
      cases n with
      | zero =>
        cases hq
        cases hr
        cases had with
        | existing row hro hi hr => exact ⟨row, hro, hi, hr⟩
        | added row hi =>
          exact absurd (hi ▸ hc) (hs₁.not_created (mem_singleton_self row))
      | succ n =>
        obtain ⟨row, hro, hi, hd⟩ :=
          hrc n q r hq hr (mem_append_left _ hc)
        rw [hstep.1, mem_append] at hro
        rcases hro with ho | hn
        · exact ⟨row, ho, hi, hd⟩
        · exact absurd (hi ▸ hc) (hs₁.not_created hn)

/-! ### What is accepted is valid -/

theorem prepareOne_spec {seen : List (String × Option String)} {tot : Nat} {p : Prepared V × Nat}
    (h : prepareOne C automation occurrence seen tot = .ok p) :
    p.1.automation = automation ∧ p.1.occurrence = occurrence ∧ occurrence.automationId = automation.binding.id ∧
      validate occurrence.occurrenceId occurrence.occurredAtMs = .ok () := by
  obtain ⟨_, hv, h⟩ := of_bind_ok h
  have h := of_check h
  have h := of_check h
  obtain ⟨_, hm, h⟩ := of_bind_ok h
  obtain ⟨pay, -, h⟩ := of_bind_ok h
  obtain ⟨inv, -, h⟩ := of_bind_ok h
  have h := of_check h
  cases h
  have hid := not_of_failIf hm
  rw [not_or, not_not] at hid
  exact ⟨rfl, rfl, hid.1, hv⟩

/-- The identity of an occurrence that an App of an installation emits. -/
def identityFor (owner installation : String) (occurrence : Occurrence V) : OccurrenceIdentity where
  ownerId := owner
  installationId := installation
  automationId := occurrence.automationId
  eventVersion := occurrence.eventVersion
  occurrenceId := occurrence.occurrenceId
  scheduleRevision := occurrence.scheduleRevision.getD ""

/-- The prepared occurrences are those of the batch, each with a valid id. -/
structure PreparedFrom (ps : List (Prepared V)) (owner installation : String) (occurrences : List (Occurrence V)) :
    Prop where
  valid : ∀ p ∈ ps, validate p.occurrence.occurrenceId p.occurrence.occurredAtMs = .ok ()
  identities : ps.map (fun p => identityOf p.automation p.occurrence) =
    occurrences.map (identityFor owner installation)

theorem PreparedFrom.nil (ow inst : String) : PreparedFrom ([] : List (Prepared V)) ow inst [] :=
  ⟨by simp, rfl⟩

theorem PreparedFrom.append {qs : List (Prepared V)} {os os' : List (Occurrence V)}
    (hp : PreparedFrom ps owner installation os) (hq : PreparedFrom qs owner installation os') :
    PreparedFrom (ps ++ qs) owner installation (os ++ os') where
  valid := by
    intro p hm
    rcases mem_append.1 hm with h | h
    · exact hp.valid p h
    · exact hq.valid p h
  identities := by rw [map_append, map_append, hp.identities, hq.identities]

theorem preparedFrom_prepareAll {seen : List (String × Option String)} {tot : Nat}
    (h : prepareAll C automation occurrences seen tot = .ok ps) :
    PreparedFrom ps automation.owner automation.installationId occurrences := by
  induction occurrences generalizing seen tot ps with
  | nil =>
    cases h
    exact .nil _ _
  | cons occ rest ih =>
    obtain ⟨⟨p, tot'⟩, hon, h⟩ := of_bind_ok h
    obtain ⟨more, hm, h⟩ := of_bind_ok h
    cases h
    obtain ⟨ha, ho, hid, hv⟩ := prepareOne_spec hon
    have hfst : PreparedFrom [p] automation.owner automation.installationId [occ] := by
      refine ⟨?_, ?_⟩
      · intro q hq
        rw [mem_singleton.1 hq]
        rw [ho]
        exact hv
      · rw [map_singleton, map_singleton, ha, ho, identityOf, identityFor, hid]
    exact hfst.append (ih hm)

theorem preparedFrom_prepare (h : prepare C automation occurrences now = .ok ps) :
    PreparedFrom ps automation.owner automation.installationId occurrences := by
  obtain ⟨-, -, h⟩ := of_bind_ok h
  have h := of_check h
  exact preparedFrom_prepareAll h

variable {tables : OtherTables V} {catalog : EventCatalog V} {trustedOwner : String}

theorem currentAutomation_spec (h : currentAutomation tables catalog trustedOwner occurrence = .ok automation) :
    automation.owner = trustedOwner ∧ automation.installationId = catalog.installationId := by
  obtain ⟨cur, -, h⟩ := of_bind_ok h
  have h := of_check h
  have h := of_check h
  have h := of_check h
  have h := of_check h
  obtain ⟨bind, -, h⟩ := of_bind_ok h
  have h := of_check h
  have h := of_check h
  cases h
  exact ⟨rfl, rfl⟩

theorem preparedFrom_prepareCurrent {aus : List (VerifiedAutomation V)}
    (hl : occurrences.mapM (currentAutomation tables catalog trustedOwner) = .ok aus)
    (h : prepareCurrent C now (aus.zip occurrences) = .ok ps) :
    PreparedFrom ps trustedOwner catalog.installationId occurrences := by
  induction occurrences generalizing aus ps with
  | nil =>
    rw [zip_nil_right] at h
    cases h
    exact .nil _ _
  | cons occ rest ih =>
    rw [mapM_cons] at hl
    obtain ⟨auto, hon, hl⟩ := of_bind_ok hl
    obtain ⟨ots, ho, hl⟩ := of_bind_ok hl
    cases hl
    obtain ⟨prep, hp, h⟩ := of_bind_ok h
    obtain ⟨more, hm, h⟩ := of_bind_ok h
    cases h
    obtain ⟨how, hi⟩ := currentAutomation_spec hon
    have hfst := preparedFrom_prepare hp
    rw [how, hi] at hfst
    exact hfst.append (ih ho hm)

/-! ### Calls and operations -/

/-- The two entry points through which occurrences are accepted; the ids of new receipts are drawn at random. -/
inductive AcceptCall (V : Type)
  | applyIn (tables : OtherTables V) (automation : VerifiedAutomation V) (occurrences : List (Occurrence V)) (now : Nat)
      (drawn : Nat → String)
  | applyCurrentIn (tables : OtherTables V) (catalog : EventCatalog V) (trustedOwner : String)
      (occurrences : List (Occurrence V)) (now : Nat) (drawn : Nat → String)

namespace AcceptCall

def result (C : OutboxCodec V) (t : AppOutbox) : AcceptCall V → Result (AppOutbox × List Receipt)
  | applyIn tables automation occurrences now drawn => t.applyIn C tables automation occurrences now drawn
  | applyCurrentIn tables catalog trustedOwner occurrences now drawn =>
    t.applyCurrentIn C tables catalog trustedOwner occurrences now drawn

/-- The identities of the occurrences that a call is to accept, in their order. -/
def identities : AcceptCall V → List OccurrenceIdentity
  | applyIn _ automation occurrences _ _ => occurrences.map (identityFor automation.owner automation.installationId)
  | applyCurrentIn _ catalog trustedOwner occurrences _ _ =>
    occurrences.map (identityFor trustedOwner catalog.installationId)

/-- A call that succeeds accepts a batch of prepared occurrences. -/
theorem exists_of_result {call : AcceptCall V} {rs : List Receipt} (h : call.result C t = .ok (t', rs)) :
    ∃ ps now dr, (∀ p ∈ ps, validate p.occurrence.occurrenceId p.occurrence.occurredAtMs = .ok ()) ∧
      ps.map (fun p => identityOf p.automation p.occurrence) = call.identities ∧
      acceptAll C now ps dr t = .ok (t', rs) := by
  cases call with
  | applyIn tables auto occs now dr =>
    obtain ⟨ps, hps, h⟩ := of_bind_ok h
    have h := of_check h
    have hfrom := preparedFrom_prepare hps
    exact ⟨ps, now, dr, hfrom.valid, hfrom.identities, h⟩
  | applyCurrentIn tables catalog own occs now dr =>
    have h := of_check h
    have h := of_check h
    obtain ⟨-, -, h⟩ := of_bind_ok h
    have h := of_check h
    obtain ⟨aus, hl, h⟩ := of_bind_ok h
    obtain ⟨ps, hps, h⟩ := of_bind_ok h
    have hfrom := preparedFrom_prepareCurrent hl hps
    exact ⟨ps, now, dr, hfrom.valid, hfrom.identities, h⟩

end AcceptCall

inductive OutboxOp (V : Type)
  | acceptCall (call : AcceptCall V)
  | markQueuedIn (tables : OtherTables V) (automation : VerifiedAutomation V) (id : String) (expectedRevision : Nat)
      (queuedPromptId : String) (now : Nat)
  | markRetryableIn (tables : OtherTables V) (automation : VerifiedAutomation V) (id : String)
      (expectedRevision retryAtMs now : Nat)
  | markFailedAttemptIn (tables : OtherTables V) (automation : VerifiedAutomation V) (id : String)
      (expectedRevision now : Nat)
  | settleIn (tables : OtherTables V) (catalog : EventCatalog V) (owner id : String) (expectedRevision : Nat)
      (state : ReceiptState) (now : Nat)
  | maintainIn (tables : OtherTables V) (trustedOwner installationId : String) (now : Nat)
  | failUndelivered (owner installation automationId : String)
  | restart

def OutboxOp.result (C : OutboxCodec V) (t : AppOutbox) : OutboxOp V → Result AppOutbox
  | .acceptCall call => (call.result C t).map Prod.fst
  | .markQueuedIn tables automation id revision promptId now =>
    (t.markQueuedIn tables automation id revision promptId now).map Prod.fst
  | .markRetryableIn tables automation id revision retryAtMs now =>
    (t.markRetryableIn tables automation id revision retryAtMs now).map Prod.fst
  | .markFailedAttemptIn tables automation id revision now =>
    (t.markFailedAttemptIn tables automation id revision now).map Prod.fst
  | .settleIn tables catalog owner id revision state now =>
    (t.settleIn tables catalog owner id revision state now).map Prod.fst
  | .maintainIn tables owner installation now => (t.maintainIn tables owner installation now).map Prod.fst
  | .failUndelivered owner installation automationId => .ok (t.failUndelivered owner installation automationId)
  | .restart => .ok t.initializeTables

/-- The identities of the receipts that were created between two states: those with a new sequence number. -/
def createdBetween (before after : AppOutbox) : List OccurrenceIdentity :=
  (after.rows.filter (fun row => before.lastSequence < row.sequence)).map OutboxRow.identity

/-- The outbox, and the identities that got a receipt, each as often as it got one. -/
structure History where
  outbox : AppOutbox
  created : List OccurrenceIdentity

def History.apply (C : OutboxCodec V) (h : History) (op : OutboxOp V) : History :=
  match op.result C h.outbox with
  | .error _ => h
  | .ok t => { outbox := t, created := h.created ++ createdBetween h.outbox t }

def run (C : OutboxCodec V) (ops : List (OutboxOp V)) : History :=
  ops.foldl (History.apply C) { outbox := new, created := [] }

/-! ### Steps -/

theorem Sound.createdBetween_eq_nil (h : Sound t created) (hs : t'.keys ⊆ t.keys) : createdBetween t t' = [] := by
  rw [createdBetween, map_eq_nil_iff, filter_eq_nil_iff]
  intro row hr
  have hle := h.numbered _ (hs (mem_map_of_mem hr))
  simp only [decide_eq_true_eq, not_lt]
  exact hle

/-- A step that changes rows in place and raises floors. -/
structure Updates (t t' : AppOutbox) : Prop where
  keys : t'.keys = t.keys
  last : t'.lastSequence = t.lastSequence
  floors : FloorsRise t t'

theorem updates_updateRows (hf : ∀ row, keyOf (f row) = keyOf row) : Updates t (t.updateRows p f) :=
  ⟨keys_updateRows hf, rfl, FloorsRise.of_eq rfl⟩

theorem updates_updateOne (h : t.updateOne p f = .ok t') (hf : ∀ row, keyOf (f row) = keyOf row) : Updates t t' := by
  unfold updateOne at h
  split at h <;> cases h
  exact updates_updateRows hf

/-- The end of every transition: one row changes and its receipt is read. -/
theorem updates_transition (h : (do
      let t ← t.updateOne p f
      let receipt ← t.receipt owner installation id
      return (t, receipt)) = Except.ok (t', r))
    (hf : ∀ row, keyOf (f row) = keyOf row) : Updates t t' := by
  obtain ⟨t₁, hu, h⟩ := of_bind_ok h
  obtain ⟨r', -, h⟩ := of_bind_ok h
  cases h
  exact updates_updateOne hu hf

theorem Updates.trans {t'' : AppOutbox} (h : Updates t t') (h' : Updates t' t'') : Updates t t'' where
  keys := h'.keys.trans h.keys
  last := h'.last.trans h.last
  floors := by
    intro ow inst fl hf
    obtain ⟨fl', hf', hle⟩ := h.floors ow inst fl hf
    obtain ⟨fl'', hf'', hle'⟩ := h'.floors ow inst fl' hf'
    exact ⟨fl'', hf'', hle.trans hle'⟩

theorem updates_markQueuedIn {promptId : String}
    (h : t.markQueuedIn tables automation id revision promptId now = .ok (t', r)) : Updates t t' := by
  have h := of_check h
  have h := of_check h
  obtain ⟨prev, -, h⟩ := of_bind_ok h
  have h := of_check h
  exact updates_transition h fun _ => rfl

theorem updates_markRetryableIn {retryAtMs : Nat}
    (h : t.markRetryableIn tables automation id revision retryAtMs now = .ok (t', r)) : Updates t t' := by
  have h := of_check h
  obtain ⟨prev, -, h⟩ := of_bind_ok h
  have h := of_check h
  obtain ⟨retryAt, -, h⟩ := of_bind_ok h
  exact updates_transition h fun _ => rfl

theorem updates_markFailedAttemptIn
    (h : t.markFailedAttemptIn tables automation id revision now = .ok (t', r)) : Updates t t' := by
  have h := of_check h
  obtain ⟨prev, -, h⟩ := of_bind_ok h
  exact updates_transition h fun _ => rfl

theorem updates_settleIn {st : ReceiptState}
    (h : t.settleIn tables catalog owner id revision st now = .ok (t', r)) : Updates t t' := by
  have h := of_check h
  obtain ⟨-, -, h⟩ := of_bind_ok h
  have h := of_check h
  obtain ⟨prev, -, h⟩ := of_bind_ok h
  have h := of_check h
  obtain ⟨tg, -, h⟩ := of_bind_ok h
  exact updates_transition h fun _ => rfl

theorem classify_foldl_spec (ow inst : String) (now : Nat) (cands : List OutboxRow) (s : AppOutbox × Maintenance) :
    Updates s.1 (cands.foldl (classify ow inst now) s).1 ∧
      (cands.foldl (classify ow inst now) s).1.floors = s.1.floors := by
  refine foldlRecOn cands _ (b := s) (motive := fun r => Updates s.1 r.1 ∧ r.1.floors = s.1.floors)
    ⟨⟨rfl, rfl, FloorsRise.refl _⟩, rfl⟩ ?_
  intro m hm cand _
  unfold classify
  dsimp only
  split
  · exact hm
  · exact ⟨hm.1.trans (updates_updateRows fun _ => rfl), hm.2⟩

/-- `maintain_in` changes rows, raises the floor, and then deletes rows before it. -/
theorem maintainIn_spec {res : Maintenance} (h : t.maintainIn tables owner installation now = .ok (t', res)) :
    ∃ t₁ fl, Updates t t₁ ∧ t₁.floor owner installation = some fl ∧
      (t' = t₁ ∨ t' = t₁.prune owner installation fl now) := by
  have h := of_check h
  have h := of_check h
  obtain ⟨-, -, h⟩ := of_bind_ok h
  have h := of_check h
  obtain ⟨⟨t₀, fl⟩, ha, h⟩ := of_bind_ok h
  obtain ⟨ht₀, hr, hs⟩ := advanceFloor_spec ha
  have hup₀ : Updates t t₀ := ⟨by rw [ht₀]; rfl, by rw [ht₀], hr⟩
  obtain ⟨hup, hf⟩ := classify_foldl_spec owner installation now
    (t₀.candidates owner installation now) (t₀, { minimumOccurredAtMs := fl, expired := 0, failed := 0, pruned := 0 })
  refine ⟨_, fl, hup₀.trans hup, ?_, ?_⟩
  · rw [AppOutbox.floor, hf]
    exact hs
  dsimp only at h
  split at h
  · cases h
    exact .inr rfl
  · cases h
    exact .inl rfl

theorem Sound.prune (h : Sound t created) {fl : Nat}
    (hf : t.floor owner installation = some fl) : Sound (t.prune owner installation fl now) created := by
  refine h.delete ?_
  intro row hr hd
  simp only [Bool.not_eq_false', contains_iff_mem, mem_map] at hd
  obtain ⟨o, ho, hs⟩ := hd
  have hmem := mem_of_mem_take ho
  rw [mem_filter] at hmem
  obtain rfl := eq_of_nodup_keys h.sequences hmem.1 hr hs
  simp only [OutboxRow.isOf, Bool.and_eq_true, decide_eq_true_eq] at hmem
  obtain ⟨-, ⟨⟨⟨how, hi⟩, -⟩, hb⟩, -⟩ := hmem
  rw [how, hi]
  exact ⟨fl, hf, hb⟩

/-- What an operation does when it succeeds, apart from accepting: rows are changed or deleted, none is added. -/
theorem Sound.result (h : Sound t created) {op : OutboxOp V} (hre : op.result C t = .ok t') :
    Sound t' (created ++ createdBetween t t') := by
  have hkeep : ∀ {t'}, Sound t' created → t'.keys ⊆ t.keys → Sound t' (created ++ createdBetween t t') := by
    intro t' hs hsu
    rw [h.createdBetween_eq_nil hsu, append_nil]
    exact hs
  have hupd : ∀ {t'}, Updates t t' → Sound t' (created ++ createdBetween t t') :=
    fun hup => hkeep (h.update hup.keys hup.last hup.floors) fun _ hk => hup.keys ▸ hk
  cases op with
  | acceptCall =>
    obtain ⟨rs, hc⟩ := exists_of_map_fst hre
    obtain ⟨ps, now, dr, hv, -, hac⟩ := AcceptCall.exists_of_result hc
    obtain ⟨news, hro, ha, hs, -⟩ := h.acceptAll hv hac
    have hcre : createdBetween t t' = news.map OutboxRow.identity := by
      have hold := h.createdBetween_eq_nil (List.Subset.refl t.keys)
      have hnew : news.filter (fun row => decide (t.lastSequence < row.sequence)) = news :=
        filter_eq_self.2 fun row hrow => decide_eq_true (ha row hrow)
      rw [createdBetween] at hold ⊢
      rw [hro, filter_append, map_append, hold, hnew, nil_append]
    rw [hcre]
    exact hs
  | markQueuedIn =>
    obtain ⟨r, hr⟩ := exists_of_map_fst hre
    exact hupd (updates_markQueuedIn hr)
  | markRetryableIn =>
    obtain ⟨r, hr⟩ := exists_of_map_fst hre
    exact hupd (updates_markRetryableIn hr)
  | markFailedAttemptIn =>
    obtain ⟨r, hr⟩ := exists_of_map_fst hre
    exact hupd (updates_markFailedAttemptIn hr)
  | settleIn =>
    obtain ⟨r, hr⟩ := exists_of_map_fst hre
    exact hupd (updates_settleIn hr)
  | maintainIn =>
    obtain ⟨r, hr⟩ := exists_of_map_fst hre
    obtain ⟨t₁, fl, hup, hf, rfl | rfl⟩ := maintainIn_spec hr
    · exact hupd hup
    have hs₁ := h.update hup.keys hup.last hup.floors
    refine hkeep (hs₁.prune hf) ?_
    rw [← hup.keys]
    exact (filter_sublist.map keyOf).subset
  | _ =>
    cases hre
    exact hupd (updates_updateRows fun _ => rfl)

/-! ### Runs -/

theorem run_sound (C : OutboxCodec V) (ops : List (OutboxOp V)) : Sound (run C ops).outbox (run C ops).created := by
  refine foldlRecOn ops (History.apply C) (motive := fun h => Sound h.outbox h.created)
    (b := { outbox := new, created := [] }) new_sound ?_
  intro h hs op _
  unfold History.apply
  split
  · exact hs
  · rename_i hr
    exact hs.result hr

/-- In every run, no identity gets a receipt twice, and a call that succeeds answers an occurrence whose identity got a
receipt before with that receipt. -/
theorem accepted_at_most_once (C : OutboxCodec V) (ops : List (OutboxOp V)) : (run C ops).created.Nodup ∧
      ∀ (call : AcceptCall V) (after : AppOutbox) (receipts : List Receipt),
        call.result C (run C ops).outbox = .ok (after, receipts) →
        ∀ (n : Nat) (identity : OccurrenceIdentity) (receipt : Receipt),
          call.identities[n]? = some identity → receipts[n]? = some receipt → identity ∈ (run C ops).created →
          ∃ row ∈ (run C ops).outbox.rows, row.identity = identity ∧ receipt = row.decode := by
  have hs := run_sound C ops
  refine ⟨hs.once, ?_⟩
  intro call after receipts hc n identity receipt hi hrc hcr
  obtain ⟨ps, now, dr, hv, hid, ha⟩ := AcceptCall.exists_of_result hc
  obtain ⟨news, -, -, -, hr⟩ := hs.acceptAll hv ha
  rw [← hid, getElem?_map, Option.map_eq_some_iff] at hi
  obtain ⟨p, hp, rfl⟩ := hi
  exact hr n p receipt hp hrc hcr

/-! ### A receipt that was deleted -/

def sampleCodec : OutboxCodec Unit where
  encodeBoundedPayload _ := .ok "null"
  encodeInvocation _ := some "invocation"
  contentDigest _ := .ok "sha256"

def sampleBinding : Binding where
  targetKind := "workflow"
  id := "a"
  revision := 1
  eventName := "e"
  eventVersion := 1
  schemaDigest := "d"
  sessionId := "s"
  publicationId := "p"
  endpointId := "n"
  queueId := "q"
  status := .active
  scheduled := false

def sampleAutomation : VerifiedAutomation Unit where
  catalog := { installationId := "i", generation := 1, events := OrdMap.ofList [("e", ⟨1, "d", fun _ => true⟩)] }
  owner := "o"
  binding := sampleBinding

def sampleTables : OtherTables Unit where
  requireCurrent _ _ := .ok ()
  automation _ _ _ := some sampleBinding
  owns _ _ := true

def sampleOccurrence : Occurrence Unit where
  automationId := "a"
  occurrenceId := "evt1.5." ++ String.ofList (List.replicate 64 'f')
  eventVersion := 1
  occurredAtMs := 5
  scheduleRevision := none
  payload := ()
  invocation := { prompt := "go", artifacts := [] }

def sampleAccept (now : Nat) : AcceptCall Unit :=
  .applyIn sampleTables sampleAutomation [sampleOccurrence] now (fun _ => "0")

/-- The receipt expires and is deleted; with the clock set back, the occurrence is refused. -/
def sampleOps : List (OutboxOp Unit) :=
  [.acceptCall (sampleAccept 9), .maintainIn sampleTables "o" "i" (40 * 24 * 60 * 60 * 1000), .restart]

example : (run sampleCodec sampleOps).created = (sampleAccept 9).identities ∧
    (run sampleCodec sampleOps).outbox.rows = [] ∧
    (sampleAccept 9).result sampleCodec (run sampleCodec sampleOps).outbox = .error .tooOld := by
  decide

end Chariox.AppOutbox
