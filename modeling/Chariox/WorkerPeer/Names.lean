import Chariox.WorkerPeer.Moves

/-!
# Answers carry the ids of their requests

The serial of a request is the model's own; the code passes the id of the request along.  Wherever a serial and an id
stand together, the id is the one of the request.
-/

namespace Chariox.WorkerPeer.Peer

open List

variable {s : Peer} {n : Nat} {id : String}

structure Named (s : Peer) : Prop where
  frames : ∀ n id outcome publication, .response n id outcome publication ∈ s.inFlight → s.requests[n]? = some id
  waiting : ∀ entry ∈ s.brokerWaiting, s.requests[entry.serial]? = some entry.id
  active : ∀ id running, s.active.get id = some running → s.requests[running.serial]? = some id
  publishing : ∀ id pending, s.publishing.get id = some pending → s.requests[pending.serial]? = some id

theorem new_named (cfg : PeerConfig) : Named (new cfg) where
  frames := nofun
  waiting := nofun
  active := nofun
  publishing := nofun

namespace Named

/-! ### Frames -/

section

variable (h : Named s)

include h

theorem ofFrames {q outg : List Outgoing} {w : WriterState} (hf : ∀ f ∈ q ++ (outg ++ w.frames), f ∈ s.inFlight) :
    Named { s with queued := q, outgoing := outg, writer := w } :=
  { h with frames := fun n id out publ hm => h.frames n id out publ (hf _ hm) }

variable {f : Outgoing}

theorem enqueue (hfr : ∀ n id out publ, f = .response n id out publ → s.requests[n]? = some id) :
    Named { s with queued := s.queued ++ [f], responses := s.responses ++ f.answers.toList } := by
  refine { h with frames := ?_ }
  intro n id out publ hm
  rcases mem_append.1 hm with hq | hr
  · rcases mem_append.1 hq with ho | hn
    · exact h.frames n id out publ (mem_append_left _ ho)
    · exact hfr n id out publ (mem_singleton.1 hn).symm
  · exact h.frames n id out publ (mem_append_right _ hr)

theorem send (hfr : ∀ n id out publ, f = .response n id out publ → s.requests[n]? = some id) :
    Ends Named Named (s.send f) := by
  unfold Peer.send
  split
  · exact h
  split
  · exact { h with }
  · exact h.enqueue hfr

theorem sendAnswer (hid : s.requests[n]? = some id) (out : Outcome) (publ : Option Nat) :
    Ends Named Named (s.send (.response n id out publ)) := by
  refine h.send ?_
  intro n' id' out' publ' heq
  cases heq
  exact hid

theorem sendCall (hfr : f.answers = none) : Ends Named Named (s.send f) := by
  refine h.send ?_
  rintro n id out publ rfl
  cases hfr

/-! ### Stages -/

theorem take (id : String) : Named { s with requests := s.requests ++ [id] } := by
  have hold : ∀ (n : Nat) id', s.requests[n]? = some id' → (s.requests ++ [id])[n]? = some id' := by
    intro n id' hg
    rw [List.getElem?_append_left (List.getElem?_eq_some_iff.1 hg).1]
    exact hg
  exact { frames := fun n id' out publ hm => hold n id' (h.frames n id' out publ hm)
          waiting := fun e hm => hold _ _ (h.waiting e hm)
          active := fun id' run hg => hold _ _ (h.active id' run hg)
          publishing := fun id' pend hg => hold _ _ (h.publishing id' pend hg) }

theorem forgetPublished (seen : List String) : Named (s.forgetPublished seen) :=
  { h with publishing := fun id pend hg => h.publishing id pend (OrdMap.get_of_get_retain hg) }

theorem unqueue (en : BrokerWaiting) : Named (s.unqueue en) :=
  { h with waiting := fun e hm => h.waiting e (mem_of_mem_erase hm) }

theorem setActive (run : Active) (hid : s.requests[run.serial]? = some id) :
    Named { s with active := s.active.insert id run } :=
  { h with active := OrdMap.forall_insert hid h.active }

theorem setPublishing (pend : Publishing) (hid : s.requests[pend.serial]? = some id) :
    Named { s with publishing := s.publishing.insert id pend } :=
  { h with publishing := OrdMap.forall_insert hid h.publishing }

theorem removeActive (id : String) : Named { s with active := s.active.remove id } :=
  { h with active := fun id' run hg => h.active id' run (OrdMap.get_of_get_retain hg) }

theorem removePublishing (id : String) : Named { s with publishing := s.publishing.remove id } :=
  { h with publishing := fun id' pend hg => h.publishing id' pend (OrdMap.get_of_get_retain hg) }

theorem shutdown (res : Option PeerError) : Named (s.shutdown res) := by
  refine { h with frames := ?_, waiting := nofun }
  intro n id out publ hm
  exact h.frames n id out publ (mem_append_right _ hm)

/-! ### The writer -/

theorem flush : Ends Named Named s.flush := by
  unfold Peer.flush
  split
  · exact h
  rename_i hqu
  split
  · refine h.ofFrames ?_
    intro f' hm
    unfold inFlight
    rw [hqu]
    simp only [mem_append, mem_cons] at hm ⊢
    tauto
  · exact h

theorem writerTake : Named s.writerTake := by
  unfold Peer.writerTake
  split
  · rename_i ho
    refine h.ofFrames ?_
    intro f hm
    unfold inFlight
    rw [ho]
    simp only [WriterState.frames, mem_append, mem_cons] at hm ⊢
    tauto
  · exact h

theorem setWriter {w : WriterState} (hw : ∀ f ∈ w.frames, f ∈ s.writer.frames) : Named { s with writer := w } := by
  refine h.ofFrames ?_
  intro f hm
  rcases mem_append.1 hm with hq | hr
  · exact mem_append_left _ hq
  rcases mem_append.1 hr with ho | hwr
  · exact mem_append_right _ (mem_append_left _ ho)
  · exact mem_append_right _ (mem_append_right _ (hw f hwr))

theorem writerCheck (now : Nat) : Named (s.writerCheck now) := by
  unfold Peer.writerCheck
  split
  · rename_i callId hwr
    split
    · have hsent := h.setWriter (w := .writing (.call callId)) (by rw [hwr]; exact fun _ hm => hm)
      exact { hsent with }
    · exact h.setWriter nofun
  · rename_i sr rid out dl hwr
    split
    · have hdone := h.setWriter (w := .acking ⟨sr, rid, false⟩) nofun
      exact { hdone with }
    · exact h.setWriter (by rw [hwr]; exact fun _ hm => hm)
  · rename_i hwr
    exact h.setWriter (by rw [hwr]; exact fun _ hm => hm)
  · exact h

theorem writerDone : Named s.writerDone := by
  unfold Peer.writerDone
  split
  · rename_i sr rid out dl hwr
    have hdone := h.setWriter (w := .acking ⟨sr, rid, true⟩) nofun
    exact { hdone with }
  · have hdone := h.setWriter (w := .idle) nofun
    exact { hdone with }
  · exact h

theorem writerFail : Named s.writerFail := by
  unfold Peer.writerFail
  split
  · exact h.setWriter nofun
  · exact h

theorem writerAck : Named s.writerAck := by
  unfold Peer.writerAck
  split
  · split
    · have hidle := h.setWriter (w := .idle) nofun
      exact { hidle with }
    · exact h
  · exact h

end

end Named

end Chariox.WorkerPeer.Peer
