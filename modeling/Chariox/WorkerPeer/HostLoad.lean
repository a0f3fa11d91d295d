import Chariox.WorkerPeer.Moves

/-!
# Host load and the queue of frames

A worker that only answers calls leaves the host's calls and their cancellations in the queue.  A call that expires
before its frame has left the queue frees its place at once, while the retired frame stays, so a slow writer and a busy
host together fill the queue and the actor fails.

When every call is settled only after its frame has left the queue, the queue is bounded.  The cancellations behind any
point of the queue belong to calls whose frames were ahead of that point, and those were all pending at one time: for
every end of the queue, its cancellations together with the pending calls that have no frame in it are at most
`pendingCalls`.
-/

namespace Chariox.WorkerPeer.Peer

open OrdMap List

variable {c : PeerConfig} {s x : Peer} {id : String}

/-! ### The conditions -/

/-- The worker only answers calls, and only those whose frames have left the queue. -/
def answersOnly (s : Peer) : PeerAction → Bool
  | .receive (.response id) _ _ _ => !s.queued.contains (.call id)
  | .receive _ _ _ _ => false
  | _ => true

/-- A call expires, or is found dropped, only after its frame has left the queue. -/
def expiresSent (s : Peer) : PeerAction → Bool
  | .perform _ _ =>
    match s.agenda with
    | .expireCall id _ :: _ => !s.queued.contains (.call id)
    | _ => true
  | _ => true

/-! ### Counting frames -/

def Outgoing.isCall : Outgoing → Bool
  | .call _ => true
  | _ => false

def Outgoing.isCancel : Outgoing → Bool
  | .cancelCall _ => true
  | _ => false

theorem length_eq {fs : List Outgoing} (h : ∀ fr ∈ fs, fr.answers = none) :
    fs.length = fs.countP Outgoing.isCall + fs.countP Outgoing.isCancel := by
  induction fs with
  | nil => rfl
  | cons fr rest ih =>
    have hrest := ih fun f hf => h f (mem_cons_of_mem fr hf)
    have hfr := h fr mem_cons_self
    rw [countP_cons, countP_cons]
    cases fr with
    | response => cases hfr
    | _ => simp [Outgoing.isCall, Outgoing.isCancel]; omega

/-- The pending calls without a frame among the given ones. -/
def unqueuedCalls (pending : OrdMap String HostCall) (frames : List Outgoing) : Nat :=
  pending.sumBy (fun id _ => if .call id ∈ frames then 0 else 1)

theorem unqueuedCalls_nil (pend : OrdMap String HostCall) : unqueuedCalls pend [] = pend.len := by
  rw [len_eq_sumBy]
  simp [unqueuedCalls]

variable {pend : OrdMap String HostCall}

theorem unqueuedCalls_insert {call : HostCall} (h : pend.get id = none) (frames : List Outgoing) :
    unqueuedCalls (pend.insert id call) (frames ++ [.call id]) = unqueuedCalls pend frames := by
  have hins := sumBy_insert_of_none
    (fun id' _ => if .call id' ∈ frames ++ [Outgoing.call id] then 0 else 1) h call
  have hself : (if Outgoing.call id ∈ frames ++ [Outgoing.call id] then 0 else 1) = 0 :=
    if_pos (mem_append_right _ (mem_singleton_self _))
  have hsame : pend.sumBy (fun id' _ => if .call id' ∈ frames ++ [Outgoing.call id] then 0 else 1) =
      unqueuedCalls pend frames := by
    refine sumBy_congr ?_
    intro id' call' hg
    have hne : id' ≠ id := by
      rintro rfl
      rw [h] at hg
      cases hg
    simp [hne]
  unfold unqueuedCalls at hsame ⊢
  omega

theorem unqueuedCalls_cancel (pend : OrdMap String HostCall) (frames : List Outgoing) :
    unqueuedCalls pend (frames ++ [.cancelCall id]) = unqueuedCalls pend frames := by
  unfold unqueuedCalls
  simp

theorem unqueuedCalls_remove {call : HostCall} (h : pend.get id = some call)
    {frames : List Outgoing} (hf : .call id ∉ frames) :
    unqueuedCalls (pend.remove id) frames + 1 = unqueuedCalls pend frames := by
  have hrmv := sumBy_remove_of_some (fun id' _ => if .call id' ∈ frames then 0 else 1) h
  rw [if_neg hf] at hrmv
  exact hrmv

/-! ### The invariant -/

/-- The worker has sent no request, and no frame was refused. -/
structure Hushed (c : PeerConfig) (s : Peer) : Prop where
  config : s.config = c
  brokerWaiting : s.brokerWaiting = []
  active : s.active = .empty
  publishing : s.publishing = .empty
  handlers : s.handlers = []
  acks : s.acks = []
  writer : s.writer.acks = []
  plain : ∀ frame ∈ s.inFlight, frame.answers = none
  refused : s.sendRefused = false
  calls : s.pending.len + s.cancelled.len ≤ c.limits.pendingCalls

/-- The bounds on the cancellations and on the calls in every end of the queue. -/
structure Loaded (c : PeerConfig) (s : Peer) : Prop extends Hushed c s where
  cancels : ∀ frames, frames <:+ s.queued →
    frames.countP Outgoing.isCancel + unqueuedCalls s.pending frames ≤ c.limits.pendingCalls
  frames : ∀ frames, frames <:+ s.queued →
    frames.countP Outgoing.isCall + unqueuedCalls s.pending frames ≤ s.pending.len

/-- The two bounds of an end of the queue. -/
def Fits (limit : Nat) (pending : OrdMap String HostCall) (frames : List Outgoing) : Prop :=
  frames.countP Outgoing.isCancel + unqueuedCalls pending frames ≤ limit ∧
    frames.countP Outgoing.isCall + unqueuedCalls pending frames ≤ pending.len

theorem Hushed.loaded (h : Hushed c s)
    (ha : ∀ fs, fs <:+ s.queued → Fits c.limits.pendingCalls s.pending fs) : Loaded c s :=
  { h with
    cancels := fun fs hf => (ha fs hf).1
    frames := fun fs hf => (ha fs hf).2 }

theorem fits_nil {limit : Nat} (h : pend.len ≤ limit) : Fits limit pend [] := by
  unfold Fits
  rw [unqueuedCalls_nil, countP_nil, countP_nil]
  omega

theorem new_loaded (cfg : PeerConfig) : Loaded cfg (new cfg) := by
  refine Hushed.loaded ⟨rfl, rfl, rfl, rfl, rfl, rfl, rfl, nofun, rfl, Nat.zero_le _⟩ ?_
  intro fs hf
  rw [eq_nil_of_suffix_nil hf]
  exact fits_nil (Nat.zero_le _)

namespace Loaded

variable (hlimits : c.limits.pendingCalls ≤ 2 * c.limits.brokerHandlers + c.limits.queuedFrames)

section

variable (h : Loaded c s)

include h

theorem queued_length :
    s.queued.length + 2 * unqueuedCalls s.pending s.queued ≤ c.limits.pendingCalls + s.pending.len := by
  have hcncs := h.cancels s.queued suffix_rfl
  have hfrs := h.frames s.queued suffix_rfl
  have hlen := length_eq fun f hm => h.plain f (mem_append_left _ hm)
  omega

theorem removePending (hq : .call id ∉ s.queued) : Loaded c { s with pending := s.pending.remove id } := by
  cases hget : s.pending.get id with
  | none =>
    rw [remove_of_none hget]
    exact h
  | some =>
    have hlen := len_remove_of_some hget
    have hrest : ∀ frames, frames <:+ s.queued →
        unqueuedCalls (s.pending.remove id) frames + 1 = unqueuedCalls s.pending frames :=
      fun frames hf => unqueuedCalls_remove hget fun hm => hq (hf.subset hm)
    refine Hushed.loaded { h with calls := ?_ } ?_
    · have hcls := h.calls
      change (s.pending.remove id).len + s.cancelled.len ≤ c.limits.pendingCalls
      omega
    · intro frames hf
      have hcncs := h.cancels frames hf
      have hcls := h.frames frames hf
      have hone := hrest frames hf
      change Fits c.limits.pendingCalls (s.pending.remove id) frames
      unfold Fits
      omega

/-- A frame that answers nothing is queued when there is room; only an invalid one fails the actor. -/
theorem send {f : Outgoing} (hr : s.queued.length < c.limits.queueBound) :
    Ends (fun x => x = { s with queued := s.queued ++ [f], responses := s.responses ++ f.answers.toList })
      (Hushed c) (s.send f) := by
  have hlim : s.limits = c.limits := congrArg PeerConfig.limits h.config
  unfold Peer.send
  split
  · exact h.toHushed
  · rw [hlim, if_neg (Nat.not_le.2 hr)]
    exact rfl

theorem plain_push {fr : Outgoing} (hfr : fr.answers = none) :
    ∀ f ∈ (s.queued ++ [fr]) ++ (s.outgoing ++ s.writer.frames), f.answers = none := by
  obtain ⟨hq, hr⟩ := forall_mem_append.1 h.plain
  exact forall_mem_append.2 ⟨forall_mem_append.2 ⟨hq, forall_mem_singleton.2 hfr⟩, hr⟩

/-- A call becomes pending with its frame at the end of the queue. -/
theorem pushCall (hn : s.pending.get id = none) (call : HostCall)
    (hc : s.pending.len + s.cancelled.len < c.limits.pendingCalls) : Loaded c { s with
      queued := s.queued ++ [.call id]
      responses := s.responses ++ (Outgoing.call id).answers.toList
      pending := s.pending.insert id call } := by
  have hlen := len_insert_of_none hn call
  refine Hushed.loaded { h with plain := h.plain_push rfl, calls := ?_ } ?_
  · change (s.pending.insert id call).len + s.cancelled.len ≤ c.limits.pendingCalls
    omega
  · intro fs hf
    change Fits c.limits.pendingCalls (s.pending.insert id call) fs
    rcases suffix_concat_iff.1 hf with rfl | ⟨rest, rfl, hr⟩
    · exact fits_nil (by omega)
    have hcncs := h.cancels rest hr
    have hfrs := h.frames rest hr
    unfold Fits
    rw [unqueuedCalls_insert hn, countP_append, countP_append, hlen]
    simp only [countP_singleton, Outgoing.isCancel, Outgoing.isCall, Bool.false_eq_true, if_false, if_true]
    omega

/-- A pending call whose frame has left the queue gives way to its cancellation. -/
theorem pushCancel {call : HostCall} (hg : s.pending.get id = some call)
    (hq : .call id ∉ s.queued) (fs : OrdMap String FrameState) (cancelled : OrdMap String Nat)
    (hc : cancelled.len ≤ s.cancelled.len + 1) : Loaded c { s with
      pending := s.pending.remove id
      frames := fs
      cancelled := cancelled
      queued := s.queued ++ [.cancelCall id]
      responses := s.responses ++ (Outgoing.cancelCall id).answers.toList } := by
  have hlen := len_remove_of_some hg
  have hcls := h.calls
  have hrest : ∀ rest, rest <:+ s.queued →
      unqueuedCalls (s.pending.remove id) (rest ++ [.cancelCall id]) + 1 = unqueuedCalls s.pending rest := by
    intro rest hs
    rw [unqueuedCalls_cancel]
    exact unqueuedCalls_remove hg (fun hm => hq (hs.subset hm))
  refine Hushed.loaded { h with plain := h.plain_push rfl, calls := ?_ } ?_
  · change (s.pending.remove id).len + cancelled.len ≤ c.limits.pendingCalls
    omega
  · intro fs hf
    change Fits c.limits.pendingCalls (s.pending.remove id) fs
    rcases suffix_concat_iff.1 hf with rfl | ⟨rest, rfl, hs⟩
    · exact fits_nil (by omega)
    have hcncs := h.cancels rest hs
    have hfrs := h.frames rest hs
    have hone := hrest rest hs
    unfold Fits
    rw [countP_append, countP_append]
    simp only [countP_singleton, Outgoing.isCancel, Outgoing.isCall, Bool.false_eq_true, if_false, if_true]
    omega

/-! ### The parts of the actor's inputs -/

include hlimits in
theorem startCall (call : HostCall) (now : Nat) (hc : s.pending.len + s.cancelled.len < c.limits.pendingCalls) :
    Ends (Loaded c) (Hushed c) (s.startCall call now) := by
  unfold Peer.startCall
  split
  · exact h
  split
  · exact h
  split
  · exact h.toHushed
  rename_i hf
  rw [Bool.or_eq_true, not_or, Bool.not_eq_true] at hf
  have hnone : s.pending.get call.id = none := contains_eq_false.1 hf.1
  have hfrs : Loaded c { s with frames := s.frames.insert call.id .queued } := { h with }
  have hlen := h.queued_length
  refine (hfrs.send ?_).andThen ?_
  · change s.queued.length < c.limits.pendingCalls + 2 * c.limits.brokerHandlers + c.limits.queuedFrames
    omega
  · rintro x rfl
    exact hfrs.pushCall hnone call hc

end

include hlimits in
theorem startCalls (ck : String → Nat) (rounds : Nat) (h : Loaded c s) :
    Ends (Loaded c) (Hushed c) (startCalls ck rounds s) := by
  induction rounds generalizing s with
  | zero => exact h
  | succ rounds ih =>
    unfold Peer.startCalls
    split
    · exact h
    rename_i call rest hwaiting
    split
    · rename_i hr
      have hcalls : s.pending.len + s.cancelled.len < c.limits.pendingCalls := by
        rw [← h.config]
        exact hr
      have hrest : Loaded c { s with waiting := rest } := { h with }
      exact (hrest.startCall hlimits call (ck call.id) hcalls).andThen (fun x hx => ih hx)
    · exact h

section

variable (h : Loaded c s)

include h

include hlimits in
theorem expireCall (now : Nat) (hq : .call id ∉ s.queued) : Ends (Loaded c) (Hushed c) (s.expireCall id now) := by
  unfold Peer.expireCall
  cases hget : s.pending.get id with
  | none => exact h
  | some =>
    dsimp only [retire]
    split
    · have hlen := len_remove_of_some hget
      have hcanc := s.cancelled.len_insert_le id (now + unresponsiveGrace)
      have hcls := h.calls
      have hpushed := h.pushCancel hget hq (s.frames.insert id .retired)
        (s.cancelled.insert id (now + unresponsiveGrace)) hcanc
      have hrem : Loaded c { s with
          pending := s.pending.remove id
          frames := s.frames.insert id .retired
          cancelled := s.cancelled.insert id (now + unresponsiveGrace) } := by
        refine { h.removePending hq with calls := ?_ }
        change (s.pending.remove id).len + (s.cancelled.insert id (now + unresponsiveGrace)).len ≤ c.limits.pendingCalls
        omega
      have hlength := h.queued_length
      have hself := unqueuedCalls_remove hget hq
      refine (hrem.send ?_).imp ?_ fun _ hx => hx
      · change s.queued.length < c.limits.pendingCalls + 2 * c.limits.brokerHandlers + c.limits.queuedFrames
        omega
      · rintro x rfl
        exact hpushed
    · exact { h.removePending hq with }

theorem dispatchBrokers (ck : String → Nat) (rounds : Nat) :
    Ends (Loaded c) (Hushed c) (dispatchBrokers ck rounds s) := by
  cases rounds with
  | zero => exact h
  | succ =>
    unfold Peer.dispatchBrokers
    rw [h.brokerWaiting]
    exact h

theorem tick (now : Nat) : Ends (Loaded c) (Hushed c) (s.tick now) := by
  unfold Peer.tick
  rw [h.brokerWaiting]
  exact { h with }

theorem expireHandlers (now : Nat) : Ends (Loaded c) (Hushed c) (s.expireHandlers now) := by
  unfold Peer.expireHandlers
  rw [h.active]
  refine Ends.andThen (P := fun x => x = s) rfl ?_
  rintro x rfl
  rw [h.publishing]
  refine Ends.andThen (P := fun y => y = x) rfl ?_
  rintro y rfl
  split
  · exact h.toHushed
  · exact h

theorem answer (hq : .call id ∉ s.queued) (now : Nat) (wall : Option Nat) (seen : List String) :
    Ends (Loaded c) (Hushed c) (s.receive (.response id) now wall seen) := by
  unfold Peer.receive
  dsimp only
  split
  · exact { h.removePending hq with }
  refine { h with calls := ?_ }
  have hlen := s.cancelled.len_remove_le id
  have hcls := h.calls
  change s.pending.len + (s.cancelled.remove id).len ≤ c.limits.pendingCalls
  omega

theorem flush : Ends (Loaded c) (Hushed c) s.flush := by
  unfold Peer.flush
  split
  · exact h
  rename_i fr rest hq
  split
  · have hsfx : ∀ fs, fs <:+ rest → fs <:+ s.queued := by
      intro fs hfr
      rw [hq]
      exact hfr.trans (suffix_cons fr rest)
    refine { h with plain := ?_, cancels := ?_, frames := ?_ }
    · intro f hf
      refine h.plain f ?_
      simp only [inFlight, hq, mem_append, mem_cons] at hf ⊢
      tauto
    · exact fun fs hfr => h.cancels fs (hsfx fs hfr)
    · exact fun fs hfr => h.frames fs (hsfx fs hfr)
  · exact h

end

end Loaded

/-! ### Closing -/

theorem Hushed.shutdown (h : Hushed c s) (res : Option PeerError) : Loaded c (s.shutdown res) := by
  refine Hushed.loaded { h with brokerWaiting := rfl, plain := ?_, calls := ?_ } ?_
  · intro f hfr
    exact h.plain f (mem_append_right _ hfr)
  · have hcls := h.calls
    change 0 + s.cancelled.len ≤ c.limits.pendingCalls
    omega
  · intro fs hf
    rw [eq_nil_of_suffix_nil hf]
    exact fits_nil (Nat.zero_le _)

theorem settle_loaded {r : PeerResult} (h : Ends (Loaded c) (Hushed c) r) : Loaded c (settle r) := by
  obtain ⟨s, er⟩ := r
  cases er with
  | none => exact h
  | some er => exact h.shutdown (some er)

namespace Loaded

section

variable (hlimits : c.limits.pendingCalls ≤ 2 * c.limits.brokerHandlers + c.limits.queuedFrames) (h : Loaded c s)

include h

theorem input {f : Peer → PeerResult} (hf : Ends (Loaded c) (Hushed c) (f s)) : Loaded c (s.input f) := by
  unfold Peer.input
  split
  · exact h
  refine settle_loaded (hf.andThen ?_)
  intro x hx
  exact { hx with }

include hlimits in
theorem perform (now : Nat) (ck : String → Nat) (hs : expiresSent s (.perform now ck) = true) :
    Loaded c (s.perform now ck) := by
  unfold Peer.perform
  unfold expiresSent at hs
  split
  · exact h
  rename_i task rest ha
  have hrest : Loaded c { s with agenda := rest } := { h with }
  refine settle_loaded ?_
  cases task with
  | expireCall id time =>
    rw [ha] at hs
    refine hrest.expireCall hlimits time ?_
    simpa using hs
  | expireHandlers time => exact hrest.expireHandlers time
  | dispatch =>
    refine Ends.andThen (startCalls hlimits ck _ ?_) fun x hx => hx.dispatchBrokers ck _
    exact { hrest with }

/-! ### The host and the writer -/

theorem dropReply (id : String) : Loaded c (s.dropReply id) := by
  have hlen : (s.pending.mapValues fun _ => HostCall.drop id).len = s.pending.len := by
    simp [OrdMap.len, OrdMap.mapValues]
  have hunqu : ∀ frames,
      unqueuedCalls (s.pending.mapValues fun _ => HostCall.drop id) frames = unqueuedCalls s.pending frames := by
    simp [unqueuedCalls, OrdMap.sumBy, OrdMap.mapValues, Function.comp_def]
  refine Hushed.loaded { h with calls := ?_ } ?_
  · change (s.pending.mapValues fun _ => HostCall.drop id).len + s.cancelled.len ≤ c.limits.pendingCalls
    rw [hlen]
    exact h.calls
  · intro frames hf
    change Fits c.limits.pendingCalls (s.pending.mapValues fun _ => HostCall.drop id) frames
    unfold Fits
    rw [hunqu, hlen]
    exact ⟨h.cancels frames hf, h.frames frames hf⟩

theorem setWriter {w : WriterState} (hf : ∀ f ∈ w.frames, f ∈ s.writer.frames)
    (ha : w.acks = []) : Loaded c { s with writer := w } := by
  refine { h with writer := ha, plain := ?_ }
  intro f hfr
  refine h.plain f ?_
  simp only [inFlight, mem_append] at hfr ⊢
  rcases hfr with hq | ho | hwr
  · exact .inl hq
  · exact .inr (.inl ho)
  · exact .inr (.inr (hf f hwr))

theorem writerTake : Loaded c s.writerTake := by
  unfold Peer.writerTake
  split
  · rename_i ho
    refine { h with writer := rfl, plain := ?_ }
    intro f hfr
    refine h.plain f ?_
    simp only [inFlight, ho, WriterState.frames, mem_append, mem_cons, not_mem_nil,
      or_false] at hfr ⊢
    tauto
  · exact h

theorem not_response (sr : Nat) (id : String) (out : Outcome) (publ : Option Nat) :
    .response sr id out publ ∉ s.writer.frames := by
  intro hm
  have hanss := h.plain _ (mem_append_right _ (mem_append_right _ hm))
  cases hanss

theorem writerCheck (now : Nat) : Loaded c (s.writerCheck now) := by
  unfold Peer.writerCheck
  split
  · rename_i callId hwr
    split
    · have hsent : Loaded c { s with writer := .writing (.call callId) } :=
        h.setWriter (by rw [hwr]; exact fun _ hm => hm) rfl
      exact { hsent with }
    · exact h.setWriter nofun rfl
  · rename_i sr rid out dl hwr
    refine absurd ?_ (h.not_response sr rid out (some dl))
    rw [hwr]
    exact mem_singleton_self _
  · rename_i hwr
    exact h.setWriter (by rw [hwr]; exact fun _ hm => hm) rfl
  · exact h

theorem writerDone : Loaded c s.writerDone := by
  unfold Peer.writerDone
  split
  · rename_i sr rid out dl hwr
    refine absurd ?_ (h.not_response sr rid out (some dl))
    rw [hwr]
    exact mem_singleton_self _
  · have hidle : Loaded c { s with writer := .idle } := h.setWriter nofun rfl
    exact { hidle with }
  · exact h

theorem writerFail : Loaded c s.writerFail := by
  unfold Peer.writerFail
  split
  · exact h.setWriter nofun rfl
  · exact h

theorem writerAck : Loaded c s.writerAck := by
  unfold Peer.writerAck
  split
  · rename_i hwr
    have hacks := h.writer
    rw [hwr] at hacks
    cases hacks
  · exact h

theorem reserve (timeout now : Nat) : Loaded c (s.reserve timeout now) := by
  unfold Peer.reserve
  split <;> exact { h with }

theorem submit (now : Nat) : Loaded c (s.submit id now) := by
  unfold Peer.submit
  split
  · exact h
  have hslt : Loaded c { s with slots := s.slots.remove id } := { h with }
  dsimp only
  split <;> exact { hslt with }

theorem takeCommand : Ends (Loaded c) (Hushed c) s.takeCommand := by
  unfold Peer.takeCommand
  split <;> exact { h with }

theorem finishHandler (out : Outcome) (gd : Bool) (now : Nat) :
    Ends (Loaded c) (Hushed c) (s.finishHandler id out gd now) := by
  unfold Peer.finishHandler
  rw [h.handlers]
  exact h

theorem takeAck : Ends (Loaded c) (Hushed c) s.takeAck := by
  unfold Peer.takeAck
  rw [h.acks]
  exact h

/-! ### Runs -/

theorem receive (msg : WorkerMessage) (now : Nat) (wall : Option Nat) (seen : List String)
    (ha : answersOnly s (.receive msg now wall seen) = true) :
    Ends (Loaded c) (Hushed c) (s.receive msg now wall seen) := by
  cases msg with
  | response =>
    refine h.answer ?_ now wall seen
    simpa [answersOnly] using ha
  | _ => cases ha

include hlimits in
theorem step (a : PeerAction) (hanswers : answersOnly s a = true) (hs : expiresSent s a = true) :
    Loaded c (s.step a) := by
  cases a with
  | reserve timeout now => exact h.reserve timeout now
  | submit id now => exact h.submit now
  | dropSlot => exact { h with }
  | dropReply id => exact h.dropReply id
  | takeCommand => exact h.input h.takeCommand
  | receive msg now wall seen =>
    exact h.input (f := fun s => s.receive msg now wall seen) (h.receive msg now wall seen hanswers)
  | incomingFails => exact h.input (f := fun s => (s, some .io)) h.toHushed
  | finishHandler id out gd now =>
    exact h.input (f := fun s => s.finishHandler id out gd now) (h.finishHandler out gd now)
  | handlerPanics => exact h.input (f := fun s => (s, some .broker)) h.toHushed
  | flush => exact h.input h.flush
  | takeAck => exact h.input h.takeAck
  | tick now => exact h.input (f := fun s => s.tick now) (h.tick now)
  | perform now ck => exact h.perform hlimits now ck hs
  | close =>
    change Loaded c (if s.closed.isSome || !s.agenda.isEmpty then s else s.shutdown none)
    split
    · exact h
    · exact h.toHushed.shutdown none
  | writerTake => exact h.writerTake
  | writerCheck now => exact h.writerCheck now
  | writerDone => exact h.writerDone
  | writerFail => exact h.writerFail
  | writerAck => exact h.writerAck

end

end Loaded

theorem run_loaded {cfg : PeerConfig} {acts : List PeerAction}
    (hl : cfg.limits.pendingCalls ≤ 2 * cfg.limits.brokerHandlers + cfg.limits.queuedFrames)
    (h : everyStep step (fun s a => answersOnly s a && expiresSent s a) (new cfg) acts = true) :
    Loaded cfg (run cfg acts) := by
  refine foldl_induction ?_ (new_loaded cfg) h
  intro s a hs hok
  rw [Bool.and_eq_true] at hok
  exact hs.step hl a hok.1 hok.2

/-- A worker that only answers calls never makes the queue of frames overflow, as long as every call that expires or is
dropped has left the queue by then, and the rest of the queue's bound holds a cancellation for every call. -/
theorem host_load_fits (config : PeerConfig) (actions : List PeerAction)
    (hlimits : config.limits.pendingCalls ≤ 2 * config.limits.brokerHandlers + config.limits.queuedFrames)
    (h : everyStep step (fun s action => answersOnly s action && expiresSent s action) (new config) actions = true) :
    (run config actions).sendRefused = false ∧ (run config actions).queued.length ≤ config.limits.queueBound := by
  have hloaded := run_loaded hlimits h
  refine ⟨hloaded.refused, ?_⟩
  have hlen := hloaded.queued_length
  have hcls := hloaded.calls
  change (run config actions).queued.length ≤
    config.limits.pendingCalls + 2 * config.limits.brokerHandlers + config.limits.queuedFrames
  omega

/-- The host submits the next call and the actor starts it. -/
def startNext (n : Nat) : List PeerAction :=
  [.reserve 1000 0, .submit (hostId n) 0, .takeCommand, .perform 0 (fun _ => 0)]

/-- The caller drops the response to the call and the actor notices. -/
def dropNext (n : Nat) : List PeerAction :=
  [.dropReply (hostId n), .tick 0, .perform 0 (fun _ => 0), .perform 0 (fun _ => 0), .perform 0 (fun _ => 0)]

/-- The actor passes the first frame of its queue on. -/
def flushOne : List PeerAction := [.flush, .perform 0 (fun _ => 0)]

/-- A call is dropped after the writer started its frame; its cancellation is queued. -/
theorem host_load_fits_cancelled : let config : PeerConfig := ⟨.default, fun _ => true⟩
    let actions := startNext 1 ++ flushOne ++ [.writerTake, .writerCheck 0] ++ dropNext 1
    (run config actions).queued = [.cancelCall (hostId 1)] ∧
      (run config actions).sendRefused = false ∧ (run config actions).queued.length ≤ config.limits.queueBound :=
  ⟨by decide +kernel, host_load_fits _ _ (by decide) (by decide +kernel)⟩

/-- The writer is held up in the first call; the callers of all later calls drop them. -/
def blockedWriter : List PeerAction :=
  startNext 1 ++ flushOne ++ [.writerTake, .writerCheck 0] ++ startNext 2 ++ flushOne ++ dropNext 2 ++
    ([3, 4, 5, 6, 7].map (fun n => startNext n ++ dropNext n)).flatten ++ startNext 8

/-- The worker answers nothing and requests nothing; the frames of the dropped calls fill the queue, and the next call
closes the peer. -/
theorem dropped_calls_close_peer : let config : PeerConfig := ⟨⟨2, 1, 1, 1, 1, 5000, 30000⟩, fun _ => true⟩
    config.limits.validate = true ∧
      config.limits.pendingCalls ≤ 2 * config.limits.brokerHandlers + config.limits.queuedFrames ∧
      everyStep step answersOnly (new config) blockedWriter = true ∧
      (run config blockedWriter).sendRefused = true ∧ (run config blockedWriter).closed = some (some .busy) := by
  decide +kernel

end Chariox.WorkerPeer.Peer
