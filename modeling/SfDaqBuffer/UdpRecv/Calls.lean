/-
The calls of `get_frame_from_udp` with a log of what they do to the packets: the ones they copy, and
the ones that are still uncopied in the slots when they receive the next batch. The log is not part of
the program. A call keeps what copying a packet keeps.
-/
import SfDaqBuffer.UdpRecv.Receiver

namespace SfDaqBuffer.UdpRecv

/-! ## The slots -/

/-- The packets of the last batch that no call has copied yet. -/
def leftover (r : FrameUdpReceiver) : List JungfrauPacket :=
  if r.packetBufferLoaded then r.batch.drop r.packetBufferOffset else []

/-- The slots of a nonempty batch are counted by `packet_buffer_n_packets_`. -/
def Counted (r : FrameUdpReceiver) : Prop :=
  r.batch ≠ [] → (r.batch.length : Int) = r.packetBufferNPackets

/-- The receiver with other bookkeeping of the batch it holds. -/
abbrev FrameUdpReceiver.mark (r : FrameUdpReceiver) (loaded : Bool) (offset : Nat) :
    FrameUdpReceiver :=
  { r with packetBufferLoaded := loaded, packetBufferOffset := offset }

theorem batch_receiveMany_msgs (r : FrameUdpReceiver) (ps : List JungfrauPacket) :
    (receiveMany r (.msgs ps)).batch = ps := by
  unfold receiveMany FrameUdpReceiver.batch
  simp

theorem batch_receiveMany_error (r : FrameUdpReceiver) : (receiveMany r .error).batch = [] := by
  unfold receiveMany FrameUdpReceiver.batch
  simp

/-- The loop is at the last slot of the batch when no packet comes after this one. -/
theorem Counted.at_end {r : FrameUdpReceiver} (hr : Counted r) {i : Nat} {p : JungfrauPacket}
    {ps : List JungfrauPacket} (hi : r.batch.drop i = p :: ps) : (i : Int) + 1 = r.packetBufferNPackets ↔ ps = [] := by
  have hlen := congrArg List.length hi
  rw [List.length_drop, List.length_cons] at hlen
  have hne : r.batch ≠ [] := by
    rintro h
    rw [h, List.drop_nil] at hi
    cases hi
  have hn := hr hne
  rw [← List.length_eq_zero_iff]
  omega

theorem counted_receiveMany (r : FrameUdpReceiver) (ev : RecvMany) : Counted (receiveMany r ev) := by
  cases ev with
  | error => intro h; exact absurd (batch_receiveMany_error r) h
  | msgs ps => intro _; rw [batch_receiveMany_msgs]; rfl

theorem received_cons (r : FrameUdpReceiver) (ev : RecvMany) (evs : List RecvMany) :
    received (ev :: evs) = (receiveMany r ev).batch ++ received evs := by
  cases ev with
  | error => rw [batch_receiveMany_error]; rfl
  | msgs ps => rw [batch_receiveMany_msgs]; rfl

theorem moduleId_receiveMany (r : FrameUdpReceiver) (ev : RecvMany) :
    (receiveMany r ev).moduleId = r.moduleId := by cases ev <;> rfl

/-! ## The log -/

/-- What a call of `get_frame_from_udp` did to the packets it received. -/
structure CallLog where
  copied : List JungfrauPacket
  overwritten : List JungfrauPacket

def CallLog.copy (log : CallLog) (p : JungfrauPacket) : CallLog := { log with copied := log.copied ++ [p] }

/-- The slots of `r` are received again. -/
def CallLog.overwrite (log : CallLog) (r : FrameUdpReceiver) : CallLog :=
  { log with overwritten := log.overwritten ++ leftover r }

/-- `processLoop` with the log. -/
def processLoopLog (r : FrameUdpReceiver) :
    Nat → List JungfrauPacket → Frame → CallLog → (UInt64 × FrameUdpReceiver × Frame) × CallLog
  | _, [], f, log => ((0, r.mark false 0, f), log)
  | i, p :: ps, f, log =>
    if f.metadata.pulseId ≠ 0 ∧ f.metadata.frameIndex ≠ p.framenum then
      ((f.metadata.pulseId, r.mark true i, f), log)
    else
      let f := if f.metadata.pulseId = 0 then initFrame r.moduleId f p else f
      let f := copyPacketToBuffers f p
      let log := log.copy p
      if p.packetnum.toNat = jfNPacketsPerFrame - 1 then
        if (i : Int) + 1 ≠ r.packetBufferNPackets then ((f.metadata.pulseId, r.mark true (i + 1), f), log)
        else ((f.metadata.pulseId, r.mark false 0, f), log)
      else
        processLoopLog r (i + 1) ps f log

/-- The end of a call: what `process_packets` gave is returned, or more packets are received. -/
def finish (receive : FrameUdpReceiver → Frame → CallLog → Outcome × CallLog) (evs : List RecvMany) :
    (UInt64 × FrameUdpReceiver × Frame) × CallLog → Outcome × CallLog
  | ((pulseId, r, f), log) => if pulseId ≠ 0 then (.returned pulseId r f evs, log) else receive r f log

/-- `receiveLoop` with the log. -/
def receiveLoopLog : List RecvMany → FrameUdpReceiver → Frame → CallLog → Outcome × CallLog
  | [], r, f, log => (.receiving r f, log.overwrite r)
  | ev :: evs, r, f, log =>
    let log := log.overwrite r
    let r := receiveMany r ev
    if r.packetBufferNPackets = 0 then receiveLoopLog evs r f log
    else finish (receiveLoopLog evs) evs (processLoopLog r 0 r.batch f log)

/-- `getFrameFromUdp` with the log. -/
def getFrameFromUdpLog (r : FrameUdpReceiver) (f : Frame) (evs : List RecvMany) : Outcome × CallLog :=
  if r.packetBufferLoaded then
    finish (receiveLoopLog evs) evs
      (processLoopLog r r.packetBufferOffset (r.batch.drop r.packetBufferOffset) (resetFrame f) ⟨[], []⟩)
  else receiveLoopLog evs r (resetFrame f) ⟨[], []⟩

theorem processLoopLog_fst (r : FrameUdpReceiver) : ∀ (ps : List JungfrauPacket) (i : Nat) (f : Frame) (log : CallLog),
    (processLoopLog r i ps f log).1 = processLoop r i ps f
  | [], _, _, _ => rfl
  | p :: ps, i, f, log => by
    unfold processLoopLog processLoop
    simp only
    split
    · rfl
    · split
      · split <;> rfl
      · exact processLoopLog_fst r ps (i + 1) _ _

/-- What the loop does with the next packet: it stops in front of a packet of another trigger, it stops
behind the last packet of a frame, or it goes on behind the packet. -/
theorem processLoopLog_cases {r : FrameUdpReceiver} (hr : Counted r) {i : Nat} {p : JungfrauPacket}
    {ps : List JungfrauPacket} (hi : r.batch.drop i = p :: ps) {f f' : Frame}
    (hcopy : copyPacketToBuffers (if f.metadata.pulseId = 0 then initFrame r.moduleId f p else f) p = f')
    (log : CallLog) :
    ((f.metadata.pulseId ≠ 0 ∧ f.metadata.frameIndex ≠ p.framenum) ∧ leftover (r.mark true i) = p :: ps ∧
      processLoopLog r i (p :: ps) f log = ((f.metadata.pulseId, r.mark true i, f), log)) ∨
    (¬ (f.metadata.pulseId ≠ 0 ∧ f.metadata.frameIndex ≠ p.framenum) ∧ p.packetnum.toNat = jfNPacketsPerFrame - 1 ∧
      ∃ loaded offset, leftover (r.mark loaded offset) = ps ∧ (ps = [] → loaded = false ∧ offset = 0) ∧
        (ps ≠ [] → loaded = true) ∧
        processLoopLog r i (p :: ps) f log = ((f'.metadata.pulseId, r.mark loaded offset, f'), log.copy p)) ∨
    (¬ (f.metadata.pulseId ≠ 0 ∧ f.metadata.frameIndex ≠ p.framenum) ∧ p.packetnum.toNat ≠ jfNPacketsPerFrame - 1 ∧
      r.batch.drop (i + 1) = ps ∧
      processLoopLog r i (p :: ps) f log = processLoopLog r (i + 1) ps f' (log.copy p)) := by
  have hi' : r.batch.drop (i + 1) = ps := by
    rw [← List.drop_drop, hi]
    rfl
  have hend := hr.at_end hi
  subst hcopy
  by_cases hcut : f.metadata.pulseId ≠ 0 ∧ f.metadata.frameIndex ≠ p.framenum
  · refine .inl ⟨hcut, hi, ?_⟩
    rw [processLoopLog, if_pos hcut]
  by_cases hlast : p.packetnum.toNat = jfNPacketsPerFrame - 1
  · refine .inr (.inl ⟨hcut, hlast, ?_⟩)
    by_cases hmore : (i : Int) + 1 ≠ r.packetBufferNPackets
    · have hne : ps ≠ [] := fun hnil => hmore (hend.2 hnil)
      refine ⟨true, i + 1, hi', fun hnil => absurd hnil hne, fun _ => rfl, ?_⟩
      rw [processLoopLog]
      simp only [if_neg hcut, if_pos hlast, if_pos hmore]
    · -- the packet was in the last slot, so nothing is left
      have hnil : ps = [] := hend.1 (not_not.1 hmore)
      refine ⟨false, 0, hnil.symm, fun _ => ⟨rfl, rfl⟩, fun hne => absurd hnil hne, ?_⟩
      rw [processLoopLog]
      simp only [if_neg hcut, if_pos hlast, if_neg hmore]
  · refine .inr (.inr ⟨hcut, hlast, hi', ?_⟩)
    rw [processLoopLog]
    simp only [if_neg hcut, if_neg hlast]

/-- The same without the log. -/
theorem processLoop_cases {r : FrameUdpReceiver} (hr : Counted r) {i : Nat} {p : JungfrauPacket}
    {ps : List JungfrauPacket} (hi : r.batch.drop i = p :: ps) {f f' : Frame}
    (hcopy : copyPacketToBuffers (if f.metadata.pulseId = 0 then initFrame r.moduleId f p else f) p = f') :
    ((f.metadata.pulseId ≠ 0 ∧ f.metadata.frameIndex ≠ p.framenum) ∧ leftover (r.mark true i) = p :: ps ∧
      processLoop r i (p :: ps) f = (f.metadata.pulseId, r.mark true i, f)) ∨
    (¬ (f.metadata.pulseId ≠ 0 ∧ f.metadata.frameIndex ≠ p.framenum) ∧ p.packetnum.toNat = jfNPacketsPerFrame - 1 ∧
      ∃ loaded offset, leftover (r.mark loaded offset) = ps ∧ (ps = [] → loaded = false ∧ offset = 0) ∧
        processLoop r i (p :: ps) f = (f'.metadata.pulseId, r.mark loaded offset, f')) ∨
    (¬ (f.metadata.pulseId ≠ 0 ∧ f.metadata.frameIndex ≠ p.framenum) ∧ p.packetnum.toNat ≠ jfNPacketsPerFrame - 1 ∧
      r.batch.drop (i + 1) = ps ∧ processLoop r i (p :: ps) f = processLoop r (i + 1) ps f') := by
  have hfst := processLoopLog_fst r (p :: ps) i f ⟨[], []⟩
  rcases processLoopLog_cases hr hi hcopy ⟨[], []⟩ with ⟨hcut, hleft, hout⟩ |
    ⟨hcut, hlast, loaded, offset, hleft, hnil, -, hout⟩ | ⟨hcut, hlast, hi', hout⟩
  · rw [hout] at hfst
    exact .inl ⟨hcut, hleft, hfst.symm⟩
  · rw [hout] at hfst
    exact .inr (.inl ⟨hcut, hlast, loaded, offset, hleft, hnil, hfst.symm⟩)
  · rw [hout, processLoopLog_fst] at hfst
    exact .inr (.inr ⟨hcut, hlast, hi', hfst.symm⟩)

theorem finish_fst {receive : FrameUdpReceiver → Frame → CallLog → Outcome × CallLog} {evs : List RecvMany}
    (h : ∀ r f log, (receive r f log).1 = receiveLoop evs r f) (out : (UInt64 × FrameUdpReceiver × Frame) × CallLog) :
    (finish receive evs out).1 =
      match out.1 with
      | (pulseId, r, f) => if pulseId ≠ 0 then .returned pulseId r f evs else receiveLoop evs r f := by
  obtain ⟨⟨pulseId, r, f⟩, log⟩ := out
  unfold finish
  simp only
  split
  · rfl
  · exact h r f log

theorem receiveLoopLog_fst : ∀ (evs : List RecvMany) (r : FrameUdpReceiver) (f : Frame) (log : CallLog),
    (receiveLoopLog evs r f log).1 = receiveLoop evs r f
  | [], _, _, _ => rfl
  | ev :: evs, r, f, log => by
    unfold receiveLoopLog receiveLoop
    simp only
    split
    · exact receiveLoopLog_fst evs _ _ _
    · rw [finish_fst (receiveLoopLog_fst evs), processLoopLog_fst]
      rfl

/-- The log does not change a call. -/
theorem getFrameFromUdpLog_fst (r : FrameUdpReceiver) (f : Frame) (evs : List RecvMany) :
    (getFrameFromUdpLog r f evs).1 = getFrameFromUdp r f evs := by
  unfold getFrameFromUdpLog getFrameFromUdp
  simp only
  split
  · rw [finish_fst (receiveLoopLog_fst evs), processLoopLog_fst]
    rfl
  · exact receiveLoopLog_fst evs _ _ _

/-! ## What a call keeps -/

/-- Copying a packet that is `Q` keeps a relation between the packets that a call has copied and its
frame. -/
structure KeptByCopy (moduleId : Int) (Q : JungfrauPacket → Prop) (I : List JungfrauPacket → Frame → Prop) :
    Prop where
  reset : ∀ f, I [] (resetFrame f)
  copy : ∀ {copied f p}, I copied f → Q p → (f.metadata.pulseId ≠ 0 → f.metadata.frameIndex = p.framenum) →
    I (copied ++ [p]) (copyPacketToBuffers (if f.metadata.pulseId = 0 then initFrame moduleId f p else f) p)

/-- What `process_packets` does with the packets `ps` of the slots. -/
structure Processed (I : List JungfrauPacket → Frame → Prop) (r : FrameUdpReceiver)
    (copied ps : List JungfrauPacket) (out : (UInt64 × FrameUdpReceiver × Frame) × CallLog) : Prop where
  receiver : ∃ loaded offset, out.1.2.1 = r.mark loaded offset
  keeps : I out.2.copied out.1.2.2
  pulseId : out.1.1 = 0 ∨ out.1.1 = out.1.2.2.metadata.pulseId
  copied : ∃ read, ps = read ++ leftover out.1.2.1 ∧ out.2.copied.Sublist (copied ++ read)

section

variable {moduleId : Int} {Q : JungfrauPacket → Prop} {I : List JungfrauPacket → Frame → Prop}

theorem processLoopLog_keeps {r : FrameUdpReceiver} (hI : KeptByCopy r.moduleId Q I) :
    ∀ (ps : List JungfrauPacket) (i : Nat) (f : Frame) (log : CallLog), I log.copied f → (∀ p ∈ ps, Q p) →
      r.batch.drop i = ps → Processed I r log.copied ps (processLoopLog r i ps f log)
  | [], _, _, _, hf, _, _ => ⟨⟨_, _, rfl⟩, hf, .inl rfl, [], rfl, by rw [List.append_nil]; exact .refl _⟩
  | p :: ps, i, f, log, hf, hQ, hi => by
    have hi' : r.batch.drop (i + 1) = ps := by
      rw [← List.drop_drop, hi]; rfl
    unfold processLoopLog
    simp only
    split
    · refine ⟨⟨_, _, rfl⟩, hf, .inr rfl, [], hi.symm, ?_⟩
      rw [List.append_nil]
    · rename_i hcut
      have hframe : f.metadata.pulseId ≠ 0 → f.metadata.frameIndex = p.framenum := by
        intro h0
        by_contra hne
        exact hcut ⟨h0, hne⟩
      have hcopy := hI.copy hf (hQ p (List.mem_cons_self ..)) hframe
      split
      · split
        · exact ⟨⟨_, _, rfl⟩, hcopy, .inr rfl, [p], congrArg (p :: ·) hi'.symm, .refl _⟩
        · refine ⟨⟨_, _, rfl⟩, hcopy, .inr rfl, p :: ps, (List.append_nil _).symm, ?_⟩
          exact (List.Sublist.refl _).append ( List.Sublist.cons_cons p (List.nil_sublist ps))
      · obtain ⟨hr, hkeeps, hpulse, read, hps, hsub⟩ := processLoopLog_keeps hI ps (i + 1) _ (log.copy p) hcopy
          (fun q hq => hQ q (List.mem_cons_of_mem _ hq)) hi'
        refine ⟨hr, hkeeps, hpulse, p :: read, congrArg (p :: ·) hps, ?_⟩
        rwa [CallLog.copy, List.append_assoc] at hsub

/-- What a call with the copied packets `copied` does with the unread stream `ps`. -/
inductive CallKeeps (moduleId : Int) (I : List JungfrauPacket → Frame → Prop) (copied ps : List JungfrauPacket) :
    Outcome × CallLog → Prop
  | returned {r f rest log} (read : List JungfrauPacket) : r.moduleId = moduleId → I log.copied f →
      f.metadata.pulseId ≠ 0 → ps = read ++ (leftover r ++ received rest) → log.copied.Sublist (copied ++ read) →
      CallKeeps moduleId I copied ps (.returned f.metadata.pulseId r f rest, log)
  | receiving {r f log} : I log.copied f → log.copied.Sublist (copied ++ ps) →
      CallKeeps moduleId I copied ps (.receiving r f, log)

/-- The part of a call after it has read the front of the stream. -/
theorem CallKeeps.after {copied copied' read ps : List JungfrauPacket} {out : Outcome × CallLog}
    (h : CallKeeps moduleId I copied' ps out) (hsub : copied'.Sublist (copied ++ read)) :
    CallKeeps moduleId I copied (read ++ ps) out := by
  cases h with
  | returned read' hid hI h0 hps hsub' =>
    refine .returned (read ++ read') hid hI h0 (by rw [hps, List.append_assoc]) (hsub'.trans ?_)
    rw [← List.append_assoc]
    exact hsub.append (.refl _)
  | receiving hI hsub' =>
    refine .receiving hI (hsub'.trans ?_)
    rw [← List.append_assoc]
    exact hsub.append (.refl _)

theorem finish_keeps {r : FrameUdpReceiver} {copied ps : List JungfrauPacket} {evs : List RecvMany}
    {out : (UInt64 × FrameUdpReceiver × Frame) × CallLog} (h : Processed I r copied ps out)
    (ih : ∀ r' f' log', FrameUdpReceiver.moduleId r' = r.moduleId → I (CallLog.copied log') f' →
      CallKeeps r.moduleId I log'.copied (received evs) (receiveLoopLog evs r' f' log')) :
    CallKeeps r.moduleId I copied (ps ++ received evs) (finish (receiveLoopLog evs) evs out) := by
  obtain ⟨⟨pulseId, r', f'⟩, log'⟩ := out
  obtain ⟨⟨loaded, offset, hr⟩, hkeeps, hpulse, read, hps, hsub⟩ := h
  simp only at hr hkeeps hpulse hps hsub
  subst hr
  unfold finish
  simp only
  split
  · rename_i h0
    obtain rfl := hpulse.resolve_left h0
    exact .returned read rfl hkeeps h0 (by rw [hps, List.append_assoc]) hsub
  · refine (ih (r.mark loaded offset) f' log' rfl hkeeps).after (hsub.trans ?_)
    rw [hps, ← List.append_assoc]
    exact List.sublist_append_left ..

theorem receiveLoopLog_keeps (hI : KeptByCopy moduleId Q I) : ∀ (evs : List RecvMany) (r : FrameUdpReceiver)
    (f : Frame) (log : CallLog), r.moduleId = moduleId → I log.copied f → (∀ p ∈ received evs, Q p) →
      CallKeeps moduleId I log.copied (received evs) (receiveLoopLog evs r f log)
  | [], _, _, _, _, hf, _ => .receiving hf (List.sublist_append_left ..)
  | ev :: evs, r, f, log, hid, hf, hQ => by
    rw [received_cons r] at hQ ⊢
    have hid' : (receiveMany r ev).moduleId = moduleId := (moduleId_receiveMany r ev).trans hid
    have ih : ∀ r' f' log', FrameUdpReceiver.moduleId r' = moduleId → I (CallLog.copied log') f' →
        CallKeeps moduleId I log'.copied (received evs) (receiveLoopLog evs r' f' log') :=
      fun r' f' log' hr' hf' => receiveLoopLog_keeps hI evs r' f' log' hr' hf'
        fun p hp => hQ p (List.mem_append_right _ hp)
    unfold receiveLoopLog
    simp only
    split
    · exact (ih _ f (log.overwrite r) hid' hf).after (List.sublist_append_left ..)
    · subst hid'
      exact finish_keeps (processLoopLog_keeps hI _ 0 f (log.overwrite r) hf
        (fun p hp => hQ p (List.mem_append_left _ hp)) rfl) ih

/-- The rule for a call. -/
theorem getFrameFromUdpLog_keeps {r : FrameUdpReceiver} (hI : KeptByCopy r.moduleId Q I) (f : Frame)
    (evs : List RecvMany) (hQ : ∀ p ∈ leftover r ++ received evs, Q p) :
    CallKeeps r.moduleId I [] (leftover r ++ received evs) (getFrameFromUdpLog r f evs) := by
  have hf := hI.reset f
  have hevs : ∀ p ∈ received evs, Q p := fun p hp => hQ p (List.mem_append_right _ hp)
  unfold getFrameFromUdpLog
  split
  · rename_i hl
    have hleft : leftover r = r.batch.drop r.packetBufferOffset := if_pos hl
    rw [hleft] at hQ ⊢
    exact finish_keeps (processLoopLog_keeps hI _ _ _ ⟨[], []⟩ hf (fun p hp => hQ p (List.mem_append_left _ hp)) rfl)
      fun r' f' log' hid hf' => receiveLoopLog_keeps hI evs r' f' log' hid hf' hevs
  · rename_i hl
    have hleft : leftover r = [] := if_neg hl
    rw [hleft]
    exact receiveLoopLog_keeps hI evs r _ ⟨[], []⟩ rfl hf hevs

end

/-! ## Successive calls -/

/-- The first `n` calls on the same out parameters, up to the first one that waits for packets. -/
def callsLog : Nat → FrameUdpReceiver → Frame → List RecvMany → List (Outcome × CallLog)
  | 0, _, _, _ => []
  | n + 1, r, f, evs =>
    match getFrameFromUdpLog r f evs with
    | (.returned pulseId r f rest, log) => (.returned pulseId r f rest, log) :: callsLog n r f rest
    | (.receiving r f, log) => [(.receiving r f, log)]

/-- The frame of a call that has returned. -/
def Outcome.frame? : Outcome → Option (UInt64 × Frame)
  | .returned pulseId _ f _ => some (pulseId, f)
  | .receiving _ _ => none

theorem mem_callsLog_first (n : Nat) (r : FrameUdpReceiver) (f : Frame) (evs : List RecvMany) :
    getFrameFromUdpLog r f evs ∈ callsLog (n + 1) r f evs := by
  unfold callsLog
  rcases getFrameFromUdpLog r f evs with ⟨⟨pulseId, r', f', rest⟩ | ⟨r', f'⟩, log⟩
  · exact List.mem_cons_self ..
  · exact List.mem_cons_self ..

/-- The calls return what they return without the log. -/
theorem callsLog_frames : ∀ (n : Nat) (r : FrameUdpReceiver) (f : Frame) (evs : List RecvMany),
    (callsLog n r f evs).filterMap (·.1.frame?) = calls n r f evs
  | 0, _, _, _ => rfl
  | n + 1, r, f, evs => by
    unfold callsLog calls
    rw [← getFrameFromUdpLog_fst]
    rcases getFrameFromUdpLog r f evs with ⟨⟨pulseId, r', f', rest⟩ | ⟨r', f'⟩, log⟩
    · exact congrArg ((pulseId, f') :: ·) (callsLog_frames n r' f' rest)
    · rfl

/-- The rule for every call of a run. -/
theorem callsLog_keeps {moduleId : Int} {Q : JungfrauPacket → Prop} {I : List JungfrauPacket → Frame → Prop}
    (hI : KeptByCopy moduleId Q I) : ∀ (n : Nat) (r : FrameUdpReceiver) (f : Frame) (evs : List RecvMany),
      r.moduleId = moduleId → (∀ p ∈ leftover r ++ received evs, Q p) →
        ∀ out ∈ callsLog n r f evs, ∃ ps, ps <:+ leftover r ++ received evs ∧ CallKeeps moduleId I [] ps out
  | 0, _, _, _, _, _ => fun out hout => by cases hout
  | n + 1, r, f, evs, hid, hQ => by
    subst hid
    have hcall := getFrameFromUdpLog_keeps hI f evs hQ
    intro out hout
    unfold callsLog at hout
    generalize getFrameFromUdpLog r f evs = first at hcall hout
    cases hcall with
    | receiving hf hsub =>
      rw [List.mem_singleton.1 hout]
      exact ⟨_, List.suffix_refl _, .receiving hf hsub⟩
    | @returned r' f' rest log read hid hf h0 hps hsub =>
      rcases List.mem_cons.1 hout with rfl | hout
      · exact ⟨_, List.suffix_refl _, .returned read hid hf h0 hps hsub⟩
      · rw [hps] at hQ ⊢
        obtain ⟨ps, hsuf, hout⟩ := callsLog_keeps hI n r' f' rest hid
          (fun p hp => hQ p (List.mem_append_right _ hp)) out hout
        exact ⟨ps, hsuf.trans (List.suffix_append ..), hout⟩

theorem CallKeeps.sublist {moduleId : Int} {I : List JungfrauPacket → Frame → Prop} {ps : List JungfrauPacket}
    {out : Outcome × CallLog} (h : CallKeeps moduleId I [] ps out) : out.2.copied.Sublist ps := by
  cases h with
  | receiving _ hsub => exact hsub
  | returned read _ _ _ hps hsub =>
    rw [hps]
    exact hsub.trans (List.sublist_append_left ..)

/-- A call copies packets of the stream, in its order. -/
theorem callsLog_copied (n : Nat) (r : FrameUdpReceiver) (f : Frame) (evs : List RecvMany) :
    ∀ out ∈ callsLog n r f evs, out.2.copied.Sublist (leftover r ++ received evs) := by
  have hI : KeptByCopy r.moduleId (fun _ => True) fun _ _ => True := ⟨fun _ => trivial, fun _ _ _ => trivial⟩
  intro out hout
  obtain ⟨ps, hsuf, hkeeps⟩ := callsLog_keeps hI n r f evs rfl (fun _ _ => trivial) out hout
  exact hkeeps.sublist.trans hsuf.sublist

end SfDaqBuffer.UdpRecv
