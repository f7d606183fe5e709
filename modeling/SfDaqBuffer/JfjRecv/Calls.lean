/-
What a call of `get_frame_from_udp` keeps, for `JfjFrameUdpReceiver`: a relation between
`m_frame_index`, the packets that the call has copied and its frame that copying a packet keeps holds
of every frame that is returned.
-/
import SfDaqBuffer.JfjRecv.Receiver

namespace SfDaqBuffer.JfjRecv

/-- Copying a packet that is `Q` keeps a relation between `m_frame_index`, the packets that a call has
copied and its frame. While the frame has no pulse_id, `m_frame_index` may change. -/
structure KeptByCopy (Q : JfjochPacket → Prop) (I : UInt64 → List JfjochPacket → Frame → Prop) : Prop where
  reset : ∀ m f, I m [] (resetFrame f)
  copy : ∀ {m copied f p}, I m copied f → Q p → m = p.framenum →
    I p.framenum (copied ++ [p]) (copyPacket (initFrame f p) p)
  renumber : ∀ {m copied f} m', I m copied f → f.metadata.pulseId = 0 → I m' copied f

/-- What `process_packets` does with the packets `l` of the buffer. -/
structure Copies (I : UInt64 → List JfjochPacket → Frame → Prop) (copied l : List JfjochPacket)
    (out : UInt64 × JfjFrameUdpReceiver × Frame × CallLog) : Prop where
  wf : out.2.1.mBuffer.WF
  keeps : ∃ m, I m out.2.2.2.copied out.2.2.1
  keeps_open : out.1 = 0 → I out.2.1.mFrameIndex out.2.2.2.copied out.2.2.1
  pulseId : out.1 = 0 ∨ out.1 = out.2.2.1.metadata.pulseId
  stream : ∃ read, l = read ++ out.2.1.mBuffer.content ∧ out.2.2.2.copied = copied ++ read

variable {Q : JfjochPacket → Prop} {I : UInt64 → List JfjochPacket → Frame → Prop}

theorem processLoop_copies (hI : KeptByCopy Q I) : ∀ (n : Nat) (r : JfjFrameUdpReceiver) (f : Frame) (log : CallLog)
    (l : List JfjochPacket), r.mBuffer.WF → r.mBuffer.content = l → (∀ p ∈ l, Q p) →
      I r.mFrameIndex log.copied f → ∃ out, processLoop n r f log = .ok out ∧ Copies I log.copied l out
  | 0, r, f, log, l, hw, hl, _, hf =>
    ⟨_, rfl, hw, ⟨_, hf⟩, fun _ => hf, .inl rfl, [], hl.symm, (List.append_nil _).symm⟩
  | n + 1, r, f, log, [], hw, hl, _, hf => by
    rw [processLoop_empty n f log hw hl]
    exact ⟨_, rfl, hw, ⟨_, hf⟩, fun _ => hf, .inl rfl, [], hl.symm, (List.append_nil _).symm⟩
  | n + 1, r, f, log, p :: l, hw, hl, hQ, hf => by
    obtain ⟨b', hb', hw', hround⟩ := processLoop_front n f log hw hl
    rw [hround]
    by_cases hm : r.mFrameIndex ≠ p.framenum
    · -- the frame is closed with the packets it has
      rw [if_pos hm]
      exact ⟨_, rfl, hw, ⟨_, hf⟩, fun hpulse => hI.renumber _ hf hpulse, .inr rfl, [], hl.symm,
        (List.append_nil _).symm⟩
    · rw [if_neg hm]
      rw [not_not] at hm
      have hf' := hI.copy hf (hQ p (List.mem_cons_self ..)) hm
      split
      · exact ⟨_, rfl, hw', ⟨_, hf'⟩, fun _ => hf', .inr rfl, [p], congrArg (p :: ·) hb'.symm, rfl⟩
      · obtain ⟨out, hout, hc⟩ := processLoop_copies hI n ⟨p.framenum, b'⟩ _ (log.copy p) l hw' hb'
          (fun q hq => hQ q (List.mem_cons_of_mem _ hq)) hf'
        obtain ⟨read, hl', hcopied⟩ := hc.stream
        refine ⟨out, hout, hc.wf, hc.keeps, hc.keeps_open, hc.pulseId, p :: read, congrArg (p :: ·) hl', ?_⟩
        rw [hcopied, CallLog.copy, List.append_assoc]
        rfl

/-- What a call that has copied `copied` so far does with the unread stream. -/
inductive CallKeeps (I : UInt64 → List JfjochPacket → Frame → Prop) (copied ps : List JfjochPacket) : Outcome → Prop
  | returned {m r f log rest} (read : List JfjochPacket) : r.mBuffer.WF → I m log.copied f →
      f.metadata.pulseId ≠ 0 → ps = read ++ (r.mBuffer.content ++ received rest) →
      log.copied.Sublist (copied ++ read) → CallKeeps I copied ps (.returned f.metadata.pulseId r f log rest)
  | receiving {m r f log} : I m log.copied f → log.copied.Sublist (copied ++ ps) →
      CallKeeps I copied ps (.receiving r f log)

/-- The part of a call after it has read the front of the stream. -/
theorem CallKeeps.after {copied copied' read ps : List JfjochPacket} {out : Outcome}
    (h : CallKeeps I copied' ps out) (hsub : copied'.Sublist (copied ++ read)) :
    CallKeeps I copied (read ++ ps) out := by
  cases h with
  | returned read' hw hI hpulse hps hsub' =>
    refine .returned (read ++ read') hw hI hpulse (by rw [hps, List.append_assoc]) (hsub'.trans ?_)
    rw [← List.append_assoc]
    exact hsub.append (.refl _)
  | receiving hI hsub' =>
    refine .receiving hI (hsub'.trans ?_)
    rw [← List.append_assoc]
    exact hsub.append (.refl _)

/-- The end of a call after `process_packets`. -/
theorem processed_keeps (hI : KeptByCopy Q I) {r : JfjFrameUdpReceiver} {f : Frame} {log : CallLog}
    {evs : List RecvMany} (hw : r.mBuffer.WF) (hf : I r.mFrameIndex log.copied f) (hQ : ∀ p ∈ r.mBuffer.content, Q p)
    (ih : ∀ r' f' log', I (JfjFrameUdpReceiver.mFrameIndex r') (CallLog.copied log') f' →
      CallKeeps I log'.copied (received evs) (receiveLoop evs r' f' log')) :
    CallKeeps I log.copied (r.mBuffer.content ++ received evs)
      (match processPackets r f log with
      | .error e => .threw e
      | .ok (pulseId, r, f, log) =>
        if pulseId ≠ 0 then .returned pulseId r f log evs else receiveLoop evs r f log) := by
  obtain ⟨⟨pulseId, r', f', log'⟩, hout, hc⟩ := processLoop_copies hI r.mBuffer.size.toNat r f log _ hw rfl hQ hf
  obtain ⟨hw', ⟨m, hf'⟩, hopen, hreturned, read, hl, hcopied⟩ := hc
  simp only at hw' hf' hopen hreturned hl hcopied
  unfold processPackets
  rw [hout]
  simp only
  split
  · rename_i hpulse
    obtain rfl := hreturned.resolve_left hpulse
    exact .returned read hw' hf' hpulse (by rw [hl, List.append_assoc]) (by rw [hcopied])
  · rename_i hpulse
    rw [not_not] at hpulse
    -- what is left in the buffer is dropped
    apply (ih r' f' log' (hopen hpulse)).after
    rw [hcopied, hl, ← List.append_assoc]
    exact List.sublist_append_left ..

theorem receiveLoop_keeps (hI : KeptByCopy Q I) : ∀ (evs : List RecvMany) (r : JfjFrameUdpReceiver) (f : Frame)
    (log : CallLog), (∀ p ∈ received evs, Q p) → I r.mFrameIndex log.copied f →
      CallKeeps I log.copied (received evs) (receiveLoop evs r f log)
  | [], _, _, _, _, hf => .receiving hf (List.sublist_append_left ..)
  | ev :: evs, r, f, log, hQ, hf => by
    have ih : ∀ r' f' log', I (JfjFrameUdpReceiver.mFrameIndex r') (CallLog.copied log') f' →
        CallKeeps I log'.copied (received evs) (receiveLoop evs r' f' log') :=
      fun r' f' log' hf' => receiveLoop_keeps hI evs r' f' log'
        (fun p hp => hQ p (List.mem_append_right ev.items hp)) hf'
    have hw := PacketBuffer.fillFrom_wf (resetBuffer r log).1.mBuffer ev
    have hps : received (ev :: evs) = ((resetBuffer r log).1.mBuffer.fillFrom ev).content ++ received evs := by
      rw [PacketBuffer.content_fillFrom]
      rfl
    rw [hps] at hQ ⊢
    unfold receiveLoop
    simp only
    generalize (resetBuffer r log).1.mBuffer.fillFrom ev = b at hw hQ ⊢
    split
    · exact (ih ⟨r.mFrameIndex, b⟩ f (resetBuffer r log).2 hf).after (List.sublist_append_left ..)
    · exact @processed_keeps Q I hI ⟨r.mFrameIndex, b⟩ f (resetBuffer r log).2 evs hw hf
        (fun p hp => hQ p (List.mem_append_left _ hp)) ih

/-- The rule for a call. -/
theorem getFrameFromUdp_keeps (hI : KeptByCopy Q I) {r : JfjFrameUdpReceiver} (hw : r.mBuffer.WF) (f : Frame)
    (evs : List RecvMany) (hQ : ∀ p ∈ r.mBuffer.content ++ received evs, Q p) :
    CallKeeps I [] (r.mBuffer.content ++ received evs) (getFrameFromUdp r f evs) := by
  have hf := hI.reset r.mFrameIndex f
  have ih : ∀ r' f' log', I (JfjFrameUdpReceiver.mFrameIndex r') (CallLog.copied log') f' →
      CallKeeps I log'.copied (received evs) (receiveLoop evs r' f' log') :=
    fun r' f' log' hf' => receiveLoop_keeps hI evs r' f' log' (fun p hp => hQ p (List.mem_append_right _ hp)) hf'
  unfold getFrameFromUdp
  simp only
  split
  · rename_i hempty
    rw [(PacketBuffer.isEmpty_iff hw).1 hempty, List.nil_append]
    exact ih r _ ⟨[], []⟩ hf
  · exact @processed_keeps Q I hI r _ ⟨[], []⟩ evs hw hf (fun p hp => hQ p (List.mem_append_left _ hp)) ih

/-! ## Successive calls -/

/-- The first `n` calls on the same out parameters, up to the first one that does not return. -/
def outcomes : Nat → JfjFrameUdpReceiver → Frame → List RecvMany → List Outcome
  | 0, _, _, _ => []
  | n + 1, r, f, evs =>
    match getFrameFromUdp r f evs with
    | .returned pulseId r f log rest => .returned pulseId r f log rest :: outcomes n r f rest
    | out => [out]

theorem mem_outcomes_first (n : Nat) (r : JfjFrameUdpReceiver) (f : Frame) (evs : List RecvMany) :
    getFrameFromUdp r f evs ∈ outcomes (n + 1) r f evs := by
  unfold outcomes
  cases getFrameFromUdp r f evs with
  | returned => exact List.mem_cons_self ..
  | receiving => exact List.mem_cons_self ..
  | threw => exact List.mem_cons_self ..

/-- The rule for every call of a run; none of them throws. -/
theorem outcomes_keeps (hI : KeptByCopy Q I) : ∀ (n : Nat) (r : JfjFrameUdpReceiver) (f : Frame)
    (evs : List RecvMany), r.mBuffer.WF → (∀ p ∈ r.mBuffer.content ++ received evs, Q p) →
      ∀ out ∈ outcomes n r f evs, ∃ ps, ps <:+ r.mBuffer.content ++ received evs ∧ CallKeeps I [] ps out
  | 0, _, _, _, _, _ => fun out hout => by cases hout
  | n + 1, r, f, evs, hw, hQ => by
    have hcall := getFrameFromUdp_keeps hI hw f evs hQ
    intro out hout
    unfold outcomes at hout
    generalize getFrameFromUdp r f evs = first at hcall hout
    cases hcall with
    | receiving hf hsub =>
      rw [List.mem_singleton.1 hout]
      exact ⟨_, List.suffix_refl _, .receiving hf hsub⟩
    | @returned m r' f' log rest read hw' hf h0 hps hsub =>
      rcases List.mem_cons.1 hout with rfl | hout
      · exact ⟨_, List.suffix_refl _, .returned read hw' hf h0 hps hsub⟩
      · rw [hps] at hQ ⊢
        obtain ⟨ps, hsuf, hout⟩ := outcomes_keeps hI n r' f' rest hw'
          (fun p hp => hQ p (List.mem_append_right _ hp)) out hout
        exact ⟨ps, hsuf.trans (List.suffix_append ..), hout⟩

def Outcome.copied : Outcome → List JfjochPacket
  | .returned _ _ _ log _ => log.copied
  | .receiving _ _ log => log.copied
  | .threw _ => []

theorem CallKeeps.sublist {ps : List JfjochPacket} {out : Outcome} (h : CallKeeps I [] ps out) :
    out.copied.Sublist ps := by
  cases h with
  | receiving _ hsub => exact hsub
  | returned read _ _ _ hps hsub =>
    rw [hps]
    exact hsub.trans (List.sublist_append_left ..)

/-- A call copies packets of the stream, in its order. -/
theorem outcomes_copied (n : Nat) {r : JfjFrameUdpReceiver} (hw : r.mBuffer.WF) (f : Frame) (evs : List RecvMany) :
    ∀ out ∈ outcomes n r f evs, out.copied.Sublist (r.mBuffer.content ++ received evs) := by
  have hI : KeptByCopy (fun _ => True) fun _ _ _ => True :=
    ⟨fun _ _ => trivial, fun _ _ _ => trivial, fun _ _ _ => trivial⟩
  intro out hout
  obtain ⟨ps, hsuf, hkeeps⟩ := outcomes_keeps hI n r f evs hw (fun _ _ => trivial) out hout
  exact hkeeps.sublist.trans hsuf.sublist

end SfDaqBuffer.JfjRecv
