/-
Which packets jfj-udp-recv puts into which frame, said of the packets alone. A packet of another framenum
closes the open frame, and so does the last packet of a frame. A frame without a pulse_id cannot be closed: it
stays open, and the rest of the packets of that `receive_many` is lost.
-/
import SfDaqBuffer.JfjRecv.Frames
import SfDaqBuffer.JfjRecv.Main

namespace SfDaqBuffer.JfjRecv

/-! ## The packets of a frame -/

/-- The mark of a frame made of packets is that of the last one. -/
def groupMark (ps : List JfjochPacket) : FrameMark := (ps.getLast?.map packetMark).getD ⟨0, 0⟩

/-- The framenum that is expected, and the packets of the open frame. -/
structure OpenFrame where
  framenum : UInt64
  packets : List JfjochPacket

/-- The last packet of a frame. -/
def endsFrame (p : JfjochPacket) : Prop := p.packetnum.toNat = jfjochNPacketsPerFrame - 1

instance (p : JfjochPacket) : Decidable (endsFrame p) := inferInstanceAs (Decidable (_ = _))

/-- The frames that the packets of one `receive_many` close, and the frame that stays open. -/
def closedIn : OpenFrame → List JfjochPacket → List (List JfjochPacket) × OpenFrame
  | o, [] => ([], o)
  | o, p :: ps =>
    -- the frame that the packet closes by its framenum, and the packets of its own
    let before := if o.framenum = p.framenum then [] else [o.packets]
    let packets := if o.framenum = p.framenum then o.packets ++ [p] else [p]
    if o.framenum ≠ p.framenum ∧ (groupMark o.packets).pulseId = 0 then ([], ⟨p.framenum, o.packets⟩)
    else if endsFrame p then
      if (groupMark packets).pulseId = 0 then (before, ⟨p.framenum, packets⟩)
      else (before ++ packets :: (closedIn ⟨p.framenum, []⟩ ps).1, (closedIn ⟨p.framenum, []⟩ ps).2)
    else (before ++ (closedIn ⟨p.framenum, packets⟩ ps).1, (closedIn ⟨p.framenum, packets⟩ ps).2)

/-- The frames that successive batches close. -/
def groups : OpenFrame → List (List JfjochPacket) → List (List JfjochPacket)
  | _, [] => []
  | o, batch :: batches => (closedIn o batch).1 ++ groups (closedIn o batch).2 batches

/-- The batches that the calls of `receive_many` delivered. -/
def batches (evs : List RecvMany) : List (List JfjochPacket) := evs.map ReceiveMany.items

/-- The frames of which each follows the frame before it, kept or not. -/
def accepted (previous : FrameMark) (gs : List (List JfjochPacket)) : List (List JfjochPacket) :=
  (Consecutive.kept (fun a b => badPulseId a.1 b.1) (previous, []) (gs.map fun g => (groupMark g, g))).map Prod.snd

section

variable {o : OpenFrame} {p : JfjochPacket}

theorem groupMark_concat (ps : List JfjochPacket) (p : JfjochPacket) : groupMark (ps ++ [p]) = packetMark p := by
  unfold groupMark
  rw [List.getLast?_concat]
  rfl

/-- A packet of another framenum closes a frame with a pulse_id and is read again with none open. -/
theorem closedIn_other (hframe : o.framenum ≠ p.framenum) (hpulse : (groupMark o.packets).pulseId ≠ 0)
    (ps : List JfjochPacket) : closedIn o (p :: ps) =
      (o.packets :: (closedIn ⟨p.framenum, []⟩ (p :: ps)).1, (closedIn ⟨p.framenum, []⟩ (p :: ps)).2) := by
  unfold closedIn
  simp only [hframe, hpulse, ne_eq, not_true_eq_false, and_false, false_and, if_false, if_true, List.nil_append]
  split
  · split <;> rfl
  · rfl

/-- With a frame that has no pulse_id the rest of the batch is lost. -/
theorem closedIn_lost (hframe : o.framenum ≠ p.framenum) (hpulse : (groupMark o.packets).pulseId = 0)
    (ps : List JfjochPacket) : closedIn o (p :: ps) = ([], ⟨p.framenum, o.packets⟩) := by
  unfold closedIn
  exact if_pos ⟨hframe, hpulse⟩

theorem closedIn_more (hframe : o.framenum = p.framenum) (hend : ¬ endsFrame p) (ps : List JfjochPacket) :
    closedIn o (p :: ps) = closedIn ⟨p.framenum, o.packets ++ [p]⟩ ps := by
  rw [closedIn]
  simp only [hframe, hend, ne_eq, not_true_eq_false, false_and, if_false, if_true, List.nil_append]

theorem closedIn_ends (hframe : o.framenum = p.framenum) (hend : endsFrame p) (ps : List JfjochPacket) :
    closedIn o (p :: ps) = if p.bunchid.toUInt64 = 0 then ([], ⟨p.framenum, o.packets ++ [p]⟩)
      else ((o.packets ++ [p]) :: (closedIn ⟨p.framenum, []⟩ ps).1, (closedIn ⟨p.framenum, []⟩ ps).2) := by
  rw [closedIn]
  simp only [hframe, hend, ne_eq, not_true_eq_false, false_and, if_false, if_true, List.nil_append, groupMark_concat]
  rfl

/-- Packets of the open frame that do not end it. -/
theorem closedIn_same : ∀ (l : List JfjochPacket) (o : OpenFrame),
    (∀ p ∈ l, p.framenum = o.framenum ∧ ¬ endsFrame p) → ∀ ps,
      closedIn o (l ++ ps) = closedIn ⟨o.framenum, o.packets ++ l⟩ ps
  | [], o, _, ps => by rw [List.append_nil]; rfl
  | p :: l, o, h, ps => by
    obtain ⟨hframe, hend⟩ := h p (List.mem_cons_self ..)
    have hl : ∀ q ∈ l, q.framenum = p.framenum ∧ ¬ endsFrame q := fun q hq =>
      ⟨(h q (List.mem_cons_of_mem _ hq)).1.trans hframe.symm, (h q (List.mem_cons_of_mem _ hq)).2⟩
    rw [List.cons_append, closedIn_more hframe.symm hend, closedIn_same l _ hl, hframe, List.append_assoc]
    rfl

theorem groups_nil (o : OpenFrame) (bs : List (List JfjochPacket)) : groups o ([] :: bs) = groups o bs := rfl

/-- A frame that arrives in any batches with its last packet at their end. -/
theorem groups_ofFrame : ∀ {bs : List (List JfjochPacket)} {l : List JfjochPacket} {q : JfjochPacket} (o : OpenFrame),
    (∀ p ∈ bs.flatten ++ l, p.framenum = o.framenum ∧ ¬ endsFrame p) → q.framenum = o.framenum → endsFrame q →
      q.bunchid.toUInt64 ≠ 0 → groups o (bs ++ [l ++ [q]]) = [o.packets ++ (bs.flatten ++ l) ++ [q]]
  | [], l, q, o, h, hframe, hend, hpulse => by
    have hends := closedIn_ends (o := ⟨o.framenum, o.packets ++ l⟩) hframe.symm hend []
    rw [List.nil_append, groups, closedIn_same l o h, hends, if_neg hpulse]
    rfl
  | b :: bs, l, q, o, h, hframe, hend, hpulse => by
    rw [List.flatten_cons, List.append_assoc b] at h ⊢
    obtain ⟨hb, hbs⟩ := List.forall_mem_append.1 h
    have hclosed := closedIn_same b o hb []
    rw [List.append_nil] at hclosed
    have ih := groups_ofFrame ⟨o.framenum, o.packets ++ b⟩ hbs hframe hend hpulse
    rw [List.cons_append, groups, hclosed]
    rw [← List.append_assoc o.packets b]
    exact ih

theorem accepted_cons (previous : FrameMark) (g : List JfjochPacket) (gs : List (List JfjochPacket)) :
    accepted previous (g :: gs) =
      if badPulseId previous (groupMark g) then accepted (groupMark g) gs else g :: accepted (groupMark g) gs := by
  have hstart : ∀ (mark : FrameMark) (a b : List JfjochPacket) (xs : List (FrameMark × List JfjochPacket)),
      Consecutive.kept (fun a b => badPulseId a.1 b.1) (mark, a) xs =
        Consecutive.kept (fun a b => badPulseId a.1 b.1) (mark, b) xs := fun mark a b xs => by cases xs <;> rfl
  unfold accepted
  rw [List.map_cons, Consecutive.kept_cons, hstart (groupMark g) g []]
  split <;> rfl

end

/-! ## The calls -/

theorem Filled.mark {copied : List JfjochPacket} {f : Frame} (h : Filled copied f) (hne : copied ≠ []) :
    groupMark copied = ⟨f.metadata.pulseId, f.metadata.frameIndex⟩ := by
  obtain ⟨pre, p, rfl⟩ := (List.eq_nil_or_concat copied).resolve_left hne
  rw [List.concat_eq_append] at h ⊢
  obtain ⟨hpulse, hindex, -⟩ := h.last p List.getLast?_concat
  rw [groupMark_concat, hpulse, hindex]
  rfl

theorem Filled.markPulse {copied : List JfjochPacket} {f : Frame} (h : Filled copied f) :
    (groupMark copied).pulseId = f.metadata.pulseId := by
  by_cases hnil : copied = []
  · rw [h.pulseId hnil, hnil]
    rfl
  · rw [h.mark hnil]

/-- What `process_packets` does to the open frame with the packets `l` of the buffer. -/
structure LoopGroups (o : OpenFrame) (l : List JfjochPacket) (out : UInt64 × JfjFrameUdpReceiver × Frame × CallLog) :
    Prop where
  wf : out.2.1.mBuffer.WF
  filled : Filled out.2.2.2.copied out.2.2.1
  stays : out.1 = 0 → closedIn o l = ([], ⟨out.2.1.mFrameIndex, out.2.2.2.copied⟩)
  closes : out.1 ≠ 0 → closedIn o l = (out.2.2.2.copied :: (closedIn ⟨out.2.1.mFrameIndex, []⟩ out.2.1.mBuffer.content).1,
    (closedIn ⟨out.2.1.mFrameIndex, []⟩ out.2.1.mBuffer.content).2)

theorem processLoop_closedIn : ∀ (n : Nat) (r : JfjFrameUdpReceiver) (f : Frame) (log : CallLog)
    (l : List JfjochPacket), r.mBuffer.WF → r.mBuffer.content = l → l.length ≤ n →
    (∀ p ∈ l, p.packetnum.toNat < jfjochNPacketsPerFrame) → Filled log.copied f →
      ∃ out, processLoop n r f log = .ok out ∧ LoopGroups ⟨r.mFrameIndex, log.copied⟩ l out
  | 0, r, f, log, [], hw, _, _, _, hf => ⟨_, rfl, hw, hf, fun _ => rfl, fun hne => absurd rfl hne⟩
  | n + 1, r, f, log, [], hw, hl, _, _, hf => by
    rw [processLoop_empty n f log hw hl]
    exact ⟨_, rfl, hw, hf, fun _ => rfl, fun hne => absurd rfl hne⟩
  | n + 1, r, f, log, p :: l, hw, hl, hn, hnum, hf => by
    obtain ⟨b', hb', hw', hround⟩ := processLoop_front n f log hw hl
    rw [hround]
    by_cases hm : r.mFrameIndex ≠ p.framenum
    · rw [if_pos hm]
      refine ⟨_, rfl, hw, hf, fun hpulse => ?_, fun hpulse => ?_⟩
      · exact closedIn_lost hm (hf.markPulse.trans hpulse) l
      · rw [closedIn_other hm (by rw [hf.markPulse]; exact hpulse), hl]
    · rw [if_neg hm]
      rw [not_not] at hm
      have hf' := filled_copy hf (hnum p (List.mem_cons_self ..))
      have hpulse : (copyPacket (initFrame f p) p).metadata.pulseId = p.bunchid.toUInt64 := rfl
      by_cases hend : p.packetnum.toNat = jfjochNPacketsPerFrame - 1
      · rw [if_pos hend]
        refine ⟨_, rfl, hw', hf', fun h0 => ?_, fun h0 => ?_⟩
        · rw [closedIn_ends hm hend, if_pos (hpulse.symm.trans h0)]
          rfl
        · rw [closedIn_ends hm hend, if_neg (by rw [← hpulse]; exact h0), hb']
          rfl
      · rw [if_neg hend]
        have hlength : l.length ≤ n := by simpa using hn
        have hmore : closedIn ⟨r.mFrameIndex, log.copied⟩ (p :: l) = closedIn ⟨p.framenum, log.copied ++ [p]⟩ l :=
          closedIn_more hm hend l
        obtain ⟨out, hout, h⟩ := processLoop_closedIn n ⟨p.framenum, b'⟩ _ (log.copy p) l hw' hb' hlength
          (fun q hq => hnum q (List.mem_cons_of_mem _ hq)) hf'
        exact ⟨out, hout, h.wf, h.filled, fun h0 => hmore.trans (h.stays h0), fun h0 => hmore.trans (h.closes h0)⟩

/-- What a call does to the unread stream, of which `gs` are the frames. -/
inductive FrameCall (gs : List (List JfjochPacket)) : Outcome → Prop
  | returned {pulseId r f log rest} :
      gs = log.copied :: groups ⟨r.mFrameIndex, []⟩ (r.mBuffer.content :: batches rest) →
      FrameCall gs (.returned pulseId r f log rest)
  | receiving {r f log} : gs = [] → FrameCall gs (.receiving r f log)

/-- The end of a call after `process_packets`. -/
theorem processed_groups {r : JfjFrameUdpReceiver} {f : Frame} {log : CallLog} {evs : List RecvMany}
    (hw : r.mBuffer.WF) (hnum : ∀ p ∈ r.mBuffer.content, p.packetnum.toNat < jfjochNPacketsPerFrame)
    (hf : Filled log.copied f) (ih : ∀ r' f' log', Filled log'.copied f' →
      FrameCall (groups ⟨JfjFrameUdpReceiver.mFrameIndex r', CallLog.copied log'⟩ (batches evs))
        (receiveLoop evs r' f' log')) :
    FrameCall (groups ⟨r.mFrameIndex, log.copied⟩ (r.mBuffer.content :: batches evs))
      (match processPackets r f log with
      | .error e => .threw e
      | .ok (pulseId, r, f, log) =>
        if pulseId ≠ 0 then .returned pulseId r f log evs else receiveLoop evs r f log) := by
  have hsize : r.mBuffer.content.length ≤ r.mBuffer.size.toNat := by
    rw [← PacketBuffer.length_content hw, Int.toNat_natCast]
  obtain ⟨⟨pulseId, r', f', log'⟩, hout, h⟩ := processLoop_closedIn _ r f log _ hw rfl hsize hnum hf
  obtain ⟨hw', hf', hstays, hcloses⟩ := h
  simp only at hw' hf' hstays hcloses
  unfold processPackets groups
  rw [hout]
  simp only
  split
  · rename_i hpulse
    rw [hcloses hpulse]
    exact .returned rfl
  · rename_i hpulse
    rw [not_not] at hpulse
    rw [hstays hpulse, List.nil_append]
    exact ih r' f' log' hf'

theorem receiveLoop_groups : ∀ (evs : List RecvMany) (r : JfjFrameUdpReceiver) (f : Frame) (log : CallLog),
    (∀ p ∈ received evs, p.packetnum.toNat < jfjochNPacketsPerFrame) → Filled log.copied f →
      FrameCall (groups ⟨r.mFrameIndex, log.copied⟩ (batches evs)) (receiveLoop evs r f log)
  | [], _, _, _, _, _ => .receiving rfl
  | ev :: evs, r, f, log, hnum, hf => by
    have ih : ∀ r' f' log', Filled (CallLog.copied log') f' →
        FrameCall (groups ⟨JfjFrameUdpReceiver.mFrameIndex r', log'.copied⟩ (batches evs))
          (receiveLoop evs r' f' log') := fun r' f' log' =>
      receiveLoop_groups evs r' f' log' fun p hp => hnum p (List.mem_append_right ev.items hp)
    have hw := PacketBuffer.fillFrom_wf (resetBuffer r log).1.mBuffer ev
    have hcontent := PacketBuffer.content_fillFrom (resetBuffer r log).1.mBuffer ev
    have hitems : ∀ p ∈ ev.items, p.packetnum.toNat < jfjochNPacketsPerFrame :=
      fun p hp => hnum p (List.mem_append_left _ hp)
    unfold receiveLoop batches
    simp only [List.map_cons]
    rw [← hcontent] at hitems ⊢
    generalize (resetBuffer r log).1.mBuffer.fillFrom ev = b at hw hitems ⊢
    split
    · rename_i hempty
      rw [(PacketBuffer.isEmpty_iff hw).1 hempty, groups_nil]
      exact ih ⟨r.mFrameIndex, b⟩ f (resetBuffer r log).2 hf
    · exact @processed_groups ⟨r.mFrameIndex, b⟩ f (resetBuffer r log).2 evs hw hitems hf ih

/-- A call returns the first frame that the unread stream closes. -/
theorem getFrameFromUdp_groups {r : JfjFrameUdpReceiver} (hw : r.mBuffer.WF) (f : Frame) (evs : List RecvMany)
    (hnum : ∀ p ∈ r.mBuffer.content ++ received evs, p.packetnum.toNat < jfjochNPacketsPerFrame) :
    FrameCall (groups ⟨r.mFrameIndex, []⟩ (r.mBuffer.content :: batches evs)) (getFrameFromUdp r f evs) := by
  have hf : Filled [] (resetFrame f) := filled_reset f
  have ih : ∀ r' f' log', Filled (CallLog.copied log') f' →
      FrameCall (groups ⟨JfjFrameUdpReceiver.mFrameIndex r', log'.copied⟩ (batches evs)) (receiveLoop evs r' f' log') :=
    fun r' f' log' => receiveLoop_groups evs r' f' log' fun p hp => hnum p (List.mem_append_right _ hp)
  unfold getFrameFromUdp
  simp only
  split
  · rename_i hempty
    rw [(PacketBuffer.isEmpty_iff hw).1 hempty, groups_nil]
    exact ih r (resetFrame f) ⟨[], []⟩ hf
  · exact @processed_groups r (resetFrame f) ⟨[], []⟩ evs hw (fun p hp => hnum p (List.mem_append_left _ hp)) hf ih

end SfDaqBuffer.JfjRecv
