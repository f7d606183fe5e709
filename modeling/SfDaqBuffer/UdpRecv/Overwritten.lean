/-
`process_packets` marks the packets it leaves in the slots, its caller receives again whenever it
returns pulse_id 0. The two disagree on one input: a packet 127 that ends a frame without pulse_id and
is not the last packet of its batch. In every other run each received packet is copied exactly once.
-/
import SfDaqBuffer.UdpRecv.Grouping

namespace SfDaqBuffer.UdpRecv

/-! ## The open frame -/

/-- The trigger of the frame that is being filled, once the frame has a pulse_id. -/
def openFrame (f : Frame) : Option UInt64 :=
  if f.metadata.pulseId = 0 then none else some f.metadata.frameIndex

/-- The open frame that the packet is copied to. -/
def opened (o : Option UInt64) (p : JungfrauPacket) : Option UInt64 :=
  if o = some p.framenum then o else if p.bunchid.toUInt64 = 0 then none else some p.framenum

def afterPacket (o : Option UInt64) (p : JungfrauPacket) : Option UInt64 :=
  if lastPacket p then none else opened o p

/-- A packet 127 that leaves its frame without pulse_id is the last one of its batch. -/
def KeepsSlots : Option UInt64 → List JungfrauPacket → Prop
  | _, [] => True
  | o, p :: ps => (lastPacket p = true → opened o p = none → ps = []) ∧ KeepsSlots (afterPacket o p) ps

/-- So in every batch. -/
def KeepsBatches : Option UInt64 → List RecvMany → Prop
  | _, [] => True
  | o, .error :: evs => KeepsBatches o evs
  | o, .msgs ps :: evs => KeepsSlots o ps ∧ KeepsBatches (ps.foldl afterPacket o) evs

theorem openFrame_copy {moduleId : Int} {f : Frame} {p : JungfrauPacket}
    (h : f.metadata.pulseId ≠ 0 → f.metadata.frameIndex = p.framenum) :
    openFrame (copyPacketToBuffers (if f.metadata.pulseId = 0 then initFrame moduleId f p else f) p) =
      opened (openFrame f) p := by
  unfold openFrame opened
  by_cases h0 : f.metadata.pulseId = 0
  · simp [h0, copyPacketToBuffers, initFrame]
  · simp [h0, copyPacketToBuffers, h h0]

/-- A packet of another trigger starts a frame. -/
theorem opened_of_cut {f : Frame} {p : JungfrauPacket}
    (h : f.metadata.pulseId ≠ 0 ∧ f.metadata.frameIndex ≠ p.framenum) : opened (openFrame f) p = opened none p := by
  unfold openFrame opened
  simp [h.1, h.2]

theorem afterPacket_congr {o o' : Option UInt64} {p : JungfrauPacket} (h : opened o p = opened o' p) :
    afterPacket o p = afterPacket o' p := by
  unfold afterPacket
  rw [h]

theorem keepsSlots_congr {o o' : Option UInt64} {p : JungfrauPacket} (h : opened o p = opened o' p)
    (ps : List JungfrauPacket) : KeepsSlots o (p :: ps) ↔ KeepsSlots o' (p :: ps) := by
  unfold KeepsSlots
  rw [h, afterPacket_congr h]

theorem keepsSlots_timed : ∀ (ps : List JungfrauPacket) (o : Option UInt64),
    (∀ p ∈ ps, p.bunchid.toUInt64 ≠ 0) → KeepsSlots o ps
  | [], _, _ => trivial
  | p :: ps, o, h => by
    refine ⟨fun _ hnone => ?_, keepsSlots_timed ps _ fun q hq => h q (List.mem_cons_of_mem _ hq)⟩
    unfold opened at hnone
    rw [if_neg (h p (List.mem_cons_self ..))] at hnone
    split at hnone
    · rename_i ho
      rw [ho] at hnone
      cases hnone
    · cases hnone

/-- Packets that all have a pulse_id keep the slots. -/
theorem keepsBatches_timed : ∀ (evs : List RecvMany) (o : Option UInt64),
    (∀ p ∈ received evs, p.bunchid.toUInt64 ≠ 0) → KeepsBatches o evs
  | [], _, _ => trivial
  | .error :: evs, o, h => keepsBatches_timed evs o h
  | .msgs ps :: evs, o, h => ⟨keepsSlots_timed ps o fun p hp => h p (List.mem_append_left _ hp),
    keepsBatches_timed evs _ fun p hp => h p (List.mem_append_right _ hp)⟩

theorem keepsBatches_cons (r : FrameUdpReceiver) (o : Option UInt64) (ev : RecvMany) (evs : List RecvMany) :
    KeepsBatches o (ev :: evs) ↔
      KeepsSlots o (receiveMany r ev).batch ∧ KeepsBatches ((receiveMany r ev).batch.foldl afterPacket o) evs := by
  cases ev with
  | error => rw [batch_receiveMany_error]; exact ⟨fun h => ⟨trivial, h⟩, fun h => h.2⟩
  | msgs ps => rw [batch_receiveMany_msgs]; rfl

/-! ## One batch -/

/-- The log grows by the copied packets `read`. -/
structure CallLog.Copies (log : CallLog) (read : List JungfrauPacket) (log' : CallLog) : Prop where
  copied : log'.copied = log.copied ++ read
  overwritten : log'.overwritten = log.overwritten

theorem CallLog.Copies.nil (log : CallLog) : log.Copies [] log := ⟨(List.append_nil _).symm, rfl⟩

theorem CallLog.Copies.one (log : CallLog) (p : JungfrauPacket) : log.Copies [p] (log.copy p) := ⟨rfl, rfl⟩

theorem CallLog.Copies.cons {log log' : CallLog} {p : JungfrauPacket} {read : List JungfrauPacket}
    (h : (log.copy p).Copies read log') : log.Copies (p :: read) log' :=
  ⟨h.copied.trans (List.append_assoc ..), h.overwritten⟩

theorem processLoopLog_overwritten (r : FrameUdpReceiver) : ∀ (ps : List JungfrauPacket) (i : Nat) (f : Frame)
    (log : CallLog), (processLoopLog r i ps f log).2.overwritten = log.overwritten
  | [], _, _, _ => rfl
  | p :: ps, i, f, log => by
    unfold processLoopLog
    simp only
    split
    · rfl
    · split
      · split <;> rfl
      · exact processLoopLog_overwritten r ps (i + 1) _ (log.copy p)

/-- What `process_packets` does with the packets `ps`, which are the last ones in the slots. -/
inductive LoopSpec (r : FrameUdpReceiver) (o : Option UInt64) (ps : List JungfrauPacket) (log : CallLog) :
    (UInt64 × FrameUdpReceiver × Frame) × CallLog → Prop
  /-- All packets are copied. -/
  | emptied {pulseId f log'} : pulseId = 0 → openFrame f = ps.foldl afterPacket o → KeepsSlots o ps →
      log.Copies ps log' → LoopSpec r o ps log ((pulseId, r.mark false 0, f), log')
  /-- A frame is returned, and the packets after it are marked. -/
  | closed {pulseId loaded offset f log'} (read left : List JungfrauPacket) : pulseId ≠ 0 → ps = read ++ left →
      leftover (r.mark loaded offset) = left → (KeepsSlots o ps ↔ KeepsSlots none left) →
      ps.foldl afterPacket o = left.foldl afterPacket none → log.Copies read log' →
      LoopSpec r o ps log ((pulseId, r.mark loaded offset, f), log')
  /-- Packets are marked, but no frame is returned. -/
  | marked {pulseId offset f log'} : pulseId = 0 → leftover (r.mark true offset) ≠ [] → ¬ KeepsSlots o ps →
      LoopSpec r o ps log ((pulseId, r.mark true offset, f), log')

/-- The packets after a copied one. -/
theorem LoopSpec.cons {r : FrameUdpReceiver} {o : Option UInt64} {p : JungfrauPacket} {ps : List JungfrauPacket}
    {log : CallLog} {out : (UInt64 × FrameUdpReceiver × Frame) × CallLog} (hlast : lastPacket p = false)
    (h : LoopSpec r (opened o p) ps (log.copy p) out) : LoopSpec r o (p :: ps) log out := by
  have hafter : afterPacket o p = opened o p := if_neg (by rw [hlast]; decide)
  have hkeeps : KeepsSlots o (p :: ps) ↔ KeepsSlots (opened o p) ps := by
    rw [KeepsSlots, hlast, hafter]
    simp
  have hfold : (p :: ps).foldl afterPacket o = ps.foldl afterPacket (opened o p) := by
    rw [List.foldl_cons, hafter]
  cases h with
  | emptied h0 hopen hk hlog => exact .emptied h0 (hopen.trans hfold.symm) (hkeeps.2 hk) hlog.cons
  | closed read left h0 hps hleft hk hf hlog =>
    exact .closed (p :: read) left h0 (congrArg (p :: ·) hps) hleft (hkeeps.trans hk) (hfold.trans hf) hlog.cons
  | marked h0 hleft hk => exact .marked h0 hleft fun h => hk (hkeeps.1 h)

theorem processLoopLog_spec {r : FrameUdpReceiver} (hr : Counted r) :
    ∀ (ps : List JungfrauPacket) (i : Nat) (f : Frame) (log : CallLog), r.batch.drop i = ps →
      LoopSpec r (openFrame f) ps log (processLoopLog r i ps f log)
  | [], _, _, log, _ => .emptied rfl rfl trivial (.nil log)
  | p :: ps, i, f, log, hi => by
    have hopen : (f.metadata.pulseId ≠ 0 → f.metadata.frameIndex = p.framenum) →
        openFrame (copyPacketToBuffers (if f.metadata.pulseId = 0 then initFrame r.moduleId f p else f) p) =
          opened (openFrame f) p := openFrame_copy
    generalize hcopy : copyPacketToBuffers (if f.metadata.pulseId = 0 then initFrame r.moduleId f p else f) p = f' at hopen
    rcases processLoopLog_cases hr hi hcopy log with ⟨hcut, hleft, hout⟩ |
      ⟨hcut, hnum, loaded, offset, hleft, hnone, hloaded, hout⟩ | ⟨hcut, hnum, hi', hout⟩
    · -- the packet belongs to another trigger: it stays in the slots
      have hsame := opened_of_cut hcut
      rw [hout]
      refine .closed [] (p :: ps) hcut.1 rfl hleft (keepsSlots_congr hsame ps) ?_ (.nil log)
      rw [List.foldl_cons, afterPacket_congr hsame]
      rfl
    · have hopen := hopen fun h0 => not_not.1 fun hne => hcut ⟨h0, hne⟩
      have hlast := lastPacket_iff.2 hnum
      have hafter : afterPacket (openFrame f) p = none := if_pos hlast
      have hfold : (p :: ps).foldl afterPacket (openFrame f) = ps.foldl afterPacket none := by
        rw [List.foldl_cons, hafter]
      rw [hout]
      by_cases h0 : f'.metadata.pulseId = 0
      · have hnothing : opened (openFrame f) p = none := by
          rw [← hopen]
          exact if_pos h0
        by_cases hnil : ps = []
        · obtain ⟨rfl, rfl⟩ := hnone hnil
          subst hnil
          refine .emptied h0 ?_ ⟨fun _ _ => rfl, trivial⟩ (.one log p)
          rw [hfold]
          exact if_pos h0
        · -- the frame has no pulse_id, so the caller receives again over the marked packets
          obtain rfl := hloaded hnil
          refine .marked h0 ?_ fun hk => hnil (hk.1 hlast hnothing)
          rw [hleft]
          exact hnil
      · have hsome : opened (openFrame f) p ≠ none := by
          rw [← hopen]
          unfold openFrame
          rw [if_neg h0]
          exact Option.some_ne_none _
        have hkeeps : KeepsSlots (openFrame f) (p :: ps) ↔ KeepsSlots none ps := by
          rw [KeepsSlots, hafter]
          exact ⟨fun h => h.2, fun h => ⟨fun _ hnone => absurd hnone hsome, h⟩⟩
        exact .closed [p] ps h0 rfl hleft hkeeps hfold (.one log p)
    · have hopen := hopen fun h0 => not_not.1 fun hne => hcut ⟨h0, hne⟩
      rw [hout]
      refine .cons (lastPacket_eq_false.2 hnum) ?_
      rw [← hopen]
      exact processLoopLog_spec hr ps (i + 1) f' (log.copy p) hi'

/-! ## One call -/

/-- What a call does with the unread packets `ps`, of which `keeps` says that their batches keep the slots. -/
inductive Conserves (copied : List JungfrauPacket) (keeps : Prop) (ps : List JungfrauPacket) :
    Outcome × CallLog → Prop
  | lost {out log} : log.overwritten ≠ [] → ¬ keeps → Conserves copied keeps ps (out, log)
  | receiving {r f log} : log.overwritten = [] → log.copied = copied ++ ps → keeps →
      Conserves copied keeps ps (.receiving r f, log)
  | returned {pulseId r f rest log} (read : List JungfrauPacket) : log.overwritten = [] →
      log.copied = copied ++ read → ps = read ++ (leftover r ++ received rest) → Counted r →
      (keeps ↔ KeepsSlots none (leftover r) ∧ KeepsBatches ((leftover r).foldl afterPacket none) rest) →
      Conserves copied keeps ps (.returned pulseId r f rest, log)

theorem Conserves.after {copied read ps : List JungfrauPacket} {keeps keeps' : Prop} {out : Outcome × CallLog}
    (h : Conserves (copied ++ read) keeps ps out) (hk : keeps' ↔ keeps) : Conserves copied keeps' (read ++ ps) out := by
  cases h with
  | lost ho hn => exact .lost ho fun h => hn (hk.1 h)
  | receiving ho hc h => exact .receiving ho (by rw [hc, List.append_assoc]) (hk.2 h)
  | returned read' ho hc hps hr h =>
    refine .returned (read ++ read') ho (by rw [hc, List.append_assoc]) ?_ hr (hk.trans h)
    rw [hps, List.append_assoc]

/-- The slots with marked packets are received again. -/
theorem receiveLoopLog_overwrites : ∀ (evs : List RecvMany) (r : FrameUdpReceiver) (f : Frame) (log : CallLog),
    (log.overwritten ++ leftover r) <+: (receiveLoopLog evs r f log).2.overwritten
  | [], _, _, _ => List.prefix_refl _
  | ev :: evs, r, f, log => by
    have ih : ∀ r' f' log', CallLog.overwritten log' = log.overwritten ++ leftover r →
        (log.overwritten ++ leftover r) <+: (receiveLoopLog evs r' f' log').2.overwritten := by
      intro r' f' log' h
      rw [← h]
      exact (List.prefix_append ..).trans (receiveLoopLog_overwrites evs r' f' log')
    have hloop := processLoopLog_overwritten (receiveMany r ev) (receiveMany r ev).batch 0 f (log.overwrite r)
    unfold receiveLoopLog
    simp only
    split
    · exact ih _ f _ rfl
    · generalize processLoopLog _ 0 _ f (log.overwrite r) = out at hloop ⊢
      obtain ⟨⟨pulseId, r', f'⟩, log'⟩ := out
      unfold finish
      simp only at hloop ⊢
      split
      · rw [hloop]
        exact List.prefix_refl _
      · exact ih r' f' log' hloop

theorem finish_conserves {r : FrameUdpReceiver} (hr : Counted r) {o : Option UInt64} {ps : List JungfrauPacket}
    {log : CallLog} {out : (UInt64 × FrameUdpReceiver × Frame) × CallLog} (h : LoopSpec r o ps log out)
    (hlog : log.overwritten = []) {evs : List RecvMany}
    (ih : ∀ r' f' log', leftover r' = [] → CallLog.overwritten log' = [] →
      Conserves log'.copied (KeepsBatches (openFrame f') evs) (received evs) (receiveLoopLog evs r' f' log')) :
    Conserves log.copied (KeepsSlots o ps ∧ KeepsBatches (ps.foldl afterPacket o) evs) (ps ++ received evs)
      (finish (receiveLoopLog evs) evs out) := by
  cases h with
  | @emptied pulseId f log' h0 hopen hk hcopies =>
    have hnext := ih (r.mark false 0) f log' rfl (hcopies.overwritten.trans hlog)
    rw [hcopies.copied, hopen] at hnext
    unfold finish
    simp only [h0]
    exact hnext.after ⟨fun h => h.2, fun h => ⟨hk, h⟩⟩
  | closed read left h0 hps hleft hk hf hcopies =>
    unfold finish
    simp only [h0, ne_eq, not_false_eq_true, if_true]
    refine .returned read (hcopies.overwritten.trans hlog) hcopies.copied ?_ hr ?_
    · rw [hps, hleft, List.append_assoc]
    · rw [hleft, hk, hf]
  | @marked pulseId offset f log' h0 hleft hk =>
    unfold finish
    simp only [h0]
    have hpre := receiveLoopLog_overwrites evs (r.mark true offset) f log'
    generalize receiveLoopLog evs (r.mark true offset) f log' = next at hpre
    refine .lost (fun hnil => hleft ?_) fun h => hk h.1
    rw [hnil] at hpre
    exact (List.append_eq_nil_iff.1 (List.prefix_nil.1 hpre)).2

theorem receiveLoopLog_conserves : ∀ (evs : List RecvMany) (r : FrameUdpReceiver) (f : Frame) (log : CallLog),
    leftover r = [] → log.overwritten = [] →
      Conserves log.copied (KeepsBatches (openFrame f) evs) (received evs) (receiveLoopLog evs r f log)
  | [], r, f, log, hleft, hlog => by
    refine .receiving ?_ (List.append_nil _).symm trivial
    show log.overwritten ++ leftover r = []
    rw [hleft, hlog]
    rfl
  | ev :: evs, r, f, log, hleft, hlog => by
    have hover : (log.overwrite r).overwritten = [] := by
      show log.overwritten ++ leftover r = []
      rw [hleft, hlog]
      rfl
    have hr := counted_receiveMany r ev
    rw [received_cons r, keepsBatches_cons r]
    unfold receiveLoopLog
    simp only
    generalize receiveMany r ev = r' at hr ⊢
    split
    · rename_i hn
      have hnil : r'.batch = [] := by
        unfold FrameUdpReceiver.batch; rw [hn]; rfl
      have hleft' : leftover r' = [] := by
        unfold leftover
        rw [hnil, List.drop_nil, ite_self]
      rw [hnil]
      refine Conserves.after ?_ ⟨fun h => h.2, fun h => ⟨trivial, h⟩⟩
      rw [List.append_nil]
      exact receiveLoopLog_conserves evs r' f (log.overwrite r) hleft' hover
    · exact finish_conserves hr (processLoopLog_spec hr r'.batch 0 f (log.overwrite r) rfl) hover
        fun r'' f' log' hl ho => receiveLoopLog_conserves evs r'' f' log' hl ho

theorem getFrameFromUdpLog_conserves {r : FrameUdpReceiver} (hr : Counted r) (f : Frame) (evs : List RecvMany) :
    Conserves [] (KeepsSlots none (leftover r) ∧ KeepsBatches ((leftover r).foldl afterPacket none) evs)
      (leftover r ++ received evs) (getFrameFromUdpLog r f evs) := by
  have hopen : openFrame (resetFrame f) = none := rfl
  unfold getFrameFromUdpLog
  split
  · rename_i hl
    have hleft : leftover r = r.batch.drop r.packetBufferOffset := if_pos hl
    rw [hleft, ← hopen]
    exact finish_conserves hr (processLoopLog_spec hr _ _ (resetFrame f) ⟨[], []⟩ rfl) rfl
      fun r' f' log' hleft' hlog' => receiveLoopLog_conserves evs r' f' log' hleft' hlog'
  · rename_i hl
    have hleft : leftover r = [] := if_neg hl
    have h := receiveLoopLog_conserves evs r (resetFrame f) ⟨[], []⟩ hleft rfl
    rw [hleft]
    refine Conserves.after ?_ ⟨fun h => h.2, fun h => ⟨trivial, h⟩⟩
    exact h

theorem copies_kept (moduleId : Int) :
    KeptByCopy moduleId (fun _ => True) fun copied f => f.metadata.pulseId ≠ 0 → copied ≠ [] where
  reset _ h0 := absurd rfl h0
  copy _ _ _ _ := List.append_ne_nil_of_right_ne_nil _ (List.cons_ne_nil _ _)

/-- A call that returns has copied a packet. -/
theorem copied_pos {r r' : FrameUdpReceiver} {f f' : Frame} {evs rest : List RecvMany} {pulseId : UInt64}
    {log : CallLog} (h : getFrameFromUdpLog r f evs = (.returned pulseId r' f' rest, log)) : 0 < log.copied.length := by
  have hcall := getFrameFromUdpLog_keeps (copies_kept r.moduleId) f evs fun _ _ => trivial
  rw [h] at hcall
  cases hcall with
  | returned read hid hne h0 => exact List.length_pos_iff.2 (hne h0)

/-! ## The whole run -/

theorem callsLog_conserves : ∀ (n : Nat) (r : FrameUdpReceiver) (f : Frame) (evs : List RecvMany), Counted r →
    KeepsSlots none (leftover r) ∧ KeepsBatches ((leftover r).foldl afterPacket none) evs →
    (∀ out ∈ callsLog n r f evs, out.2.overwritten = []) ∧
      ((leftover r ++ received evs).length < n →
        (callsLog n r f evs).flatMap (·.2.copied) = leftover r ++ received evs)
  | 0, _, _, _, _, _ => ⟨fun out hout => (by cases hout), fun h => absurd h (Nat.not_lt_zero _)⟩
  | n + 1, r, f, evs, hr, hk => by
    have hcall := getFrameFromUdpLog_conserves hr f evs
    unfold callsLog
    generalize hfirst : getFrameFromUdpLog r f evs = first at hcall ⊢
    cases hcall with
    | lost ho hn => exact absurd hk hn
    | receiving ho hc _ =>
      refine ⟨fun out hout => ?_, fun _ => ?_⟩
      · rw [List.mem_singleton.1 hout]
        exact ho
      · rw [List.flatMap_singleton, hc]
        rfl
    | @returned pulseId r' f' rest log read ho hc hps hr' hk' =>
      obtain ⟨hover, hcopied⟩ := callsLog_conserves n r' f' rest hr' (hk'.1 hk)
      refine ⟨fun out hout => ?_, fun hlen => ?_⟩
      · rcases List.mem_cons.1 hout with rfl | hout
        · exact ho
        · exact hover out hout
      · have hpos := copied_pos hfirst
        rw [hc, List.nil_append] at hpos
        rw [hps, List.length_append] at hlen
        rw [List.flatMap_cons, hcopied (by omega), hps, hc]
        rfl

theorem callsLog_overwrites : ∀ (n : Nat) (r : FrameUdpReceiver) (f : Frame) (evs : List RecvMany), Counted r →
    ¬ (KeepsSlots none (leftover r) ∧ KeepsBatches ((leftover r).foldl afterPacket none) evs) →
    (leftover r ++ received evs).length < n → ∃ out ∈ callsLog n r f evs, out.2.overwritten ≠ []
  | 0, _, _, _, _, _, hlen => absurd hlen (Nat.not_lt_zero _)
  | n + 1, r, f, evs, hr, hk, hlen => by
    have hcall := getFrameFromUdpLog_conserves hr f evs
    unfold callsLog
    generalize hfirst : getFrameFromUdpLog r f evs = first at hcall ⊢
    cases hcall with
    | @lost out log ho hn =>
      cases out with
      | returned => exact ⟨_, List.mem_cons_self .., ho⟩
      | receiving => exact ⟨_, List.mem_cons_self .., ho⟩
    | receiving ho hc hk' => exact absurd hk' hk
    | @returned pulseId r' f' rest log read ho hc hps hr' hk' =>
      have hpos := copied_pos hfirst
      rw [hc, List.nil_append] at hpos
      rw [hps, List.length_append] at hlen
      obtain ⟨out, hout, hne⟩ := callsLog_overwrites n r' f' rest hr' (fun h => hk (hk'.2 h)) (by omega)
      exact ⟨out, List.mem_cons_of_mem _ hout, hne⟩

/-- Exactly in the runs whose batches keep the slots, no call receives over packets that were not copied,
and all packets are copied once, in order. -/
theorem packets_copied_once_iff (moduleId : Int) (slots : List JungfrauPacket) (f : Frame) (evs : List RecvMany) :
    ((∀ n, ∀ out ∈ callsLog n (.new moduleId slots) f evs, out.2.overwritten = []) ∧
      ∀ n > (received evs).length, (callsLog n (.new moduleId slots) f evs).flatMap (·.2.copied) = received evs) ↔
    KeepsBatches none evs := by
  have hr : Counted (.new moduleId slots) := by
    intro hne; exact absurd rfl hne
  constructor
  · rintro ⟨hover, -⟩
    by_contra hk
    obtain ⟨out, hout, hne⟩ := callsLog_overwrites ((received evs).length + 1) (.new moduleId slots) f evs hr
      (fun h => hk h.2) (Nat.lt_succ_self _)
    exact hne (hover _ out hout)
  · intro hk
    have hcalls := fun n => callsLog_conserves n (.new moduleId slots) f evs hr ⟨trivial, hk⟩
    exact ⟨fun n => (hcalls n).1, fun n hn => (hcalls n).2 hn⟩

/-- A packet 127 with a bunchid that truncates to 0 and, in the same batch, a packet of the next frame: the
second one is received over before it is copied. -/
theorem packets_copied_once_not :
    ∃ out ∈ callsLog 1 (.new 3 []) ⟨.zero, fun _ => 0⟩ [.msgs [bare 8 127 .zero, bare 9 0 .one]],
      out.2.overwritten.map (·.framenum) = [9] ∧ out.2.copied.map (·.framenum) = [8] := by
  refine ⟨_, mem_callsLog_first 0 _ _ _, ?_⟩
  decide +kernel

end SfDaqBuffer.UdpRecv
