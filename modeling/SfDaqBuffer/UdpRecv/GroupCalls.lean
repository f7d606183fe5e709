/-
The successive results of `get_frame_from_udp` for packets with or without a pulse_id: where no packet
meets packets of another trigger in a frame without pulse_id, and no marked packet is received over, they
are the frames of the groups of the stream.
-/
import SfDaqBuffer.UdpRecv.FrameGroups
import SfDaqBuffer.UdpRecv.Overwritten

namespace SfDaqBuffer.UdpRecv

open Grouping

/-! ## The open frame -/

/-- The trigger of the open group, once it has a pulse_id. -/
def openOf (g : List JungfrauPacket) : Option UInt64 := if pulsed g then g.head?.map (·.framenum) else none

theorem opened_none (p : JungfrauPacket) : opened none p = if timed p then some p.framenum else none := by
  unfold opened timed
  by_cases h0 : p.bunchid.toUInt64 = 0 <;> simp [h0]

theorem openOf_singleton (p : JungfrauPacket) : openOf [p] = opened none p := by
  rw [opened_none]
  simp [openOf, pulsed]

/-- A group with a pulse_id is open for the packets of its trigger. -/
theorem opened_openOf {g : List JungfrauPacket} {p : JungfrauPacket}
    (hcut : pulsed g = false → cuts otherFrame g p = false) : opened (openOf g) p = openOf (joined g p) := by
  cases g with
  | nil => exact (openOf_singleton p).symm
  | cons a as =>
    by_cases hne : a.framenum = p.framenum
    · have hjoined : joined (a :: as) p = (a :: as) ++ [p] := if_neg (by simp [cuts, otherFrame, hne])
      rw [hjoined]
      unfold openOf
      rw [pulsed_append]
      cases hpulsed : pulsed (a :: as) with
      | true => simp [opened, hne]
      | false => simp [opened_none, hne]
    · have hcuts : cuts otherFrame (a :: as) p = true := by simp [cuts, otherFrame, hne]
      have hpulsed : pulsed (a :: as) = true := by
        by_contra hnot
        rw [hcut (Bool.eq_false_iff.2 hnot)] at hcuts
        cases hcuts
      have hjoined : joined (a :: as) p = [p] := if_pos hcuts
      rw [hjoined, openOf_singleton]
      simp [openOf, hpulsed, opened, hne]

theorem openOf_of_not {g : List JungfrauPacket} (h : pulsed g = false) : openOf g = none := if_neg (by rw [h]; decide)

theorem afterPacket_openOf {g : List JungfrauPacket} {p : JungfrauPacket}
    (hcut : pulsed g = false → cuts otherFrame g p = false) : afterPacket (openOf g) p = openOf (afterJoin g p) := by
  unfold afterPacket afterJoin ended
  cases lastPacket p with
  | false => exact opened_openOf hcut
  | true =>
    cases hpulsed : pulsed (joined g p) with
    | true => rfl
    | false => exact (openOf_of_not hpulsed).symm

theorem foldl_afterPacket_openOf : ∀ (ps : List JungfrauPacket) {g : List JungfrauPacket}, OneTrigger g ps →
    ps.foldl afterPacket (openOf g) = openOf (ps.foldl afterJoin g)
  | [], _, _ => rfl
  | p :: ps, g, h => by
    rw [List.foldl_cons, List.foldl_cons, afterPacket_openOf h.1]
    exact foldl_afterPacket_openOf ps h.2

/-! ## The frame of the open group -/

/-- The out parameters hold the frame of the open group `g`. -/
structure HoldsGroup (moduleId : Int) (g : List JungfrauPacket) (f : Frame) : Prop where
  empty : g = [] → f.metadata.pulseId = 0 ∧ f.metadata.nRecvPackets = 0
  metadata : ∀ p, header g = some p → f.metadata = groupMetadata moduleId p g.length
  blocks : ∀ j < jfNPacketsPerFrame, frameBlock f j = groupBlock g j

section

variable {moduleId : Int} {g : List JungfrauPacket} {f : Frame} {p : JungfrauPacket}

theorem holdsGroup_reset (moduleId : Int) (f : Frame) : HoldsGroup moduleId [] (resetFrame f) :=
  ⟨fun _ => ⟨rfl, rfl⟩, fun p h => (by cases h), fun _ hj => frameBlock_reset f hj⟩

theorem HoldsGroup.pulse (hf : HoldsGroup moduleId g f) : f.metadata.pulseId ≠ 0 ↔ pulsed g = true := by
  by_cases hne : g = []
  · subst hne
    exact iff_of_false (fun h => h (hf.empty rfl).1) (by decide)
  · obtain ⟨p, hp⟩ := header_isSome hne
    rw [hf.metadata p hp]
    exact header_timed hp

theorem HoldsGroup.nRecvPackets (hf : HoldsGroup moduleId g f) : f.metadata.nRecvPackets = UInt64.ofNat g.length := by
  by_cases hne : g = []
  · subst hne
    exact (hf.empty rfl).2
  · obtain ⟨p, hp⟩ := header_isSome hne
    rw [hf.metadata p hp]
    rfl

/-- Copying a packet of the group. -/
theorem HoldsGroup.copy (hf : HoldsGroup moduleId g f) (hp : p.packetnum.toNat < jfNPacketsPerFrame) :
    HoldsGroup moduleId (g ++ [p])
      (copyPacketToBuffers (if f.metadata.pulseId = 0 then initFrame moduleId f p else f) p) := by
  have hpulse := hf.pulse
  constructor
  · intro h
    simp at h
  · intro q hq
    rw [header_append] at hq
    cases hpulsed : pulsed g with
    | true =>
      -- the header stays that of the first packet with a pulse_id
      rw [hpulsed, if_pos rfl] at hq
      rw [if_neg (hpulse.2 hpulsed)]
      simp [copyPacketToBuffers, hf.metadata q hq, groupMetadata]
    | false =>
      rw [hpulsed, if_neg (by decide)] at hq
      cases hq
      have h0 : f.metadata.pulseId = 0 := by
        by_contra hne
        rw [hpulse.1 hne] at hpulsed
        cases hpulsed
      rw [if_pos h0]
      simp [copyPacketToBuffers, initFrame, groupMetadata, hf.nRecvPackets]
  · intro j hj
    have hsame : frameBlock (if f.metadata.pulseId = 0 then initFrame moduleId f p else f) j = frameBlock f j := by
      split <;> rfl
    rw [frameBlock_copy _ hp, groupBlock_append, hsame, hf.blocks j hj]

/-- The test of the loop is the cut of the group. -/
theorem HoldsGroup.cuts (hf : HoldsGroup moduleId g f) (hg : SameTrigger g)
    (hcut : pulsed g = false → Grouping.cuts otherFrame g p = false) :
    (f.metadata.pulseId ≠ 0 ∧ f.metadata.frameIndex ≠ p.framenum) ↔ Grouping.cuts otherFrame g p = true := by
  rw [hf.pulse, cuts_iff hg]
  constructor
  · rintro ⟨hpulsed, hne⟩
    obtain ⟨q, hq⟩ := header_isSome (g := g) (by rintro rfl; cases hpulsed)
    rw [hf.metadata q hq] at hne
    exact ⟨q, header_mem hq, hne⟩
  · rintro ⟨q, hq, hne⟩
    have hpulsed : pulsed g = true := by
      by_contra hnot
      have hfalse := hcut (Bool.eq_false_iff.2 hnot)
      rw [(cuts_iff hg).2 ⟨q, hq, hne⟩] at hfalse
      cases hfalse
    obtain ⟨q', hq'⟩ := header_isSome (List.ne_nil_of_mem hq)
    refine ⟨hpulsed, ?_⟩
    rw [hf.metadata q' hq']
    exact fun h => hne ((hg q hq q' (header_mem hq')).trans h)

theorem HoldsGroup.view (hf : HoldsGroup moduleId g f) (hne : g ≠ []) :
    view (f.metadata.pulseId, f) = ownFrame moduleId g := by
  obtain ⟨p, hp⟩ := header_isSome hne
  have hb : (fun j : Fin jfNPacketsPerFrame => frameBlock f j) = fun j : Fin jfNPacketsPerFrame => groupBlock g j :=
    funext fun j => hf.blocks j j.2
  unfold UdpRecv.view ownFrame
  rw [hp]
  simp only [hf.metadata p hp, hb]
  rfl

end

/-! ## One batch -/

/-- What `process_packets` does with the packets `ps`, which are the last ones in the slots. -/
inductive GroupSpec (r : FrameUdpReceiver) (g ps : List JungfrauPacket) : UInt64 × FrameUdpReceiver × Frame → Prop
  /-- All packets are copied to the open group. -/
  | emptied {pulseId f} : pulseId = 0 → HoldsGroup r.moduleId (ps.foldl afterJoin g) f → frameGroups g ps = [] →
      GroupSpec r g ps (pulseId, r.mark false 0, f)
  /-- The group `g'` is returned, and the packets after it are marked. -/
  | closed {loaded offset f} (g' left : List JungfrauPacket) : f.metadata.pulseId ≠ 0 → HoldsGroup r.moduleId g' f →
      g' ≠ [] → left <:+ ps → leftover (r.mark loaded offset) = left → frameGroups g ps = g' :: frameGroups [] left →
      ps.foldl afterJoin g = left.foldl afterJoin [] → OneTrigger [] left → KeepsSlots none left →
      GroupSpec r g ps (f.metadata.pulseId, r.mark loaded offset, f)

/-- The packets after one that neither cuts nor ends. -/
theorem GroupSpec.cons {r : FrameUdpReceiver} {g ps : List JungfrauPacket} {p : JungfrauPacket}
    {out : UInt64 × FrameUdpReceiver × Frame} (hcut : cuts otherFrame g p = false) (hend : ended g p = false)
    (h : GroupSpec r (g ++ [p]) ps out) : GroupSpec r g (p :: ps) out := by
  have hafter : afterJoin g p = g ++ [p] := by
    unfold afterJoin
    rw [if_neg (by rw [hend]; decide), joined_of_not_cuts hcut]
  have hgroups : frameGroups g (p :: ps) = frameGroups (g ++ [p]) ps := by
    rw [frameGroups, hafter]
    unfold closedBy
    rw [hcut, hend]
    rfl
  have hfold : (p :: ps).foldl afterJoin g = ps.foldl afterJoin (g ++ [p]) := by
    rw [List.foldl_cons, hafter]
  cases h with
  | emptied h0 hf hnone => exact .emptied h0 (by rwa [hfold]) (hgroups.trans hnone)
  | closed g' left h0 hf hne hsuf hleft hfirst hf' hone hkeeps =>
    exact .closed g' left h0 hf hne (hsuf.trans (List.suffix_cons _ _)) hleft (hgroups.trans hfirst) (hfold.trans hf')
      hone hkeeps

/-- A packet of another trigger: the open group is returned without it. -/
theorem GroupSpec.cut {r : FrameUdpReceiver} {g ps : List JungfrauPacket} {p : JungfrauPacket} {f : Frame}
    (hcut : cuts otherFrame g p = true) (hone : OneTrigger g (p :: ps)) (hkeeps : KeepsSlots (openOf g) (p :: ps))
    (hf : HoldsGroup r.moduleId g f) (h0 : f.metadata.pulseId ≠ 0) {loaded : Bool} {offset : Nat}
    (hleft : leftover (r.mark loaded offset) = p :: ps) :
    GroupSpec r g (p :: ps) (f.metadata.pulseId, r.mark loaded offset, f) := by
  have hne : g ≠ [] := by
    rintro rfl
    cases hcut
  have hafter := afterJoin_of_cuts hcut
  have hfold : (p :: ps).foldl afterJoin g = (p :: ps).foldl afterJoin [] := by
    rw [List.foldl_cons, List.foldl_cons, hafter]
  have hone' : OneTrigger [] (p :: ps) := by
    refine ⟨fun _ => rfl, ?_⟩
    rw [← hafter]
    exact hone.2
  have hopened : opened (openOf g) p = opened none p := by
    rw [opened_openOf hone.1, joined_of_cuts hcut]
    exact openOf_singleton p
  exact .closed g (p :: ps) h0 hf hne (List.suffix_refl _) hleft (frameGroups_of_cuts hcut ps) hfold hone'
    ((keepsSlots_congr hopened ps).1 hkeeps)

/-- The packet that ends its frame: the group is returned with it. -/
theorem GroupSpec.last {r : FrameUdpReceiver} {g ps : List JungfrauPacket} {p : JungfrauPacket} {f : Frame}
    (hcut : cuts otherFrame g p = false) (hlast : lastPacket p = true) (hpulsed : pulsed (g ++ [p]) = true)
    (hone : OneTrigger g (p :: ps)) (hkeeps : KeepsSlots (openOf g) (p :: ps))
    (hf : HoldsGroup r.moduleId (g ++ [p]) f) {loaded : Bool} {offset : Nat}
    (hleft : leftover (r.mark loaded offset) = ps) :
    GroupSpec r g (p :: ps) (f.metadata.pulseId, r.mark loaded offset, f) := by
  have hjoined := joined_of_not_cuts hcut
  have hended : ended g p = true := by
    unfold ended
    rw [hlast, hjoined, hpulsed]
    rfl
  have hafter : afterJoin g p = [] := if_pos hended
  have hgroups : frameGroups g (p :: ps) = (g ++ [p]) :: frameGroups [] ps := by
    rw [frameGroups, hafter]
    unfold closedBy
    rw [hcut, hended, hjoined]
    rfl
  have hfold : (p :: ps).foldl afterJoin g = ps.foldl afterJoin [] := by rw [List.foldl_cons, hafter]
  have hone' : OneTrigger [] ps := by
    rw [← hafter]
    exact hone.2
  have hkeeps' : KeepsSlots none ps := by
    have h := hkeeps.2
    rw [afterPacket_openOf hone.1, hafter] at h
    exact h
  exact .closed (g ++ [p]) ps (hf.pulse.2 hpulsed) hf (by simp) (List.suffix_cons _ _) hleft hgroups hfold hone' hkeeps'

theorem processLoop_groups {r : FrameUdpReceiver} (hr : Counted r) :
    ∀ (ps : List JungfrauPacket) (i : Nat) (f : Frame) (g : List JungfrauPacket), HoldsGroup r.moduleId g f →
      SameTrigger g → OneTrigger g ps → KeepsSlots (openOf g) ps →
      (∀ p ∈ ps, p.packetnum.toNat < jfNPacketsPerFrame) → r.batch.drop i = ps →
        GroupSpec r g ps (processLoop r i ps f)
  | [], i, f, g, hf, _, _, _, _, _ => .emptied rfl hf rfl
  | p :: ps, i, f, g, hf, hg, hone, hkeeps, hnum, hi => by
    have htest := hf.cuts hg hone.1
    have hf' := hf.copy (hnum p (List.mem_cons_self ..))
    generalize hcopy : copyPacketToBuffers (if f.metadata.pulseId = 0 then initFrame r.moduleId f p else f) p = f' at hf'
    rcases processLoop_cases hr hi hcopy with ⟨hcut, hleft, hout⟩ |
      ⟨hcut, hlast, loaded, offset, hleft, hnone, hout⟩ | ⟨hcut, hlast, hi', hout⟩
    · -- the packet belongs to another trigger: the group is returned without it
      rw [hout]
      exact .cut (htest.1 hcut) hone hkeeps hf hcut.1 hleft
    · rw [htest, Bool.not_eq_true] at hcut
      rw [hout]
      by_cases hpulsed : pulsed (g ++ [p]) = true
      · -- the group is returned with the packet
        exact .last hcut (lastPacket_iff.2 hlast) hpulsed hone hkeeps hf' hleft
      · -- the frame has no pulse_id: nothing comes after the packet in this batch
        have hjoined := joined_of_not_cuts hcut
        have hfalse : pulsed (g ++ [p]) = false := Bool.eq_false_iff.2 hpulsed
        have hnil : ps = [] := by
          apply hkeeps.1 (lastPacket_iff.2 hlast)
          rw [opened_openOf hone.1, hjoined]
          exact openOf_of_not hfalse
        have h0 : f'.metadata.pulseId = 0 := by
          by_contra hne
          exact hpulsed (hf'.pulse.1 hne)
        have hended : ended g p = false := by
          unfold ended
          rw [hjoined, hfalse, Bool.and_false]
        obtain ⟨rfl, rfl⟩ := hnone hnil
        subst hnil
        exact .cons hcut hended (.emptied h0 hf' rfl)
    · rw [htest, Bool.not_eq_true] at hcut
      have hended : ended g p = false := by
        unfold ended
        rw [lastPacket_eq_false.2 hlast, Bool.false_and]
      have hafter : afterJoin g p = g ++ [p] := by
        unfold afterJoin
        rw [if_neg (by rw [hended]; decide), joined_of_not_cuts hcut]
      have hg' := hg.afterJoin p
      have hone' := hone.2
      have hkeeps' := hkeeps.2
      rw [afterPacket_openOf hone.1] at hkeeps'
      rw [hafter] at hg' hone' hkeeps'
      rw [hout]
      exact .cons hcut hended (processLoop_groups hr ps (i + 1) f' (g ++ [p]) hf' hg' hone' hkeeps'
        (fun q hq => hnum q (List.mem_cons_of_mem _ hq)) hi')

/-! ## One call -/

/-- What the run has still to read with the open group `g`: packets `ps` in the slots, and further
batches. -/
structure Unmixed (g ps : List JungfrauPacket) (evs : List RecvMany) : Prop where
  packetnum : ∀ p ∈ ps ++ received evs, p.packetnum.toNat < jfNPacketsPerFrame
  oneTrigger : OneTrigger g (ps ++ received evs)
  slots : KeepsSlots (openOf g) ps
  batches : KeepsBatches (ps.foldl afterPacket (openOf g)) evs

/-- A call waits for packets when the stream closes no group, and otherwise returns the frame of the
first closed group, with the rest of the stream still to be read. -/
inductive GroupCall (moduleId : Int) (groups : List (List JungfrauPacket)) : Outcome → Prop
  | receiving {r f} : groups = [] → GroupCall moduleId groups (.receiving r f)
  | returned {pulseId r f rest} (g : List JungfrauPacket) : view (pulseId, f) = ownFrame moduleId g → Counted r →
      r.moduleId = moduleId → Unmixed [] (leftover r) rest →
      groups = g :: frameGroups [] (leftover r ++ received rest) → GroupCall moduleId groups (.returned pulseId r f rest)

theorem Unmixed.closed {g ps : List JungfrauPacket} {evs : List RecvMany}
    (h : Unmixed g ps evs) {left : List JungfrauPacket} (hsuf : left <:+ ps)
    (hfold : ps.foldl afterJoin g = left.foldl afterJoin []) (hone : OneTrigger [] left) (hkeeps : KeepsSlots none left) :
    Unmixed [] left evs := by
  obtain ⟨hnum, honeAll, -, hbatches⟩ := h
  obtain ⟨honePs, honeEvs⟩ := (oneTrigger_append ..).1 honeAll
  constructor
  · intro p hp
    rcases List.mem_append.1 hp with hp | hp
    · exact hnum p (List.mem_append_left _ (hsuf.subset hp))
    · exact hnum p (List.mem_append_right _ hp)
  · rw [hfold] at honeEvs
    exact (oneTrigger_append ..).2 ⟨hone, honeEvs⟩
  · exact hkeeps
  · rw [foldl_afterPacket_openOf ps honePs, hfold] at hbatches
    rw [foldl_afterPacket_openOf left hone]
    exact hbatches

/-- A call after `process_packets`. -/
theorem groupCall_of_spec {r : FrameUdpReceiver} (hr : Counted r) {g ps : List JungfrauPacket} {evs : List RecvMany}
    {out : UInt64 × FrameUdpReceiver × Frame} (hspec : GroupSpec r g ps out) (hg : SameTrigger g)
    (h : Unmixed g ps evs)
    (ih : ∀ r' f' g', FrameUdpReceiver.moduleId r' = r.moduleId → HoldsGroup r.moduleId g' f' → SameTrigger g' →
      Unmixed g' [] evs → GroupCall r.moduleId (frameGroups g' (received evs)) (receiveLoop evs r' f')) :
    GroupCall r.moduleId (frameGroups g (ps ++ received evs))
      (match out with
      | (pulseId, r, f) => if pulseId ≠ 0 then .returned pulseId r f evs else receiveLoop evs r f) := by
  rw [frameGroups_append]
  cases hspec with
  | emptied h0 hf hnone =>
    obtain ⟨hnum, hone, -, hbatches⟩ := h
    obtain ⟨honePs, honeEvs⟩ := (oneTrigger_append ..).1 hone
    rw [foldl_afterPacket_openOf ps honePs] at hbatches
    simp only [h0, ne_eq, not_true_eq_false, if_false]
    rw [hnone]
    exact ih (r.mark false 0) _ _ rfl hf (hg.foldl ps)
      ⟨fun p hp => hnum p (List.mem_append_right _ hp), honeEvs, trivial, hbatches⟩
  | closed g' left h0 hf hne hsuf hleft hfirst hfold hone hkeeps =>
    simp only [h0, ne_eq, not_false_eq_true, if_true]
    refine .returned g' (hf.view hne) hr rfl ?_ ?_
    · rw [hleft]
      exact h.closed hsuf hfold hone hkeeps
    · rw [hfirst, hfold, hleft, frameGroups_append]
      rfl

theorem receiveLoop_groups : ∀ (evs : List RecvMany) (r : FrameUdpReceiver) (f : Frame) (g : List JungfrauPacket),
    HoldsGroup r.moduleId g f → SameTrigger g → Unmixed g [] evs →
      GroupCall r.moduleId (frameGroups g (received evs)) (receiveLoop evs r f)
  | [], r, f, g, _, _, _ => .receiving rfl
  | ev :: evs, r, f, g, hf, hg, h => by
    obtain ⟨hnum, hone, -, hbatches⟩ := h
    rw [List.nil_append, received_cons r] at hnum hone
    rw [List.foldl_nil, keepsBatches_cons r] at hbatches
    rw [received_cons r]
    have hr := counted_receiveMany r ev
    have hid := moduleId_receiveMany r ev
    unfold receiveLoop
    simp only
    generalize receiveMany r ev = r' at hr hid hnum hone hbatches ⊢
    rw [← hid] at hf ⊢
    have hnext : Unmixed g r'.batch evs := ⟨hnum, hone, hbatches.1, hbatches.2⟩
    have ih : ∀ r'' f' g', FrameUdpReceiver.moduleId r'' = r'.moduleId → HoldsGroup r'.moduleId g' f' → SameTrigger g' →
        Unmixed g' [] evs → GroupCall r'.moduleId (frameGroups g' (received evs)) (receiveLoop evs r'' f') := by
      intro r'' f' g' hid' hf' hg' h'
      rw [← hid'] at hf' ⊢
      exact receiveLoop_groups evs r'' f' g' hf' hg' h'
    split
    · -- `recvmmsg` returned no packet
      rename_i hn
      have hnil : r'.batch = [] := by
        unfold FrameUdpReceiver.batch; rw [hn]; rfl
      rw [hnil] at hnext ⊢
      exact receiveLoop_groups evs r' f g hf hg hnext
    · have hone' := ((oneTrigger_append ..).1 hone).1
      exact groupCall_of_spec hr (processLoop_groups hr r'.batch 0 f g hf hg hone' hbatches.1
        (fun p hp => hnum p (List.mem_append_left _ hp)) rfl) hg hnext ih

theorem getFrameFromUdp_groups {r : FrameUdpReceiver} (hr : Counted r) (f : Frame) {evs : List RecvMany}
    (h : Unmixed [] (leftover r) evs) :
    GroupCall r.moduleId (frameGroups [] (leftover r ++ received evs)) (getFrameFromUdp r f evs) := by
  have hf := holdsGroup_reset r.moduleId f
  unfold getFrameFromUdp
  simp only
  generalize resetFrame f = f0 at hf ⊢
  split
  · rename_i hl
    have hleft : leftover r = r.batch.drop r.packetBufferOffset := if_pos hl
    rw [hleft] at h ⊢
    have hone := ((oneTrigger_append ..).1 h.oneTrigger).1
    refine groupCall_of_spec hr (processLoop_groups hr _ r.packetBufferOffset f0 [] hf .nil hone h.slots
      (fun p hp => h.packetnum p (List.mem_append_left _ hp)) rfl) .nil h fun r' f' g' hid' hf' hg' h' => ?_
    rw [← hid'] at hf' ⊢
    exact receiveLoop_groups evs r' f' g' hf' hg' h'
  · rename_i hl
    have hleft : leftover r = [] := if_neg hl
    rw [hleft] at h ⊢
    exact receiveLoop_groups evs r f0 [] hf .nil h

/-! ## Successive calls -/

/-- The calls return the frames of the closed groups, in order. -/
theorem calls_groups (moduleId : Int) : ∀ (n : Nat) (r : FrameUdpReceiver) (f : Frame) (evs : List RecvMany),
    Counted r → r.moduleId = moduleId → Unmixed [] (leftover r) evs →
      (calls n r f evs).map view =
        ((frameGroups [] (leftover r ++ received evs)).take n).map (ownFrame moduleId)
  | 0, _, _, _, _, _, _ => rfl
  | n + 1, r, f, evs, hr, hid, h => by
    have hcall := getFrameFromUdp_groups hr f h
    unfold calls
    rw [hid] at hcall
    generalize frameGroups [] (leftover r ++ received evs) = groups at hcall ⊢
    generalize getFrameFromUdp r f evs = out at hcall ⊢
    cases hcall with
    | receiving hnone => rw [hnone]; rfl
    | returned g hview hr' hid' h' hgroups =>
      rw [hgroups, List.take_succ_cons, List.map_cons, List.map_cons, hview]
      rw [calls_groups moduleId n _ _ _ hr' hid' h']

end SfDaqBuffer.UdpRecv
