/-
Announce after write: a pulse_id in a channel, in the messages jf_assembler has received or in the
result of `get_next_pulse_id` was written to the RAM buffer before. Messages may be lost; none is
invented.
-/
import SfDaqBuffer.CoreBuffer.Assemble
import SfDaqBuffer.LivePath.System
import SfDaqBuffer.UdpRecv.Header

namespace SfDaqBuffer.LivePath

open UdpRecv CoreBuffer Assembler

variable {g : Geometry} {s s' : State g}

/-! ## The invariant -/

/-- Module `m` has executed `write_frame` for `p`. -/
def Wrote (s : State g) (m : Nat) (p : UInt64) : Prop :=
  ∃ w ∈ s.log, w.1.moduleId.toNat = m ∧ w.1.pulseId = p

theorem Wrote.mono {m : Nat} {p : UInt64} (h : Wrote s m p) (hlog : s.log ⊆ s'.log) : Wrote s' m p := by
  obtain ⟨w, hw, hwrote⟩ := h
  exact ⟨w, hlog hw, hwrote⟩

structure SenderInv (s : State g) (m : Nat) : Prop where
  receiver : (s.senders m).receiver.moduleId = m
  frame : (s.senders m).phase = .writeFrame →
    Returned m (s.senders m).pulseId (s.senders m).receiver (s.senders m).frame
  announced : (s.senders m).phase = .send → Wrote s m (s.senders m).pulseId
  channel : ∀ p ∈ s.channels m, Wrote s m p
  unread : ∀ p ∈ s.unread m, Wrote s m p

structure Inv (s : State g) : Prop where
  senders : ∀ m < g.nModules, SenderInv s m
  assembling : ∀ p, s.assembler = .assembling p → ∀ m < g.nModules, Wrote s m p
  log : ∀ w ∈ s.log, w.1.moduleId.toNat < g.nModules ∧ w.1.daqRec.toUInt32.toUInt64 = w.1.daqRec
  buffer : ∃ f, Refines s.buffer (s.log.foldl (Cells.write g) f)

/-- A step that does not involve sender `m`, and may lose messages of it. -/
theorem SenderInv.frame_step {m : Nat} (h : SenderInv s m) (hsender : s'.senders m = s.senders m)
    (hlog : s.log ⊆ s'.log) (hchannel : s'.channels m ⊆ s.channels m) (hunread : s'.unread m ⊆ s.unread m) :
    SenderInv s' m where
  receiver := hsender ▸ h.receiver
  frame := hsender ▸ h.frame
  announced := hsender ▸ fun hphase => (h.announced hphase).mono hlog
  channel p hp := (h.channel p (hchannel hp)).mono hlog
  unread p hp := (h.unread p (hunread hp)).mono hlog

theorem init_inv (h : Init s) : Inv s where
  senders m _ := by
    obtain ⟨⟨slots, hreceiver⟩, -, hphase⟩ := h.senders m
    refine ⟨by rw [hreceiver]; rfl, fun hp => ?_, fun hp => ?_, fun p hp => ?_, fun p hp => ?_⟩
    · rw [hphase] at hp; cases hp
    · rw [hphase] at hp; cases hp
    · rw [h.channels m] at hp; cases hp
    · rw [h.unread m] at hp; cases hp
  assembling p hp := by rw [h.assembler] at hp; cases hp
  log w hw := by rw [h.log] at hw; cases hw
  buffer := ⟨fun slot m => (s.buffer.cellMeta slot m, s.buffer.cellData slot m), by
    rw [h.log]
    exact ⟨fun _ _ _ _ => rfl, fun _ _ _ _ => rfl⟩⟩

/-! ## Steps of a sender -/

section

variable {m : Nat}

/-- A step of sender `m` keeps the invariant if it keeps what concerns the sender itself. -/
theorem Inv.sender (h : Inv s) (hothers : ∀ m' < g.nModules, m' ≠ m → SenderInv s' m')
    (hself : SenderInv s' m) (hlog : s.log ⊆ s'.log) (hassembler : s'.assembler = s.assembler)
    (hwrites : ∀ w ∈ s'.log, w.1.moduleId.toNat < g.nModules ∧ w.1.daqRec.toUInt32.toUInt64 = w.1.daqRec)
    (hbuffer : ∃ f, Refines s'.buffer (s'.log.foldl (Cells.write g) f)) : Inv s' where
  senders m' hm' := by
    by_cases heq : m' = m
    · exact heq ▸ hself
    · exact hothers m' hm' heq
  assembling p hp m' hm' := (h.assembling p (hassembler ▸ hp) m' hm').mono hlog
  log := hwrites
  buffer := hbuffer

theorem others_setSender (h : Inv s) (sender : Sender) :
    ∀ m' < g.nModules, m' ≠ m → SenderInv (s.setSender m sender) m' := fun m' hm' hne =>
  (h.senders m' hm').frame_step (Function.update_of_ne hne _ _) (List.Subset.refl _) (List.Subset.refl _)
    (List.Subset.refl _)

theorem sender_setSender (s : State g) (m : Nat) (sender : Sender) :
    (s.setSender m sender).senders m = sender := Function.update_self ..

theorem receive_inv (h : Inv s) (hm : m < g.nModules) {pulseId : UInt64} {r : FrameUdpReceiver} {f : Frame}
    {rest : List RecvMany} (previous : FrameMark) {phase : SenderPhase} (hphase : phase ≠ .send)
    (hout : getFrameFromUdp (s.senders m).receiver (s.senders m).frame (s.senders m).events =
      .returned pulseId r f rest) : Inv (s.setSender m ⟨r, f, pulseId, previous, rest, phase⟩) := by
  have hself := h.senders m hm
  have hret := getFrameFromUdp_returned hout
  rw [hself.receiver] at hret
  refine h.sender (others_setSender h _) ?_ (List.Subset.refl _) rfl h.log h.buffer
  constructor
  · rw [sender_setSender]
    exact hret.receiver
  · rw [sender_setSender]
    exact fun _ => hret
  · rw [sender_setSender]
    exact fun hp => absurd hp hphase
  · exact hself.channel
  · exact hself.unread

theorem moduleId_toNat (hm : m < g.nModules) : (UInt64.ofInt m).toNat = m := by
  have hn := Geometry.nModules_le (g := g)
  have hlt := g.cells_lt
  have hcast : UInt64.ofInt m = UInt64.ofNat m := by
    unfold UInt64.ofInt
    congr 1
    omega
  rw [hcast]
  exact UInt64.toNat_ofNat_of_lt' (by simp only [UInt64.size]; omega)

theorem write_inv (h : Inv s) (hm : m < g.nModules) (hphase : (s.senders m).phase = .writeFrame)
    {metadata : ModuleFrame} {data : ModuleData} (hmeta : (s.senders m).frame.metadata = metadata)
    {buffer : RamBuffer g} (hwrite : s.buffer.writeFrame metadata data = some buffer) :
    Inv (State.setSender { s with buffer := buffer, log := s.log ++ [(metadata, data)] } m
      { s.senders m with phase := .send }) := by
  have hself := h.senders m hm
  have hret := hself.frame hphase
  have hid : metadata.moduleId.toNat = m := by
    rw [← hmeta, hret.moduleId, moduleId_toNat hm]
  have hlog : s.log ⊆ s.log ++ [(metadata, data)] := List.subset_append_left _ _
  have hwrote : (metadata, data) ∈ s.log ++ [(metadata, data)] := by simp
  refine h.sender (m := m) (fun m' hm' hne => ?_) ?_ hlog rfl ?_ ?_
  · exact (h.senders m' hm').frame_step (Function.update_of_ne hne _ _) hlog (List.Subset.refl _)
      (List.Subset.refl _)
  · constructor
    · rw [sender_setSender]
      exact hself.receiver
    · rw [sender_setSender]
      intro hp
      cases hp
    · rw [sender_setSender]
      intro _
      refine ⟨(metadata, data), hwrote, hid, ?_⟩
      rw [← hmeta]
      exact hret.pulseId
    · exact fun p hp => (hself.channel p hp).mono hlog
    · exact fun p hp => (hself.unread p hp).mono hlog
  · intro w hw
    rcases List.mem_append.1 hw with hw | hw
    · exact h.log w hw
    · obtain rfl := List.mem_singleton.1 hw
      obtain ⟨debug, hdaq⟩ := hret.daqRec
      rw [hmeta] at hdaq
      refine ⟨by rw [hid]; exact hm, ?_⟩
      rw [hdaq, UInt32.toUInt32_toUInt64]
  · obtain ⟨f, hf⟩ := h.buffer
    have hlt : metadata.moduleId.toNat < g.nModules := by rw [hid]; exact hm
    have hf' := hf.writeFrame (w := (metadata, data)) hlt hwrite
    refine ⟨f, ?_⟩
    show Refines buffer ((s.log ++ [(metadata, data)]).foldl (Cells.write g) f)
    rw [List.foldl_append]
    exact hf'

theorem send_inv (h : Inv s) (hm : m < g.nModules) (hphase : (s.senders m).phase = .send) (mark : FrameMark) :
    Inv ((s.setChannel m (s.channels m ++ [(s.senders m).pulseId])).setSender m
      { s.senders m with previous := mark, phase := .receive }) := by
  have hself := h.senders m hm
  refine h.sender (m := m) (fun m' hm' hne => ?_) ?_ (List.Subset.refl _) rfl h.log h.buffer
  · refine (h.senders m' hm').frame_step (Function.update_of_ne hne _ _) (List.Subset.refl _) ?_
      (List.Subset.refl _)
    show Function.update s.channels m _ m' ⊆ _
    rw [Function.update_of_ne hne]
    exact List.Subset.refl _
  · constructor
    · rw [sender_setSender]
      exact hself.receiver
    · rw [sender_setSender]
      intro hp
      cases hp
    · rw [sender_setSender]
      intro hp
      cases hp
    · -- the message was written in the step before
      intro p hp
      change p ∈ Function.update s.channels m _ m at hp
      rw [Function.update_self] at hp
      rcases List.mem_append.1 hp with hp | hp
      · exact hself.channel p hp
      · obtain rfl := List.mem_singleton.1 hp
        exact hself.announced hphase
    · exact hself.unread

theorem senderStep_inv (h : Inv s) (hm : m < g.nModules) (hstep : senderStep s m = some s') : Inv s' := by
  rcases senderStep_cases hstep with ⟨_, _, _, _, _, _, hnext, hout, rfl, -⟩ | ⟨_, hphase, hwrite, rfl⟩ |
    ⟨_, hphase, rfl⟩
  · exact receive_inv h hm _ hnext hout
  · exact write_inv h hm hphase rfl hwrite
  · exact send_inv h hm hphase _

end

/-! ## Steps of the assembler and the channels -/

theorem drop_inv (h : Inv s) (m i : Nat) : Inv (s.setChannel m ((s.channels m).eraseIdx i)) := by
  refine ⟨fun m' hm' => ?_, h.assembling, h.log, h.buffer⟩
  refine (h.senders m' hm').frame_step rfl (List.Subset.refl _) ?_ (List.Subset.refl _)
  show Function.update s.channels m _ m' ⊆ _
  by_cases heq : m' = m
  · subst heq
    rw [Function.update_self]
    exact (List.eraseIdx_sublist _ _).subset
  · rw [Function.update_of_ne heq]
    exact List.Subset.refl _

/-- A message moves from a channel to the messages that the assembler has received. -/
theorem recv_inv (h : Inv s) {m : Nat} {p : UInt64} {msgs : List UInt64} (hchannel : s.channels m = p :: msgs) :
    Inv ((s.setChannel m msgs).setUnread m (s.unread m ++ [p])) := by
  refine ⟨fun m' hm' => ?_, h.assembling, h.log, h.buffer⟩
  have hself := h.senders m' hm'
  refine ⟨hself.receiver, hself.frame, hself.announced, fun q hq => ?_, fun q hq => ?_⟩
  · change q ∈ Function.update s.channels m msgs m' at hq
    by_cases heq : m' = m
    · subst heq
      rw [Function.update_self] at hq
      exact hself.channel q (hchannel ▸ List.mem_cons_of_mem _ hq)
    · rw [Function.update_of_ne heq] at hq
      exact hself.channel q hq
  · change q ∈ Function.update s.unread m _ m' at hq
    by_cases heq : m' = m
    · subst heq
      rw [Function.update_self] at hq
      rcases List.mem_append.1 hq with hq | hq
      · exact hself.unread q hq
      · obtain rfl := List.mem_singleton.1 hq
        exact hself.channel _ (hchannel ▸ List.mem_cons_self ..)
    · rw [Function.update_of_ne heq] at hq
      exact hself.unread q hq

/-- The result of `get_next_pulse_id` is among the received messages of every module. -/
theorem returned_inv (h : Inv s) {res : PulseAndSync} {rest : List (List UInt64)}
    (hout : getNextPulseId ((List.range g.nModules).map s.unread) = .ok (res, rest)) :
    Inv { s with assembler := .assembling res.pulseId, unread := fun m => rest.getD m [] } := by
  have hread := List.forall₂_iff_get.1 (getNextPulseId_read hout)
  have hmodule : ∀ m < g.nModules, Streams.ReadTo (s.unread m) res.pulseId (rest.getD m []) := by
    intro m hm
    have hlen : m < ((List.range g.nModules).map s.unread).length := by simpa using hm
    have hlen' : m < rest.length := hread.1 ▸ hlen
    have hm' := hread.2 m hlen hlen'
    simpa [List.getD_eq_getElem?_getD, List.getElem?_eq_getElem hlen'] using hm'
  refine ⟨fun m hm => ?_, fun p hp m hm => ?_, h.log, h.buffer⟩
  · exact (h.senders m hm).frame_step rfl (List.Subset.refl _) (List.Subset.refl _)
      (hmodule m hm).suffix.subset
  · cases hp
    exact (h.senders m hm).unread _ (hmodule m hm).mem

/-- What `assemble_image` and an exception leave as it is. -/
theorem Inv.assembler (h : Inv s) (image : ImageMetadata) {phase : AssemblerPhase}
    (hphase : ∀ p, phase ≠ .assembling p) : Inv { s with assembler := phase, imageMeta := image } := by
  refine ⟨fun m hm => ?_, fun p hp => absurd hp (hphase p), h.log, h.buffer⟩
  exact (h.senders m hm).frame_step rfl (List.Subset.refl _) (List.Subset.refl _) (List.Subset.refl _)

theorem assemblerStep_inv (h : Inv s) (hstep : assemblerStep s = some s') : Inv s' := by
  rcases assemblerStep_cases hstep with ⟨_, _, _, hchannel, rfl⟩ | ⟨_, _, hout, rfl⟩ | ⟨_, _, -, -, rfl⟩ | ⟨_, _, rfl⟩
  · exact recv_inv h hchannel
  · exact returned_inv h hout
  · exact h.assembler _ nofun
  · exact h.assembler _ nofun

theorem step_inv (h : Inv s) {a : Action} (hstep : step a s = some s') : Inv s' := by
  cases a with
  | sender m =>
    unfold step at hstep
    simp only at hstep
    split at hstep
    · rename_i hm
      exact senderStep_inv h hm hstep
    · cases hstep
  | drop m i =>
    cases hstep
    exact drop_inv h m i
  | assembler => exact assemblerStep_inv h hstep

theorem reachable_inv (h : Reachable s) : Inv s :=
  h.invariant (fun _ => init_inv) fun _ _ _ hi => step_inv hi

/-! ## The image that is assembled -/

/-- The last frame that each module wrote to the slot of `p` is for `p`: no other pulse_id of the
slot came after it. -/
def Undisturbed (s : State g) (p : UInt64) : Prop :=
  ∀ m < g.nModules, ∀ w, lastWrite g s.log p m = some w → w.1.pulseId = p

theorem lastWrite_isSome {m : Nat} {p : UInt64} (h : Wrote s m p) : ∃ w, lastWrite g s.log p m = some w := by
  obtain ⟨w, hw, hid, hpulse⟩ := h
  have hmem : w ∈ s.log.filter fun w =>
      w.1.moduleId.toNat = m ∧ w.1.pulseId.toNat % g.nSlots = p.toNat % g.nSlots :=
    List.mem_filter.2 ⟨hw, decide_eq_true ⟨hid, by rw [hpulse]⟩⟩
  exact ⟨_, List.getLast?_eq_getLast_of_ne_nil (List.ne_nil_of_mem hmem)⟩

theorem mem_of_lastWrite {m : Nat} {p : UInt64} {w : ModuleFrame × ModuleData}
    (h : lastWrite g s.log p m = some w) : w ∈ s.log :=
  (List.mem_filter.1 (List.mem_of_getLast? h)).1

/-- The frames of the modules for `p` are in the buffer. -/
structure Stored (s : State g) (p : UInt64) (frames : Nat → ModuleFrame × ModuleData) : Prop where
  read : ∀ m < g.nModules, s.buffer.readFrame p (UInt64.ofInt m) = some (frames m)
  pulseId : ∀ m < g.nModules, (frames m).1.pulseId = p

/-- All modules have received all packets of the same frame. -/
def Complete (g : Geometry) (frames : Nat → ModuleFrame × ModuleData) : Prop :=
  ∀ m < g.nModules, (frames m).1.nRecvPackets.toNat = jfNPacketsPerFrame ∧
    ∀ m' < g.nModules, (frames m').1.frameIndex = (frames m).1.frameIndex ∧
      (frames m').1.daqRec = (frames m).1.daqRec

theorem goodFrames_iff (frames : Nat → ModuleFrame × ModuleData) :
    GoodFrames ((List.range g.nModules).map fun m => (frames m).1) ↔ Complete g frames := by
  simp [GoodFrames, Complete]

theorem assemble_undisturbed (h : Inv s) {p : UInt64} (hwrote : ∀ m < g.nModules, Wrote s m p)
    (hslot : Undisturbed s p) : ∃ frames image, Stored s p frames ∧
      s.buffer.assembleImage p s.imageMeta = some (.ok (), image) ∧
      (image.isGoodImage = 1 ↔ Complete g frames) := by
  obtain ⟨f, hf⟩ := h.buffer
  -- the slot of `p` holds the last write of each module
  have hcell : ∀ m < g.nModules, ∃ w ∈ s.log,
      s.log.foldl (Cells.write g) f (g.slotN p) m = w ∧ w.1.pulseId = p := by
    intro m hm
    obtain ⟨w, hw⟩ := lastWrite_isSome (hwrote m hm)
    refine ⟨w, mem_of_lastWrite hw, ?_, hslot m hm w hw⟩
    rw [foldl_write_eq, hw, Option.getD_some]
  refine ⟨fun m => s.log.foldl (Cells.write g) f (g.slotN p) m, ?_⟩
  obtain ⟨image, himage, hgood⟩ := hf.assembleImage p s.imageMeta
    (fun m hm => by
      obtain ⟨w, -, hw, hp⟩ := hcell m hm
      rw [hw, hp])
    (fun m hm => by
      obtain ⟨w, hmem, hw, -⟩ := hcell m hm
      rw [hw]
      exact (h.log w hmem).2)
  refine ⟨image, ⟨fun m hm => ?_, fun m hm => ?_⟩, himage, hgood.trans (goodFrames_iff _)⟩
  · have hid := moduleId_toNat hm
    rw [hf.readFrame p (by rw [hid]; exact hm), hid]
  · obtain ⟨w, -, hw, hp⟩ := hcell m hm
    show (s.log.foldl (Cells.write g) f (g.slotN p) m).1.pulseId = p
    rw [hw, hp]

/-- When `get_next_pulse_id` has returned `p`, all modules have written their frames for `p`; and
while they are not overwritten, `assemble_image` finds them. -/
theorem announce_after_write {p : UInt64} (h : Reachable s) (hreturned : s.assembler = .assembling p) :
    (∀ m < g.nModules, Wrote s m p) ∧
      (Undisturbed s p → ∃ frames image, Stored s p frames ∧
        s.buffer.assembleImage p s.imageMeta = some (.ok (), image) ∧
        (image.isGoodImage = 1 ↔ Complete g frames)) := by
  have hinv := reachable_inv h
  have hwrote := hinv.assembling p hreturned
  exact ⟨hwrote, assemble_undisturbed hinv hwrote⟩

def twoModules : Geometry := .checked 2 1 (@rfl Bool true)

/-- Each module receives the last packet of frame 1. -/
def twoSenders : State twoModules where
  buffer := .new _
  senders m := ⟨.new m [], ⟨.zero, fun _ => 0⟩, 0, ⟨0, 0⟩, [.msgs [bare 1 127 .one]], .receive⟩
  channels _ := []
  assembler := .receiving
  unread _ := []
  imageMeta := ⟨0, 0, 0, 0⟩
  log := []

/-- Both modules publish the frame, and the assembler receives their messages. -/
theorem announce_after_write_twoSenders :
    ∃ s : State twoModules, Reachable s ∧ s.assembler = .assembling 1 ∧ (∀ m < 2, Wrote s m 1) ∧
      ∃ frames image, Stored s 1 frames ∧ s.buffer.assembleImage 1 s.imageMeta = some (.ok (), image) ∧
        (image.isGoodImage = 1 ↔ Complete twoModules frames) := by
  have h0 : Reachable twoSenders :=
    .init ⟨fun _ => ⟨⟨_, rfl⟩, rfl, rfl⟩, fun _ => rfl, fun _ => rfl, rfl, rfl⟩
  have hrun : ((Runs.run step [.sender 0, .sender 0, .sender 0, .sender 1, .sender 1, .sender 1, .assembler,
      .assembler, .assembler] twoSenders).map fun s => (s.assembler, s.log.map fun w => w.1.pulseId)) =
      some (.assembling 1, [1, 1]) := by
    decide +kernel
  obtain ⟨s, hs, hobs⟩ := Option.map_eq_some_iff.1 hrun
  have hassembling : s.assembler = .assembling 1 := congrArg Prod.fst hobs
  have hlog : s.log.map (fun w => w.1.pulseId) = [1, 1] := congrArg Prod.snd hobs
  have hslot : Undisturbed s 1 := by
    intro m _ w hw
    have hmem := List.mem_map_of_mem (f := fun w => w.1.pulseId) (mem_of_lastWrite hw)
    rw [hlog] at hmem
    simpa using hmem
  have hsafe := announce_after_write (h0.run hs) hassembling
  exact ⟨s, h0.run hs, hassembling, hsafe.1, hsafe.2 hslot⟩

end SfDaqBuffer.LivePath
