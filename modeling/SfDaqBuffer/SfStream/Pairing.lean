/-
Metadata and data of the live stream: the image that sf_stream sends belongs to the pulse of the
metadata, as long as no frame of another pulse has come to its slot between `assemble_image` and
the send. sf_stream does not look at the pulse_ids in the slot again.
-/
import SfDaqBuffer.LivePath.AnnounceAfterWrite
import SfDaqBuffer.SfStream.Main

namespace SfDaqBuffer.SfStream

open CoreBuffer LivePath UdpRecv

variable {g : Geometry} {s s' : State g}

/-! ## What is announced -/

/-- A good image was assembled from frames that all modules wrote for its pulse. -/
theorem assembled_wrote {s : LivePath.State g} (h : LivePath.Inv s) {p : UInt64} {image : ImageMetadata}
    (hphase : s.assembler = .assembling p)
    (himage : s.buffer.assembleImage p s.imageMeta = some (.ok (), image)) (hgood : image.isGoodImage = 1) :
    ∀ m < g.nModules, Wrote s m image.pulseId := by
  obtain ⟨hcomplete, hnone⟩ := assembled_pulseId himage
  by_cases hex : ∃ m < g.nModules, CompleteFrame (s.buffer.cellMeta (g.slotN p) m)
  · rw [hcomplete hex]
    exact h.assembling p hphase
  · have hzero := hnone fun m hm hc => hex ⟨m, hm, hc⟩
    rw [hzero] at hgood
    cases hgood

theorem mem_assembled {s s' : LivePath.State g} {a : LivePath.Action} (hstep : LivePath.step a s = some s')
    {image : ImageMetadata} (hmem : image ∈ assembled a s s') :
    ∃ p, s.assembler = .assembling p ∧ s.buffer.assembleImage p s.imageMeta = some (.ok (), image) := by
  unfold assembled at hmem
  split at hmem
  · rename_i p hphase hphase'
    obtain rfl := List.mem_singleton.1 hmem
    rcases assemblerStep_cases hstep with ⟨_, _, _, -, rfl⟩ | ⟨_, _, -, rfl⟩ | ⟨q, image, hq, himage, rfl⟩ | ⟨_, _, rfl⟩
    · exact absurd (hphase.symm.trans hphase') (by simp)
    · cases hphase'
    · exact ⟨q, hq, himage⟩
    · cases hphase'
  · cases hmem

/-! ## The invariant -/

/-- The image is, for every module, the data of a frame that the module wrote for the pulse. -/
def ImageOf (log : List (ModuleFrame × ModuleData)) (p : UInt64) (image : Fin g.imageBytes → UInt8) : Prop :=
  ∀ m < g.nModules, ∃ w ∈ log, w.1.moduleId.toNat = m ∧ w.1.pulseId = p ∧
    ∀ k : Fin moduleNBytes, ∃ hk : m * moduleNBytes + k < g.imageBytes, image ⟨m * moduleNBytes + k, hk⟩ = w.2 k

/-- A good image comes with the data of its pulse. -/
def Paired (log : List (ModuleFrame × ModuleData)) (e : SentMessage g) : Prop :=
  e.isGoodFrame = 1 → ∀ image, e.image = some image → ImageOf log e.pulseId image

theorem ImageOf.mono {log log' : List (ModuleFrame × ModuleData)} {p : UInt64} {image : Fin g.imageBytes → UInt8}
    (h : ImageOf log p image) (hlog : log ⊆ log') : ImageOf log' p image := by
  intro m hm
  obtain ⟨w, hw, hdata⟩ := h m hm
  exact ⟨w, hlog hw, hdata⟩

structure Inv (s : State g) : Prop where
  live : LivePath.Inv s.live
  messages : ∀ image ∈ s.messages, image.isGoodImage = 1 → ∀ m < g.nModules, Wrote s.live m image.pulseId
  sending : ∀ image, s.phase = .send image → image.isGoodImage = 1 → ∀ m < g.nModules, Wrote s.live m image.pulseId
  sent : ∀ e ∈ s.sent, Paired s.live.log e

theorem init_inv (h : Init s) : Inv s where
  live := LivePath.init_inv h.live
  messages image hmem := by
    rw [h.messages] at hmem
    cases hmem
  sending image hphase := by
    rw [h.phase] at hphase
    cases hphase
  sent e he := by
    rw [h.sent] at he
    cases he

/-! ## Steps -/

theorem live_inv (h : Inv s) {a : LivePath.Action} {live : LivePath.State g} (hstep : LivePath.step a s.live = some live) :
    Inv { s with live := live, messages := s.messages ++ assembled a s.live live } := by
  have hlog := step_log hstep
  refine ⟨step_inv h.live hstep, ?_, ?_, ?_⟩
  · intro image hmem hgood m hm
    rcases List.mem_append.1 hmem with hmem | hmem
    · exact (h.messages image hmem hgood m hm).mono hlog
    · obtain ⟨p, hphase, himage⟩ := mem_assembled hstep hmem
      exact (assembled_wrote h.live hphase himage hgood m hm).mono hlog
  · exact fun image hphase hgood m hm => (h.sending image hphase hgood m hm).mono hlog
  · exact fun e he hgood image himage => (h.sent e he hgood image himage).mono hlog

/-- What is loaded from a slot are the data that each module wrote there last. -/
theorem load_lastWrite (h : LivePath.Inv s.live) {p : UInt64} {data : Fin g.imageBytes → UInt8}
    (hload : s.live.buffer.load (s.live.buffer.readImage p) g.imageBytes = some data) {m : Nat} (hm : m < g.nModules)
    {w : ModuleFrame × ModuleData} (hw : lastWrite g s.live.log p m = some w) :
    w ∈ s.live.log ∧ w.1.moduleId.toNat = m ∧
      ∀ k : Fin moduleNBytes, ∃ hk : m * moduleNBytes + k < g.imageBytes, data ⟨m * moduleNBytes + k, hk⟩ = w.2 k := by
  obtain ⟨f, hf⟩ := h.buffer
  obtain ⟨image, himage, hcells⟩ := hf.readImage p
  obtain rfl := Option.some.inj (himage.symm.trans hload)
  have hmem := List.mem_filter.1 (List.mem_of_getLast? hw)
  refine ⟨hmem.1, (of_decide_eq_true hmem.2).1, fun k => ?_⟩
  obtain ⟨hk, hdata⟩ := hcells m hm k
  rw [foldl_write_eq, hw, Option.getD_some] at hdata
  exact ⟨hk, hdata⟩

/-- In the slot of a pulse whose frames were not overwritten is its image. -/
theorem load_undisturbed (h : LivePath.Inv s.live) {p : UInt64} (hwrote : ∀ m < g.nModules, Wrote s.live m p)
    (hslot : Undisturbed s.live p) {data : Fin g.imageBytes → UInt8}
    (hload : s.live.buffer.load (s.live.buffer.readImage p) g.imageBytes = some data) : ImageOf s.live.log p data := by
  intro m hm
  obtain ⟨w, hw⟩ := lastWrite_isSome (hwrote m hm)
  obtain ⟨hmem, hid, hdata⟩ := load_lastWrite h hload hm hw
  exact ⟨w, hmem, hid, hslot m hm w hw, hdata⟩

theorem mem_send {image : ImageMetadata} {data : Fin g.imageBytes → UInt8} {streamvis : Bool} {live : Option Bool}
    {e : SentMessage g} (he : e ∈ send image data streamvis live) : ∃ socket full,
      e = message socket image data full ∧ (full = true → streamvis = true ∨ live = some true) := by
  unfold send at he
  cases live with
  | none => exact ⟨_, _, List.mem_singleton.1 he, .inl⟩
  | some full =>
    rcases List.mem_cons.1 he with rfl | he
    · exact ⟨_, _, rfl, .inl⟩
    · exact ⟨_, _, List.mem_singleton.1 he, fun hfull => .inr (congrArg some hfull)⟩

theorem paired_message {log : List (ModuleFrame × ModuleData)} {image : ImageMetadata}
    {data : Fin g.imageBytes → UInt8} {full : Bool}
    (h : full = true → image.isGoodImage = 1 → ImageOf log image.pulseId data) (socket : Socket) :
    Paired log (message socket image data full) := by
  intro hgood image' himage
  cases full with
  | false => cases himage
  | true =>
    cases himage
    exact h rfl hgood

/-- When sf_stream sends the data of a good image, the last frames in its slot are still those of its pulse. -/
def SlotKept (a : Action) (s : State g) : Prop :=
  ∀ streamvis live image, a = .send streamvis live → streamvis = true ∨ live = some true → s.phase = .send image →
    image.isGoodImage = 1 → Undisturbed s.live image.pulseId

theorem step_inv (h : Inv s) {a : Action} (hkept : SlotKept a s) (hstep : step a s = some s') : Inv s' := by
  cases a with
  | live action =>
    obtain ⟨live, hlive, hs'⟩ := Option.bind_eq_some_iff.1 hstep
    cases hs'
    exact live_inv h hlive
  | drop i =>
    cases hstep
    exact ⟨h.live, fun image hmem => h.messages image ((List.eraseIdx_sublist _ _).subset hmem), h.sending, h.sent⟩
  | receive =>
    unfold step at hstep
    simp only at hstep
    split at hstep
    · rename_i image messages hphase hmessages
      cases hstep
      refine ⟨h.live, fun i hi => h.messages i (hmessages ▸ List.mem_cons_of_mem _ hi), ?_, h.sent⟩
      intro i hi
      cases hi
      exact h.messages image (hmessages ▸ List.mem_cons_self ..)
    · cases hstep
  | send streamvis live =>
    unfold step at hstep
    simp only at hstep
    split at hstep
    · cases hstep
    · rename_i image hphase
      obtain ⟨data, hload, hs'⟩ := Option.bind_eq_some_iff.1 hstep
      cases hs'
      refine ⟨h.live, h.messages, nofun, ?_⟩
      intro e he
      rcases List.mem_append.1 he with he | he
      · exact h.sent e he
      · obtain ⟨socket, full, rfl, hfull⟩ := mem_send he
        refine paired_message (fun hdata hgood => ?_) socket
        exact load_undisturbed h.live (h.sending image hphase hgood)
          (hkept streamvis live image rfl (hfull hdata) hphase hgood) hload

/-- Otherwise the data of some module are those of another pulse. -/
theorem load_overwritten (h : LivePath.Inv s.live) {p : UInt64} (hslot : ¬ Undisturbed s.live p)
    {data : Fin g.imageBytes → UInt8}
    (hload : s.live.buffer.load (s.live.buffer.readImage p) g.imageBytes = some data) :
    ∃ m < g.nModules, ∃ w ∈ s.live.log, w.1.moduleId.toNat = m ∧ w.1.pulseId ≠ p ∧
      ∀ k : Fin moduleNBytes, ∃ hk : m * moduleNBytes + k < g.imageBytes, data ⟨m * moduleNBytes + k, hk⟩ = w.2 k := by
  unfold Undisturbed at hslot
  push Not at hslot
  obtain ⟨m, hm, w, hw, hne⟩ := hslot
  obtain ⟨hmem, hid, hdata⟩ := load_lastWrite h hload hm hw
  exact ⟨m, hm, w, hmem, hid, hne, hdata⟩

/-- In every run in which the slot of each good image is kept until its data are sent, all good
images that sf_stream sends come with the data of their pulse. -/
theorem stream_paired (h : Runs.ReachableUnder SlotKept Init step s) : ∀ e ∈ s.sent, Paired s.live.log e :=
  (h.invariant (fun _ => init_inv) fun _ _ _ hi hok hstep => step_inv hi hok hstep).sent

/-- One module and the default number of slots. -/
def oneModuleRing : Geometry := .checked 1 1000 (@rfl Bool true)

/-- All packets of a frame, filled with one value. -/
def packetsOf (framenum : UInt64) (bunchid : Double) (fill : UInt8) : List JungfrauPacket :=
  (List.range jfNPacketsPerFrame).map fun k => ⟨framenum, UInt32.ofNat k, bunchid, 0, fun _ => fill⟩

/-- Frame 1 of pulse 1, then frame 2 of pulse 1001, which has the same slot. -/
def oneSender : State oneModuleRing where
  live :=
    { buffer := .new _
      senders m := ⟨.new m [], ⟨.zero, fun _ => 0⟩, 0, ⟨0, 0⟩,
        [.msgs (packetsOf 1 .one 0), .msgs (packetsOf 2 (.ofBits 0x408F480000000000) 7)], .receive⟩
      channels _ := []
      assembler := .receiving
      unread _ := []
      imageMeta := ⟨0, 0, 0, 0⟩
      log := [] }
  messages := []
  phase := .receive
  sent := []

def published : List Action :=
  [.live (.sender 0), .live (.sender 0), .live (.sender 0), .live .assembler, .live .assembler, .live .assembler, .receive]

theorem oneSender_init : Init oneSender :=
  ⟨⟨fun _ => ⟨⟨_, rfl⟩, rfl, rfl⟩, fun _ => rfl, fun _ => rfl, rfl, rfl⟩, rfl, rfl, rfl⟩

theorem slotKept_of_ne_send {a : Action} (h : ∀ streamvis live, a ≠ .send streamvis live) (s : State g) : SlotKept a s :=
  fun streamvis live _ ha => absurd ha (h streamvis live)

/-- The image of pulse 1 is sent before the frame of pulse 1001 comes. -/
theorem stream_paired_oneSender : ∃ s : State oneModuleRing, Runs.ReachableUnder SlotKept Init step s ∧
    (∃ e ∈ s.sent, e.isGoodFrame = 1 ∧ e.pulseId = 1 ∧ e.image.isSome) ∧ ∀ e ∈ s.sent, Paired s.live.log e := by
  have hrun : ((Runs.run step published oneSender).map fun s => (s.phase, s.live.log.map fun w => w.1.pulseId)) =
      some (.send ⟨1, 1, 0, 1⟩, [1]) := by
    decide +kernel
  obtain ⟨s, hs, hobs⟩ := Option.map_eq_some_iff.1 hrun
  have hphase : s.phase = .send ⟨1, 1, 0, 1⟩ := congrArg Prod.fst hobs
  have hlog : s.live.log.map (fun w => w.1.pulseId) = [1] := congrArg Prod.snd hobs
  have hreach : Runs.ReachableUnder SlotKept Init step s := by
    refine (Runs.ReachableUnder.init oneSender_init).run (fun a ha s => slotKept_of_ne_send ?_ s) hs
    revert a ha
    simp [published]
  have hslot : Undisturbed s.live 1 := by
    intro m _ w hw
    have hmem := List.mem_map_of_mem (f := fun w => w.1.pulseId) (mem_of_lastWrite hw)
    rw [hlog] at hmem
    simpa using hmem
  have hinv := hreach.invariant (fun _ => init_inv) fun _ _ _ hi hok hstep => step_inv hi hok hstep
  obtain ⟨f, hf⟩ := hinv.live.buffer
  obtain ⟨data, hload, -⟩ := hf.readImage 1
  have hstep : step (.send true none) s =
      some { s with phase := .receive, sent := s.sent ++ send ⟨1, 1, 0, 1⟩ data true none } := by
    unfold step
    simp only [hphase, hload]
    rfl
  have hkept : SlotKept (.send true none) s := by
    rintro streamvis live image - - hsend -
    cases hphase.symm.trans hsend
    exact hslot
  have hreach' := hreach.step hkept hstep
  refine ⟨_, hreach', ⟨message .streamvis ⟨1, 1, 0, 1⟩ data true, ?_, rfl, rfl, rfl⟩, stream_paired hreach'⟩
  exact List.mem_append_right _ (List.mem_singleton.2 rfl)

def firstByte : Fin moduleNBytes := ⟨0, by decide⟩

def firstOfImage : Fin oneModuleRing.imageBytes := ⟨0 * moduleNBytes + 0, by decide⟩

/-- The frame of pulse 1001 comes before the image of pulse 1 is sent: its data are sent with the
metadata of pulse 1. -/
theorem stream_mixes_pulses : ∃ s : State oneModuleRing, Runs.Reachable Init step s ∧
    ∃ e ∈ s.sent, e.isGoodFrame = 1 ∧ e.pulseId = 1 ∧ ¬ Paired s.live.log e := by
  have hrun : ((Runs.run step (published ++ [.live (.sender 0), .live (.sender 0), .send true none]) oneSender).map
      fun s => (s.sent.map fun e => (e.isGoodFrame, e.pulseId, e.image.map fun i => i firstOfImage),
        s.live.log.map fun w => (w.1.pulseId, w.2 firstByte))) = some ([(1, 1, some 7)], [(1, 0), (1001, 7)]) := by
    decide +kernel
  obtain ⟨s, hs, hobs⟩ := Option.map_eq_some_iff.1 hrun
  obtain ⟨hsent, hlog⟩ := Prod.mk.inj hobs
  obtain ⟨e, he, hfields⟩ := List.mem_map.1 (hsent ▸ List.mem_singleton.2 rfl)
  obtain ⟨hgood, hfields⟩ := Prod.mk.inj hfields
  obtain ⟨hpulse, himage⟩ := Prod.mk.inj hfields
  obtain ⟨image, hsome, hbyte⟩ := Option.map_eq_some_iff.1 himage
  refine ⟨s, (Runs.Reachable.init oneSender_init).run hs, e, he, hgood, hpulse, fun hpaired => ?_⟩
  obtain ⟨w, hw, -, hp, hdata⟩ := hpaired hgood image hsome 0 Nat.zero_lt_one
  obtain ⟨_, hfirst⟩ := hdata firstByte
  -- the only frame of pulse 1 is filled with 0
  have hmem := List.mem_map_of_mem (f := fun w => (w.1.pulseId, w.2 firstByte)) hw
  rw [hlog] at hmem
  rw [hpulse] at hp
  have hzero : w.2 firstByte = 7 := hfirst.symm.trans hbyte
  rw [hp, hzero] at hmem
  revert hmem
  decide

end SfDaqBuffer.SfStream
