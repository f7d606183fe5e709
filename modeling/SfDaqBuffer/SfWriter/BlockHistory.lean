/-
What the image metadata of a block owe to the history of its slot. `get_metadata_buffer` resets
pulse_id and is_good_image of every pulse but leaves frame_index and daq_rec to the first module
with a complete frame; where no module has one, they are those of an earlier block.
-/
import SfDaqBuffer.SfUtils.GoodImage
import SfDaqBuffer.SfWriter.SlotProtocol

namespace SfDaqBuffer.SfWriter

open Agreement CoreBuffer ImageAssembler

/-! ## Uses of a slot -/

/-- A block of all modules, in the order in which they process it. -/
structure BlockUse (n : Nat) where
  bunchId : UInt64
  block : Nat → BufferBinaryBlock
  order : List Nat
  allModules : order.Perm (List.range n)

/-- One round of `read_buffer`, from a slot that is free. -/
def readBuffer (ia : ImageAssembler) (bunchId : UInt64) (iModule : Nat) (block : BufferBinaryBlock) :
    ImageAssembler :=
  (ia.isSlotFree bunchId).2.process bunchId iModule block

namespace BlockUse

variable {n : Nat}

/-- All modules process the block. -/
def fill (u : BlockUse n) (ia : ImageAssembler) : ImageAssembler :=
  u.order.foldl (fun ia m => readBuffer ia u.bunchId m (u.block m)) ia

/-- The block is processed and assembled, and its slot freed. -/
def run (ia : ImageAssembler) (u : BlockUse n) : ImageAssembler :=
  ((u.fill ia).getMetadataBuffer u.bunchId).2.freeSlot u.bunchId

/-- The image metadata of the block after the uses of a history. -/
def imagesAfter (u : BlockUse n) (ia : ImageAssembler) (history : List (BlockUse n)) : ImageMetadataBlock :=
  ((u.fill (history.foldl run ia)).getMetadataBuffer u.bunchId).1

/-- The same frames of the same block; the order of the modules may differ. -/
structure SameFrames (u u' : BlockUse n) : Prop where
  bunchId : u'.bunchId = u.bunchId
  frames : ∀ m < n, (u'.block m).frame = (u.block m).frame

/-- Some module has all packets of every pulse. -/
def EveryPulseComplete (u : BlockUse n) : Prop :=
  ∀ i, ∃ m < n, CompleteFrame ((u.block m).frame i).metadata

end BlockUse

/-- The entries of pulse `i`. -/
def ImageMetadataBlock.image (b : ImageMetadataBlock) (i : Fin bufferBlockSize) : PulseMeta :=
  ⟨b.pulseId i, b.frameIndex i, b.daqRec i, b.isGoodImage i⟩

/-- The same entries for every pulse. -/
def SameImages (a b : ImageMetadataBlock) : Prop := ∀ i, a.image i = b.image i

/-- An assembler after its constructor. -/
def Constructed (n : Nat) (ia : ImageAssembler) : Prop :=
  ∃ imageBuffer metaBuffer frameMetaBuffer bufferStatus bufferBunchId,
    ia = .new n imageBuffer metaBuffer frameMetaBuffer bufferStatus bufferBunchId

/-! ## The module loop -/

/-- The module loop of `get_metadata_buffer` for one pulse, on the modules' frames. -/
def mergeFrames (oldFrameIndex : UInt64) (oldDaqRec : UInt32) (frames : List ModuleFrame) : PulseMeta :=
  (frames.foldl mergeModule (false, ⟨0, oldFrameIndex, oldDaqRec, 1⟩)).2

theorem mergePulse_eq (ia : ImageAssembler) (slotId : Nat) (i : Fin bufferBlockSize) :
    ia.mergePulse slotId i = mergeFrames ((ia.metaBuffer slotId).frameIndex i) ((ia.metaBuffer slotId).daqRec i)
      ((List.range ia.nModules).map fun m => ia.cellMeta slotId m i) := by
  unfold mergePulse mergeFrames
  rw [List.foldl_map]
  rfl

theorem mergeModule_incomplete {f : ModuleFrame} (hf : ¬ CompleteFrame f) (state : Bool × PulseMeta) :
    mergeModule state f = (state.1, { state.2 with isGoodImage := 0 }) := by
  unfold mergeModule
  exact if_pos hf

/-- Loops that differ in what the image has before a module sets it. -/
structure SameMerge (s t : Bool × PulseMeta) : Prop where
  init : s.1 = t.1
  pulseId : s.2.pulseId = t.2.pulseId
  isGoodImage : s.2.isGoodImage = t.2.isGoodImage
  set : s.1 = true → s = t

theorem mergeModule_same {s t : Bool × PulseMeta} (h : SameMerge s t) (f : ModuleFrame) :
    SameMerge (mergeModule s f) (mergeModule t f) ∧ (CompleteFrame f → mergeModule s f = mergeModule t f) := by
  by_cases hf : CompleteFrame f
  · have heq : mergeModule s f = mergeModule t f := by
      obtain ⟨init, image⟩ := s
      obtain ⟨init', image'⟩ := t
      obtain ⟨hinit, hpulse, hgood, hset⟩ := h
      simp only at hinit hpulse hgood hset
      subst hinit
      have hpackets : f.nRecvPackets.toNat = jfNPacketsPerFrame := hf
      cases init with
      | true => rw [hset rfl]
      | false =>
        -- the frame sets everything but is_good_image
        unfold mergeModule
        simp [hpackets, hgood]
    exact ⟨by rw [heq]; exact ⟨rfl, rfl, rfl, fun _ => rfl⟩, fun _ => heq⟩
  · rw [mergeModule_incomplete hf, mergeModule_incomplete hf]
    refine ⟨⟨h.init, h.pulseId, rfl, fun hinit => ?_⟩, fun hc => absurd hc hf⟩
    rw [h.set hinit]

/-- Once a module has set the image, nothing of its old entries is left. -/
theorem foldl_mergeModule_same : ∀ (frames : List ModuleFrame) {s t : Bool × PulseMeta}, SameMerge s t →
    (s.1 = true ∨ ∃ f ∈ frames, CompleteFrame f) → frames.foldl mergeModule s = frames.foldl mergeModule t
  | [], s, t, h, hset => by
    rcases hset with hset | ⟨f, hf, -⟩
    · exact h.set hset
    · cases hf
  | f :: frames, s, t, h, hset => by
    obtain ⟨hnext, hcomplete⟩ := mergeModule_same h f
    rw [List.foldl_cons, List.foldl_cons]
    rcases hset with hset | ⟨g, hg, hc⟩
    · rw [h.set hset]
    · rcases List.mem_cons.1 hg with rfl | hg
      · rw [hcomplete hc]
      · exact foldl_mergeModule_same frames hnext (.inr ⟨g, hg, hc⟩)

/-- Incomplete frames only clear is_good_image. -/
theorem foldl_mergeModule_incomplete : ∀ (frames : List ModuleFrame) (s : Bool × PulseMeta),
    (∀ f ∈ frames, ¬ CompleteFrame f) → (frames.foldl mergeModule s).2.frameIndex = s.2.frameIndex
  | [], _, _ => rfl
  | f :: frames, s, h => by
    rw [List.foldl_cons, mergeModule_incomplete (h f (List.mem_cons_self ..))]
    exact foldl_mergeModule_incomplete frames _ fun g hg => h g (List.mem_cons_of_mem _ hg)

/-- Once the image is set, only is_good_image changes. -/
theorem foldl_mergeModule_set : ∀ (frames : List ModuleFrame) (image : PulseMeta),
    (frames.foldl mergeModule (true, image)).2.frameIndex = image.frameIndex
  | [], _ => rfl
  | f :: frames, image => by
    rw [List.foldl_cons]
    by_cases hf : CompleteFrame f
    · have hpackets : f.nRecvPackets.toNat = jfNPacketsPerFrame := hf
      unfold mergeModule
      simp only [hpackets, ne_eq, not_true_eq_false, if_false, if_true, or_false]
      split <;> exact foldl_mergeModule_set frames _
    · rw [mergeModule_incomplete hf]
      exact foldl_mergeModule_set frames _

/-- With a complete frame the image does not depend on the slot's last use. -/
theorem mergeFrames_complete {frames : List ModuleFrame} (h : ∃ f ∈ frames, CompleteFrame f)
    (frameIndex frameIndex' : UInt64) (daqRec daqRec' : UInt32) :
    mergeFrames frameIndex daqRec frames = mergeFrames frameIndex' daqRec' frames :=
  congrArg Prod.snd (foldl_mergeModule_same frames ⟨rfl, rfl, rfl, nofun⟩ (.inr h))

/-- Without one, its frame_index is that of the slot's last use. -/
theorem mergeFrames_incomplete (frameIndex : UInt64) (daqRec : UInt32) {frames : List ModuleFrame}
    (h : ∀ f ∈ frames, ¬ CompleteFrame f) : (mergeFrames frameIndex daqRec frames).frameIndex = frameIndex :=
  foldl_mergeModule_incomplete frames _ h

/-- If the first frame is complete, the frame_index is that frame's. -/
theorem mergeFrames_cons {f : ModuleFrame} (hf : CompleteFrame f) (frameIndex : UInt64) (daqRec : UInt32)
    (frames : List ModuleFrame) : (mergeFrames frameIndex daqRec (f :: frames)).frameIndex = f.frameIndex := by
  have hpackets : f.nRecvPackets.toNat = jfNPacketsPerFrame := hf
  unfold mergeFrames
  rw [List.foldl_cons]
  unfold mergeModule
  simp only [hpackets, ne_eq, not_true_eq_false, if_false, Bool.false_eq_true, or_self, and_false]
  exact foldl_mergeModule_set frames _

/-! ## The cells of a block -/

section

variable {ia : ImageAssembler} {bunchId : UInt64} {m m' slot : Nat}

/-- The metadata and the pixels of a cell. -/
def ImageAssembler.cell (ia : ImageAssembler) (slotId iModule : Nat) (i : Fin bufferBlockSize) :
    ModuleFrame × ModuleData :=
  (ia.cellMeta slotId iModule i, ia.cellData slotId iModule i)

theorem cellMeta_eq (ia : ImageAssembler) (i : Fin bufferBlockSize) :
    ia.cellMeta slot m i = (ia.cell slot m i).1 := rfl

/-- The loop of `process` fills the cells of its rounds. -/
theorem foldl_copyFrame_cell (block : BufferBinaryBlock) (i : Fin bufferBlockSize) :
    ∀ (l : List (Fin bufferBlockSize)) {ia : ImageAssembler}, m < ia.nModules → m' < ia.nModules →
      (l.foldl (fun ia i => ia.copyFrame bunchId m block i) ia).cell slot m' i =
        if slot = slotId bunchId ∧ m' = m ∧ i ∈ l then ((block.frame i).metadata, (block.frame i).data)
          else ia.cell slot m' i
  | [], _, _, _ => by simp
  | k :: l, ia, hm, hm' => by
    rw [List.foldl_cons, foldl_copyFrame_cell block i l (by simpa using hm) (by simpa using hm')]
    by_cases hl : slot = slotId bunchId ∧ m' = m ∧ i ∈ l
    · rw [if_pos hl, if_pos ⟨hl.1, hl.2.1, List.mem_cons_of_mem _ hl.2.2⟩]
    · rw [if_neg hl]
      by_cases hk : slot = slotId bunchId ∧ m' = m ∧ i = k
      · obtain ⟨rfl, rfl, rfl⟩ := hk
        rw [if_pos ⟨rfl, rfl, List.mem_cons_self ..⟩]
        obtain ⟨hmeta, hdata⟩ := cell_copyFrame_same ia bunchId m' block i
        exact Prod.ext hmeta hdata
      · have hnot : ¬ (slot = slotId bunchId ∧ m' = m ∧ i ∈ k :: l) := by
          rintro ⟨hs, hmm, hi⟩
          rcases List.mem_cons.1 hi with rfl | hi
          · exact hk ⟨hs, hmm, rfl⟩
          · exact hl ⟨hs, hmm, hi⟩
        rw [if_neg hnot]
        obtain ⟨hmeta, hdata⟩ := cell_copyFrame_other block hm hm' hk
        exact Prod.ext hmeta hdata

/-- `is_slot_free` writes the bunch_id of the slot only. -/
theorem isSlotFree_snd (ia : ImageAssembler) (bunchId : UInt64) :
    ∃ bufferBunchId, (ia.isSlotFree bunchId).2 = { ia with bufferBunchId := bufferBunchId } := by
  unfold isSlotFree tryAcquire
  by_cases hempty : ia.bufferBunchId (slotId bunchId) = iaEmptySlotValue
  · simp only [hempty, if_true]
    exact ⟨_, rfl⟩
  · simp only [hempty, if_false]
    exact ⟨_, rfl⟩

theorem releaseModule_nModules (ia : ImageAssembler) : (ia.releaseModule bunchId).nModules = ia.nModules := rfl

theorem releaseModule_metaBuffer (ia : ImageAssembler) : (ia.releaseModule bunchId).metaBuffer = ia.metaBuffer := rfl

theorem releaseModule_cell (ia : ImageAssembler) (i : Fin bufferBlockSize) :
    (ia.releaseModule bunchId).cell slot m i = ia.cell slot m i := rfl

theorem process_nModules (ia : ImageAssembler) (block : BufferBinaryBlock) :
    (ia.process bunchId m block).nModules = ia.nModules := by
  unfold process
  rw [releaseModule_nModules]
  exact Runs.foldl_frame ImageAssembler.nModules (fun _ _ => copyFrame_nModules ..) _ ia

theorem process_metaBuffer (ia : ImageAssembler) (block : BufferBinaryBlock) :
    (ia.process bunchId m block).metaBuffer = ia.metaBuffer := by
  unfold process
  rw [releaseModule_metaBuffer]
  exact Runs.foldl_frame ImageAssembler.metaBuffer (fun _ _ => copyFrame_metaBuffer ..) _ ia

/-- A call of `process` fills the cells of its module. -/
theorem process_cell (block : BufferBinaryBlock) (i : Fin bufferBlockSize) (hm : m < ia.nModules)
    (hm' : m' < ia.nModules) : (ia.process bunchId m block).cell slot m' i =
      if slot = slotId bunchId ∧ m' = m then ((block.frame i).metadata, (block.frame i).data)
        else ia.cell slot m' i := by
  unfold process
  rw [releaseModule_cell, foldl_copyFrame_cell block i _ hm hm']
  simp only [List.mem_finRange, and_true]

theorem readBuffer_nModules (ia : ImageAssembler) (block : BufferBinaryBlock) :
    (readBuffer ia bunchId m block).nModules = ia.nModules := by
  obtain ⟨bufferBunchId, hfree⟩ := isSlotFree_snd ia bunchId
  unfold readBuffer
  rw [process_nModules, hfree]

theorem readBuffer_metaBuffer (ia : ImageAssembler) (block : BufferBinaryBlock) :
    (readBuffer ia bunchId m block).metaBuffer = ia.metaBuffer := by
  obtain ⟨bufferBunchId, hfree⟩ := isSlotFree_snd ia bunchId
  unfold readBuffer
  rw [process_metaBuffer, hfree]

/-- A module's round fills the cells of that module. -/
theorem readBuffer_cellMeta (block : BufferBinaryBlock) (i : Fin bufferBlockSize) (hm : m < ia.nModules)
    (hm' : m' < ia.nModules) : (readBuffer ia bunchId m block).cellMeta slot m' i =
      if slot = slotId bunchId ∧ m' = m then (block.frame i).metadata else ia.cellMeta slot m' i := by
  obtain ⟨bufferBunchId, hfree⟩ := isSlotFree_snd ia bunchId
  unfold readBuffer
  have hcell : ({ ia with bufferBunchId := bufferBunchId }.process bunchId m block).cell slot m' i = _ :=
    process_cell block i hm hm'
  rw [hfree, cellMeta_eq, hcell, apply_ite Prod.fst]
  rfl

/-- The rounds of distinct modules fill the cells of these modules. -/
theorem foldl_readBuffer_cellMeta (block : Nat → BufferBinaryBlock) (i : Fin bufferBlockSize) {order : List Nat}
    (horder : ∀ q ∈ order, q < ia.nModules) (hm : m < ia.nModules) :
    (order.foldl (fun ia q => readBuffer ia bunchId q (block q)) ia).cellMeta (slotId bunchId) m i =
      if m ∈ order then ((block m).frame i).metadata else ia.cellMeta (slotId bunchId) m i := by
  refine Runs.foldl_set (fun s : ImageAssembler => s.cellMeta (slotId bunchId) m i)
    (P := fun s => s.nModules = ia.nModules) (fun s hs q hq => ⟨?_, ?_⟩) rfl
  · rw [readBuffer_nModules, hs]
  · rw [readBuffer_cellMeta _ i (by rw [hs]; exact horder q hq) (by rwa [hs])]
    by_cases hq : m = q
    · subst hq
      rw [if_pos ⟨rfl, rfl⟩, if_pos rfl]
    · rw [if_neg fun h => hq h.2, if_neg hq]

end

namespace BlockUse

variable {n : Nat}

theorem fill_nModules (u : BlockUse n) (ia : ImageAssembler) : (u.fill ia).nModules = ia.nModules :=
  Runs.foldl_frame ImageAssembler.nModules (fun _ _ => readBuffer_nModules ..) _ ia

theorem fill_metaBuffer (u : BlockUse n) (ia : ImageAssembler) : (u.fill ia).metaBuffer = ia.metaBuffer :=
  Runs.foldl_frame ImageAssembler.metaBuffer (fun _ _ => readBuffer_metaBuffer ..) _ ia

/-- After all modules have processed the block, its slot holds their frames. -/
theorem fill_cellMeta (u : BlockUse n) {ia : ImageAssembler} (hn : ia.nModules = n) {m : Nat} (hm : m < n)
    (i : Fin bufferBlockSize) : (u.fill ia).cellMeta (slotId u.bunchId) m i = ((u.block m).frame i).metadata := by
  have hmem : ∀ q, q ∈ u.order ↔ q < ia.nModules := fun q => by rw [u.allModules.mem_iff, List.mem_range, hn]
  have hm' : m < ia.nModules := by rwa [hn]
  unfold fill
  rw [foldl_readBuffer_cellMeta u.block i (fun q hq => (hmem q).1 hq) hm', if_pos ((hmem m).2 hm')]

theorem run_nModules (u : BlockUse n) (ia : ImageAssembler) : (run ia u).nModules = ia.nModules :=
  u.fill_nModules ia

/-- The frames of a pulse. -/
def frames (u : BlockUse n) (i : Fin bufferBlockSize) : List ModuleFrame :=
  (List.range n).map fun m => ((u.block m).frame i).metadata

/-- What `get_metadata_buffer` finds after all modules have processed the block. -/
theorem mergePulse_fill (u : BlockUse n) {ia : ImageAssembler} (hn : ia.nModules = n) (i : Fin bufferBlockSize) :
    (u.fill ia).mergePulse (slotId u.bunchId) i =
      mergeFrames ((ia.metaBuffer (slotId u.bunchId)).frameIndex i) ((ia.metaBuffer (slotId u.bunchId)).daqRec i)
        (u.frames i) := by
  have hcells : ((List.range (u.fill ia).nModules).map fun m => (u.fill ia).cellMeta (slotId u.bunchId) m i) =
      u.frames i := by
    rw [fill_nModules, hn]
    exact List.map_congr_left fun m hm => u.fill_cellMeta hn (List.mem_range.1 hm) i
  rw [mergePulse_eq, hcells, fill_metaBuffer]

theorem mem_frames {u : BlockUse n} {i : Fin bufferBlockSize} {f : ModuleFrame} :
    f ∈ u.frames i ↔ ∃ m < n, ((u.block m).frame i).metadata = f := by
  simp [frames]

theorem foldl_run_nModules (history : List (BlockUse n)) (ia : ImageAssembler) :
    (history.foldl run ia).nModules = ia.nModules :=
  Runs.foldl_frame ImageAssembler.nModules (fun ia u => u.run_nModules ia) history ia

/-- The image of a pulse from the frames of the block and the slot's last use. -/
theorem imagesAfter_image (u : BlockUse n) {ia : ImageAssembler} (hn : ia.nModules = n) (history : List (BlockUse n))
    (i : Fin bufferBlockSize) :
    let old := (history.foldl run ia).metaBuffer (slotId u.bunchId)
    (u.imagesAfter ia history).image i = mergeFrames (old.frameIndex i) (old.daqRec i) (u.frames i) :=
  u.mergePulse_fill (by rw [foldl_run_nModules, hn]) i

/-- With a complete frame in every pulse the history does not matter. -/
theorem EveryPulseComplete.imagesAfter_same {u u' : BlockUse n} (h : u.EveryPulseComplete) (hsame : u.SameFrames u')
    {ia ia' : ImageAssembler} (hn : ia.nModules = n) (hn' : ia'.nModules = n) (history history' : List (BlockUse n)) :
    SameImages (u.imagesAfter ia history) (u'.imagesAfter ia' history') := by
  intro i
  have hframes : u'.frames i = u.frames i :=
    List.map_congr_left fun m hm => by rw [hsame.frames m (List.mem_range.1 hm)]
  obtain ⟨m, hm, hc⟩ := h i
  have hex : ∃ f ∈ u.frames i, CompleteFrame f := ⟨_, mem_frames.2 ⟨m, hm, rfl⟩, hc⟩
  rw [u.imagesAfter_image hn, u'.imagesAfter_image hn', hframes]
  exact mergeFrames_complete hex ..

/-- A pulse without a complete frame keeps the frame_index of the slot's last use. -/
theorem imagesAfter_stale (u : BlockUse n) {ia : ImageAssembler} (hn : ia.nModules = n) (history : List (BlockUse n))
    {i : Fin bufferBlockSize} (h : ∀ m < n, ¬ CompleteFrame ((u.block m).frame i).metadata) :
    (u.imagesAfter ia history).frameIndex i =
      ((history.foldl run ia).metaBuffer (slotId u.bunchId)).frameIndex i := by
  have himage := congrArg PulseMeta.frameIndex (u.imagesAfter_image hn history i)
  refine himage.trans (mergeFrames_incomplete _ _ ?_)
  rintro f hf
  obtain ⟨m, hm, rfl⟩ := mem_frames.1 hf
  exact h m hm

/-- A block two before `bunchId` whose frames are all complete and have one frame_index. -/
def earlier (n : Nat) (bunchId frameIndex : UInt64) : BlockUse n where
  bunchId := bunchId - 2
  block _ := ⟨fun _ => ⟨formatMarkerValue, ⟨0, frameIndex, 0, 128, 0⟩, fun _ => 0⟩, 0⟩
  order := List.range n
  allModules := .refl _

theorem slotId_sub_two (bunchId : UInt64) : slotId (bunchId - 2) = slotId bunchId := by
  unfold slotId
  rw [UInt64.toNat_sub]
  have hlt := bunchId.toNat_lt
  have htwo : (2 : UInt64).toNat = 2 := rfl
  simp only [writerIaNSlots, htwo]
  omega

/-- It leaves its frame_index in the slot of `bunchId`. -/
theorem run_earlier (hn : 1 ≤ n) (bunchId frameIndex : UInt64) {ia : ImageAssembler} (hia : ia.nModules = n)
    (i : Fin bufferBlockSize) :
    ((run ia (earlier n bunchId frameIndex)).metaBuffer (slotId bunchId)).frameIndex i = frameIndex := by
  obtain ⟨k, rfl⟩ := Nat.exists_eq_add_of_le' hn
  have hmeta : (run ia (earlier (k + 1) bunchId frameIndex)).metaBuffer =
      Function.update ((earlier (k + 1) bunchId frameIndex).fill ia).metaBuffer (slotId (bunchId - 2))
        (imagesAfter (earlier (k + 1) bunchId frameIndex) ia []) := rfl
  rw [hmeta, slotId_sub_two, Function.update_self]
  have himage := congrArg PulseMeta.frameIndex ((earlier (k + 1) bunchId frameIndex).imagesAfter_image hia [] i)
  apply himage.trans
  have hframes : (earlier (k + 1) bunchId frameIndex).frames i = ⟨0, frameIndex, 0, 128, 0⟩ ::
      (List.range k).map fun _ => ⟨0, frameIndex, 0, 128, 0⟩ := by
    unfold frames
    rw [List.range_succ_eq_map, List.map_cons, List.map_map]
    rfl
  have hc : CompleteFrame ⟨0, frameIndex, 0, 128, 0⟩ := rfl
  rw [hframes]
  exact mergeFrames_cons hc ..

end BlockUse

theorem Constructed.nModules_eq {n : Nat} {ia : ImageAssembler} (h : Constructed n ia) : ia.nModules = n := by
  obtain ⟨_, _, _, _, _, rfl⟩ := h
  rfl

/-- The image metadata of a block are the same after every two histories exactly when some module
has all packets of every pulse. -/
theorem imagesAfter_same_iff {n : Nat} (hn : 1 ≤ n) {ia ia' : ImageAssembler} (h : Constructed n ia)
    (h' : Constructed n ia') (u : BlockUse n) :
    (∀ u', u.SameFrames u' → ∀ history history',
      SameImages (u.imagesAfter ia history) (u'.imagesAfter ia' history')) ↔ u.EveryPulseComplete := by
  constructor
  · intro hall i
    by_contra hex
    have hnone : ∀ m < n, ¬ CompleteFrame ((u.block m).frame i).metadata := fun m hm hc => hex ⟨m, hm, hc⟩
    -- two earlier blocks that differ in their frame_index
    have hsame := hall u ⟨rfl, fun _ _ => rfl⟩ [.earlier n u.bunchId 1] [.earlier n u.bunchId 2] i
    have hindex := congrArg PulseMeta.frameIndex hsame
    change (u.imagesAfter ia _).frameIndex i = (u.imagesAfter ia' _).frameIndex i at hindex
    rw [u.imagesAfter_stale h.nModules_eq _ hnone, u.imagesAfter_stale h'.nModules_eq _ hnone] at hindex
    simp only [List.foldl_cons, List.foldl_nil] at hindex
    rw [BlockUse.run_earlier hn _ _ h.nModules_eq, BlockUse.run_earlier hn _ _ h'.nModules_eq] at hindex
    cases hindex
  · rintro hc u' hsame history history'
    exact hc.imagesAfter_same hsame h.nModules_eq h'.nModules_eq history history'

/-- Block 3 of one module with the same number of packets in every frame. -/
def blockThree (nRecvPackets : UInt64) : BlockUse 1 where
  bunchId := 3
  block _ := ⟨fun _ => ⟨formatMarkerValue, ⟨300, 4, 0, nRecvPackets, 0⟩, fun _ => 0⟩, 300⟩
  order := [0]
  allModules := .refl _

/-- An assembler of one module in zeroed memory. -/
def zeroedAssembler : ImageAssembler :=
  .new 1 (fun _ => 0) (fun _ => ⟨fun _ => 0, fun _ => 0, fun _ => 0, fun _ => 0, 0, 0⟩) (fun _ => .zero) (fun _ => 0)
    fun _ => 0

theorem constructed_zeroedAssembler : Constructed 1 zeroedAssembler := ⟨_, _, _, _, _, rfl⟩

/-- Complete frames: the image does not depend on the block before. -/
theorem imagesAfter_same_iff_complete :
    SameImages ((blockThree 128).imagesAfter zeroedAssembler [.earlier 1 3 7])
      ((blockThree 128).imagesAfter zeroedAssembler []) :=
  (imagesAfter_same_iff (le_refl 1) constructed_zeroedAssembler constructed_zeroedAssembler (blockThree 128)).2
    (fun _ => ⟨0, Nat.zero_lt_one, rfl⟩) _ ⟨rfl, fun _ _ => rfl⟩ _ _

/-- Frames that lost a packet: block 3 has the frame_index of block 1, which used its slot. -/
theorem imagesAfter_frameIndex_stale : Constructed 1 zeroedAssembler ∧
    ((blockThree 127).imagesAfter zeroedAssembler [.earlier 1 3 7]).frameIndex 0 = 7 ∧
      ((blockThree 127).imagesAfter zeroedAssembler []).frameIndex 0 = 0 := by
  have hnone : ∀ m < 1, ¬ CompleteFrame (((blockThree 127).block m).frame 0).metadata := by
    rintro m -
    exact (by decide : ¬ (127 : UInt64).toNat = jfNPacketsPerFrame)
  have hn := constructed_zeroedAssembler.nModules_eq
  refine ⟨constructed_zeroedAssembler, ?_, ?_⟩
  · have hstale := (blockThree 127).imagesAfter_stale hn [.earlier 1 3 7] hnone
    exact hstale.trans (BlockUse.run_earlier (le_refl 1) 3 7 hn 0)
  · exact (blockThree 127).imagesAfter_stale hn [] hnone

/-! ## The threads -/

/-- When the main thread assembles a block, its slot holds the frames of all modules. -/
theorem gathered {c : Request} {s : State} {b : UInt64} (hr : Reachable c s) (hphase : s.main.phase = .getMetadata)
    (hb : c.block s.main.pos = b) (i : Fin bufferBlockSize) :
    (List.range s.assembler.nModules).map (fun m => s.assembler.cellMeta (slotId b) m i) =
      (List.range c.nModules).map fun m => ((c.getBlock b m).frame i).metadata := by
  have h := reachable_inv hr
  have hcur := h.slots s.main.pos ⟨le_refl _, Nat.le_succ _⟩
  obtain ⟨hj, hall⟩ := h.reading (by rw [hphase]; decide)
  subst hb
  rw [h.nModules, slotId_block hj]
  exact List.map_congr_left fun m hm =>
    (hcur.cells m (List.mem_range.1 hm) i (.inl (hall m (List.mem_range.1 hm)))).1

/-- In two runs of sf_writer, however the threads interleave and whatever blocks came before, the
main thread finds the same image metadata for the same frames when every pulse has a complete one. -/
theorem getMetadataBuffer_reachable {c c' : Request} {s s' : State} {b : UInt64} (hr : Reachable c s)
    (hr' : Reachable c' s') (hn : c'.nModules = c.nModules) (hphase : s.main.phase = .getMetadata)
    (hphase' : s'.main.phase = .getMetadata) (hb : c.block s.main.pos = b) (hb' : c'.block s'.main.pos = b)
    (hframes : ∀ m < c.nModules, (c'.getBlock b m).frame = (c.getBlock b m).frame)
    (hcomplete : ∀ i, ∃ m < c.nModules, CompleteFrame ((c.getBlock b m).frame i).metadata) :
    SameImages (s.assembler.getMetadataBuffer b).1 (s'.assembler.getMetadataBuffer b).1 := by
  intro i
  obtain ⟨m, hm, hc⟩ := hcomplete i
  have hcells := gathered hr hphase hb i
  have hcells' := gathered hr' hphase' hb' i
  rw [hn] at hcells'
  have hsame : (List.range c.nModules).map (fun m => ((c'.getBlock b m).frame i).metadata) =
      (List.range c.nModules).map fun m => ((c.getBlock b m).frame i).metadata :=
    List.map_congr_left fun m hm => by rw [hframes m (List.mem_range.1 hm)]
  show s.assembler.mergePulse (slotId b) i = s'.assembler.mergePulse (slotId b) i
  rw [mergePulse_eq, mergePulse_eq, hcells, hcells', hsame]
  exact mergeFrames_complete ⟨_, List.mem_map_of_mem (List.mem_range.2 hm), hc⟩ ..

end SfDaqBuffer.SfWriter
