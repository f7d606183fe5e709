/-
The file that `sf_writer` leaves, in terms of the calls of the buffer writers. Row `k` of every dataset
is that of pulse `start + k * step`: the image has the bytes of the last frames that the modules' writers
wrote for the pulse, and the metadata is what the module loop makes of their headers.
-/
import SfDaqBuffer.SfWriter.Termination

namespace SfDaqBuffer.SfWriter

open Agreement CoreBuffer DiskBuffer ImageAssembler JFH5Writer Multiples SfUtils

/-! ## The module loop -/

/-- What the module loop makes of the frames of a pulse. -/
structure Merged (frames : List ModuleFrame) (image : PulseMeta) : Prop where
  first : ∀ f, frames.find? (fun f => CompleteFrame f) = some f →
    image.pulseId = f.pulseId ∧ image.frameIndex = f.frameIndex ∧ image.daqRec = f.daqRec.toUInt32
  none : (∀ f ∈ frames, ¬ CompleteFrame f) → image.pulseId = 0
  good : image.isGoodImage = 1 ↔ Agreeing CompleteFrame pulseAndFrame frames
  bad : image.isGoodImage ≠ 1 → image.isGoodImage = 0

section

variable (image : PulseMeta)

/-- A set image keeps all but is_good_image. -/
theorem mergeModule_set (f : ModuleFrame) :
    ∃ good, mergeModule (true, image) f = (true, { image with isGoodImage := good }) := by
  by_cases hf : CompleteFrame f
  · have hpackets : f.nRecvPackets.toNat = jfNPacketsPerFrame := hf
    unfold mergeModule
    simp only [hpackets, ne_eq, not_true_eq_false, if_false, or_false, if_true]
    split
    · exact ⟨0, rfl⟩
    · exact ⟨image.isGoodImage, rfl⟩
  · exact ⟨0, mergeModule_incomplete hf _⟩

theorem foldl_mergeModule_keeps : ∀ (frames : List ModuleFrame) (image : PulseMeta),
    ∃ good, (frames.foldl mergeModule (true, image)).2 = { image with isGoodImage := good }
  | [], image => ⟨image.isGoodImage, rfl⟩
  | f :: frames, image => by
    obtain ⟨good, hf⟩ := mergeModule_set image f
    obtain ⟨good', hrest⟩ := foldl_mergeModule_keeps frames { image with isGoodImage := good }
    rw [List.foldl_cons, hf]
    exact ⟨good', hrest⟩

/-- The first complete frame sets the image. -/
theorem mergeModule_first {f : ModuleFrame} (hf : CompleteFrame f) : ∃ good, mergeModule (false, image) f =
    (true, ⟨f.pulseId, f.frameIndex, f.daqRec.toUInt32, good⟩) := by
  have hpackets : f.nRecvPackets.toNat = jfNPacketsPerFrame := hf
  unfold mergeModule
  simp only [hpackets, ne_eq, not_true_eq_false, if_false, Bool.false_eq_true, or_self, and_false]
  exact ⟨image.isGoodImage, rfl⟩

theorem foldl_mergeModule_first : ∀ (frames : List ModuleFrame) (image : PulseMeta) {f : ModuleFrame},
    frames.find? (fun f => CompleteFrame f) = some f →
      ∃ good, (frames.foldl mergeModule (false, image)).2 = ⟨f.pulseId, f.frameIndex, f.daqRec.toUInt32, good⟩
  | [], _, _, h => by cases h
  | g :: frames, image, f, h => by
    rw [List.foldl_cons]
    by_cases hg : CompleteFrame g
    · simp only [List.find?_cons, hg, decide_true] at h
      obtain rfl := Option.some.inj h
      obtain ⟨good, hset⟩ := mergeModule_first image hg
      rw [hset]
      exact foldl_mergeModule_keeps frames _
    · simp only [List.find?_cons, hg, decide_false] at h
      rw [mergeModule_incomplete hg]
      exact foldl_mergeModule_first frames _ h

theorem foldl_mergeModule_none : ∀ (frames : List ModuleFrame) (image : PulseMeta),
    (∀ f ∈ frames, ¬ CompleteFrame f) → (frames.foldl mergeModule (false, image)).2.pulseId = image.pulseId
  | [], _, _ => rfl
  | f :: frames, image, h => by
    rw [List.foldl_cons, mergeModule_incomplete (h f (List.mem_cons_self ..))]
    exact foldl_mergeModule_none frames _ fun g hg => h g (List.mem_cons_of_mem _ hg)

end

theorem mergeFrames_merged (frameIndex : UInt64) (daqRec : UInt32) (frames : List ModuleFrame) :
    Merged frames (mergeFrames frameIndex daqRec frames) := by
  have hloop := List.foldl_rel (l := frames) (f := mergeModule) (g := visit CompleteFrame pulseAndFrame) (r := MergesTo)
    (a := (false, ⟨0, frameIndex, daqRec, 1⟩)) (b := .start) ⟨rfl, rfl⟩ fun f _ _ _ h => mergeModule_visit h f
  have hgood : (mergeFrames frameIndex daqRec frames).isGoodImage =
      if (frames.foldl (visit CompleteFrame pulseAndFrame) .start).agree then 1 else 0 := hloop.good
  have hagree : (frames.foldl (visit CompleteFrame pulseAndFrame) .start).agree = true ↔
      Agreeing CompleteFrame pulseAndFrame frames := foldl_agree frames
  refine ⟨fun f hf => ?_, fun hnone => ?_, ?_, ?_⟩
  · obtain ⟨good, hset⟩ := foldl_mergeModule_first frames ⟨0, frameIndex, daqRec, 1⟩ hf
    unfold mergeFrames
    rw [hset]
    exact ⟨rfl, rfl, rfl⟩
  · exact foldl_mergeModule_none frames _ hnone
  · rw [hgood, ← hagree]
    split
    · rename_i h
      exact iff_of_true rfl h
    · rename_i h
      exact iff_of_false (by decide) h
  · rw [hgood]
    split
    · exact fun h => absurd rfl h
    · exact fun _ => rfl

/-! ## The rows of a pulse -/

/-- The headers of the last frames that the modules wrote for a pulse. -/
def storedFrames (n : Nat) (ws : Nat → List (UInt64 × BufferBinaryFormat)) (p : Nat) : List ModuleFrame :=
  metas n fun m => lastRecord (ws m) p

/-- Their data, module by module. -/
def storedImage {nModules : UInt64} (ws : Nat → List (UInt64 × BufferBinaryFormat)) (p : Nat) : Image nModules :=
  fun a => (lastRecord (ws (a / moduleNBytes)) p).data ⟨a % moduleNBytes, byteInModule_lt a⟩

section

variable {H : Hdf5} {j : Retrieval} {ws : Nat → List (UInt64 × BufferBinaryFormat)} {old : Nat → ImageMetadataBlock}
  {start : JFH5Writer H j.config}

/-- The block of a pulse. -/
theorem Retrieval.block_of_pulse {p : Nat} (hp : Program.Reads j p) :
    p / bufferBlockSize - j.startBlock < j.nBlocks ∧
      bufferBlockSize * (j.block (p / bufferBlockSize - j.startBlock)).toNat + p % bufferBlockSize = p := by
  obtain ⟨hfirst, hlast⟩ := hp
  have hk : p / bufferBlockSize - j.startBlock < j.nBlocks := by omega
  refine ⟨hk, ?_⟩
  rw [j.block_toNat hk, Nat.add_sub_cancel' hfirst]
  exact Nat.div_add_mod p bufferBlockSize

/-- What the sequential program writes as the image of a pulse. -/
theorem pulseImage_stored {p : Nat} (hp : Program.Reads j p) :
    pulseImage (j.blocks (stored ws) old) p = storedImage ws p := by
  obtain ⟨-, hpulse⟩ := j.block_of_pulse hp
  have hsize : (imageNBytes j.config.nModules).toNat = moduleNBytes * (j.request (stored ws)).nModules :=
    j.imageNBytes_toNat
  funext a
  have ha : (a : Nat) < moduleNBytes * (j.request (stored ws)).nModules := hsize ▸ a.2
  have htile := blockByte_tile (j.request (stored ws)) (p / bufferBlockSize - j.startBlock)
    ⟨p % bufferBlockSize, Nat.mod_lt _ (by decide)⟩ (Nat.div_lt_of_lt_mul ha) ⟨a % moduleNBytes, byteInModule_lt a⟩
  simp only [Nat.div_add_mod'] at htile
  rw [← hsize] at htile
  show blockByte (j.request (stored ws)) (p / bufferBlockSize - j.startBlock)
    (p % bufferBlockSize * (imageNBytes j.config.nModules).toNat + a) = _
  rw [htile]
  show (lastRecord (ws (a / moduleNBytes)) (bufferBlockSize * (j.block (p / bufferBlockSize - j.startBlock)).toNat +
    p % bufferBlockSize)).data _ = _
  rw [hpulse]
  rfl

/-- What it writes as the metadata of a pulse. -/
theorem pulseEntry_stored (ws : Nat → List (UInt64 × BufferBinaryFormat)) (old : Nat → ImageMetadataBlock) {p : Nat} (hp : Program.Reads j p) :
    ∃ image, Merged (storedFrames j.config.nModules.toNat ws p) image ∧
      pulseEntry (j.blocks (stored ws) old) ImageMetadataBlock.pulseId p = image.pulseId ∧
      pulseEntry (j.blocks (stored ws) old) ImageMetadataBlock.frameIndex p = image.frameIndex ∧
      pulseEntry (j.blocks (stored ws) old) ImageMetadataBlock.daqRec p = image.daqRec ∧
      pulseEntry (j.blocks (stored ws) old) ImageMetadataBlock.isGoodImage p = image.isGoodImage := by
  obtain ⟨-, hpulse⟩ := j.block_of_pulse hp
  have hframes : pulseFrames (j.request (stored ws)) (p / bufferBlockSize - j.startBlock)
      ⟨p % bufferBlockSize, Nat.mod_lt _ (by decide)⟩ = storedFrames j.config.nModules.toNat ws p := by
    refine List.map_congr_left fun m _ => ?_
    show (lastRecord (ws m) (bufferBlockSize * (j.block (p / bufferBlockSize - j.startBlock)).toNat +
      p % bufferBlockSize)).metadata = _
    rw [hpulse]
  refine ⟨_, ?_, rfl, rfl, rfl, rfl⟩
  rw [← hframes]
  exact mergeFrames_merged ..

/-- Row `k` of each dataset is that of pulse `p`. -/
structure RowOf (ws : Nat → List (UInt64 × BufferBinaryFormat)) (w : JFH5Writer H j.config) (k p : Nat) : Prop where
  image : H.read w.imageDataset k = some (storedImage ws p)
  metadata : ∃ image, Merged (storedFrames j.config.nModules.toNat ws p) image ∧
    H.read w.writeMetadata.pulseId k = some image.pulseId ∧
    H.read w.writeMetadata.frameIndex k = some image.frameIndex ∧
    H.read w.writeMetadata.daqRec k = some image.daqRec ∧
    H.read w.writeMetadata.isGoodFrame k = some image.isGoodImage

/-- The pulse of an image is read. -/
theorem Retrieval.reads_image (j : Retrieval) {k : Nat} (hk : k < j.config.nImages.toNat) :
    Program.Reads j (j.config.startPulseId.toNat + k * j.config.pulseIdStep.toNat) ∧
      j.config.startPulseId.toNat + k * j.config.pulseIdStep.toNat ≤ j.config.stopPulseId.toNat := by
  have hc := j.ranged
  have hstart := hc.le
  have hlt := hk
  rw [hc.nImages, lt_below_iff hc.step_pos] at hlt
  have hle : j.config.startPulseId.toNat + k * j.config.pulseIdStep.toNat ≤ j.config.stopPulseId.toNat := by omega
  refine ⟨⟨Nat.div_le_div_right (Nat.le_add_right _ _), ?_⟩, hle⟩
  have hdiv := Nat.div_le_div_right (c := bufferBlockSize) hle
  have hblocks := j.startBlock_le
  unfold Retrieval.nBlocks
  omega

/-! ## The program -/

section

variable {s : Program H j.config}

/-- At the end all blocks were written. -/
theorem Program.writtenBlocks_done (h : Program.Inv j ws old start s) (hdone : Program.Done s) :
    writtenBlocks s.threads = j.nBlocks := by
  have hpoll : s.threads.main.phase = .poll := by
    by_contra hne
    have hlt := ((SfWriter.reachable_inv h.threads).reading hne).1
    exact Nat.lt_irrefl _ (hdone ▸ hlt)
  unfold writtenBlocks
  rw [hpoll]
  exact hdone

/-- Whatever the threads' interleaving, no call fails, and the writer is that of a loop over the blocks
which were written; at the end those are all blocks. -/
theorem threads_sequential (h : Program.Reachable j ws old start s) :
    s.aborted = none ∧
      writeBlocks (j.blocks (stored ws) old) ((blockIds j.config).take (writtenBlocks s.threads)) start = .ok s.writer ∧
      (Program.Done s → writeBlocks (j.blocks (stored ws) old) (blockIds j.config) start = .ok s.writer) := by
  have hinv := Program.reachable_inv h
  have hwritten := hinv.written
  have hle : writtenBlocks s.threads ≤ j.nBlocks := by
    have hthreads := SfWriter.reachable_inv hinv.threads
    have hpos : s.threads.main.pos ≤ j.nBlocks := (hthreads.lower 0 j.nModules_pos).trans (hthreads.bound 0 j.nModules_pos)
    unfold writtenBlocks
    cases hphase : s.threads.main.phase with
    | poll => exact hpos
    | getMetadata => exact hpos
    | write => exact hpos
    | resetStatus => exact (hthreads.reading (by rw [hphase]; decide)).1
    | resetBunchId => exact (hthreads.reading (by rw [hphase]; decide)).1
  have htake : (blockIds j.config).take (writtenBlocks s.threads) =
      List.range' j.startBlock (writtenBlocks s.threads) := by
    show (List.range' j.startBlock j.nBlocks).take _ = _
    exact List.take_range'_of_length_ge hle
  refine ⟨hinv.aborted, by rw [htake]; exact hwritten, fun hdone => ?_⟩
  rw [Program.writtenBlocks_done hinv hdone] at hwritten
  exact hwritten

/-- The datasets at the end. -/
theorem Program.rows_done (h : Program.Reachable j ws old start s) (hdone : Program.Done s) {k : Nat}
    (hk : k < j.config.nImages.toNat) :
    RowOf ws s.writer k (j.config.startPulseId.toNat + k * j.config.pulseIdStep.toNat) := by
  have hinv := Program.reachable_inv h
  have himages := hinv.images
  have hmetadata := hinv.metadata
  rw [Program.writtenBlocks_done hinv hdone, j.nextPulse_nBlocks] at himages hmetadata
  have hc := j.ranged
  have htotal : j.config.stopPulseId.toNat + 1 - j.config.startPulseId.toNat =
      j.config.stopPulseId.toNat - j.config.startPulseId.toNat + 1 := by
    have := hc.le
    omega
  have hreads := (j.reads_image hk).1
  constructor
  · rw [himages.image k (by rw [htotal, ← hc.nImages]; exact hk), pulseImage_stored hreads]
  · obtain ⟨image, hmerged, hpulseId, hframeIndex, hdaqRec, hgood⟩ := pulseEntry_stored ws old hreads
    refine ⟨image, hmerged, ?_, ?_, ?_, ?_⟩
    · rw [← hpulseId]
      exact read_selected hc hmetadata.pulseId hk
    · rw [← hframeIndex]
      exact read_selected hc hmetadata.frameIndex hk
    · rw [← hdaqRec]
      exact read_selected hc hmetadata.daqRec hk
    · rw [← hgood]
      exact read_selected hc hmetadata.isGoodFrame hk

/-- When `sf_writer` has written all blocks, its file has a row for each pulse of the range that the step
hits, with what the modules' buffer writers last wrote for the pulse. -/
theorem exported_file (h : Program.Reachable j ws old start s) (hdone : Program.Done s) :
    s.writer.dataWriteIndex = j.config.nImages ∧ s.writer.metaWriteIndex = j.config.nTotalPulses ∧
      H.extent s.writer.imageDataset = j.config.nImages ∧
      ∀ k < j.config.nImages.toNat,
        RowOf ws s.writer k (j.config.startPulseId.toNat + k * j.config.pulseIdStep.toNat) := by
  have hinv := Program.reachable_inv h
  have himages := hinv.images
  have hmetadata := hinv.metadata
  rw [Program.writtenBlocks_done hinv hdone, j.nextPulse_nBlocks] at himages hmetadata
  have htotal : j.config.stopPulseId.toNat + 1 - j.config.startPulseId.toNat =
      j.config.stopPulseId.toNat - j.config.startPulseId.toNat + 1 := by
    have := j.ranged.le
    omega
  refine ⟨?_, ?_, himages.extent, fun k hk => Program.rows_done h hdone hk⟩
  · apply UInt64.toNat_inj.1
    rw [himages.index, htotal, j.ranged.nImages]
  · apply UInt64.toNat_inj.1
    rw [hmetadata.index, htotal, j.ranged.nTotalPulses]

end

end

/-- The writer of two blocks is that of a loop over blocks 1 and 2. -/
theorem threads_sequential_twoBlocks : ∃ s : Program Hdf5.rows twoBlocksConfig, Program.Done (j := twoBlocks) s ∧
    writeBlocks (twoBlocks.blocks (stored fun m => moduleWrites m twoBlocksCalls) fun _ => Program.zeroMetadata) [1, 2]
      (Program.newWriter Hdf5.rows twoBlocksConfig) = .ok s.writer := by
  obtain ⟨s, hs, hdone⟩ := Program.exists_done (.init (twoBlocks_init Hdf5.rows))
  exact ⟨s, hdone, (threads_sequential hs).2.2 hdone⟩

/-- Image 1 is that of pulse 200; its second half comes from module 1. -/
theorem exported_file_twoBlocks : ∃ s : Program Hdf5.rows twoBlocksConfig, Program.Done (j := twoBlocks) s ∧
    s.writer.dataWriteIndex = 3 ∧
    ∃ image, Hdf5.rows.read s.writer.imageDataset 1 = some image ∧ image ⟨moduleNBytes, by decide⟩ = 1 := by
  obtain ⟨s, hs, hdone⟩ := Program.exists_done (.init (twoBlocks_init Hdf5.rows))
  obtain ⟨hindex, -, -, hrows⟩ := exported_file hs hdone
  exact ⟨s, hdone, hindex, _, (hrows 1 (by decide)).image, rfl⟩

end SfDaqBuffer.SfWriter
