/-
Images and metadata of the offline writer stay aligned over a run. `write` decimates the images and
`write_metadata` the metadata; both keep the multiples of the step, since the step divides the
first pulse of every block. The invariant says what the writer holds once all pulses below a
position are written.
-/
import SfDaqBuffer.SfWriter.Range

namespace SfDaqBuffer.SfWriter

open Memory Multiples JFH5Writer

/-! ## Accepted ranges -/

/-- A range whose ends and blocks are multiples of the step, and whose last block ends below
`2^64`. -/
structure Accepted (startPulseId stopPulseId pulseIdStep : UInt64) : Prop where
  le : startPulseId.toNat ≤ stopPulseId.toNat
  step_dvd : pulseIdStep.toNat ∣ bufferBlockSize
  start_dvd : pulseIdStep.toNat ∣ startPulseId.toNat
  stop_dvd : pulseIdStep.toNat ∣ stopPulseId.toNat
  last_lt : stopPulseId.toNat / bufferBlockSize * bufferBlockSize + bufferBlockSize ≤ 2 ^ 64

/-- What the constructor computes from an accepted range. -/
structure Ranged (c : WriterConfig) : Prop extends Accepted c.startPulseId c.stopPulseId c.pulseIdStep where
  nImages : c.nImages.toNat = below c.pulseIdStep.toNat (c.stopPulseId.toNat - c.startPulseId.toNat + 1)
  nTotalPulses : c.nTotalPulses.toNat = c.stopPulseId.toNat - c.startPulseId.toNat + 1

namespace Accepted

variable {startPulseId stopPulseId pulseIdStep : UInt64} (h : Accepted startPulseId stopPulseId pulseIdStep)

include h

theorem step_pos : 0 < pulseIdStep.toNat := Nat.pos_of_dvd_of_pos h.step_dvd (by decide)

theorem stop_lt : stopPulseId.toNat + 1 < 2 ^ 64 := by
  have hlast := h.last_lt
  simp only [bufferBlockSize] at hlast
  omega

theorem new_ranged (nModules : UInt64) : ∃ c, WriterConfig.new nModules startPulseId stopPulseId pulseIdStep = .ok c ∧
    c.startPulseId = startPulseId ∧ c.stopPulseId = stopPulseId ∧ c.pulseIdStep = pulseIdStep ∧ Ranged c := by
  have hstop := h.stop_lt
  have hcount := below_range h.step_pos h.start_dvd h.stop_dvd
  have hlt : stopPulseId.toNat / pulseIdStep.toNat - startPulseId.toNat / pulseIdStep.toNat + 1 < 2 ^ 64 := by
    have hself := Nat.div_le_self stopPulseId.toNat pulseIdStep.toNat
    have hsub := Nat.sub_le (stopPulseId.toNat / pulseIdStep.toNat) (startPulseId.toNat / pulseIdStep.toNat)
    exact (Nat.succ_le_succ (hsub.trans hself)).trans_lt hstop
  have hnew := WriterConfig.new_eq nModules h.step_dvd h.le h.start_dvd h.stop_dvd
  rw [if_neg hlt.ne] at hnew
  refine ⟨_, hnew, rfl, rfl, rfl, h, ?_, ?_⟩
  · rw [hcount, UInt64.toNat_ofNat']
    exact Nat.mod_eq_of_lt hlt
  · show (stopPulseId - startPulseId + 1).toNat = _
    rw [UInt64.toNat_add, UInt64.toNat_sub_of_le _ _ (UInt64.le_iff_toNat_le.2 h.le)]
    exact Nat.mod_eq_of_lt (by simp only [UInt64.reduceToNat]; omega)

end Accepted

/-! ## Pulses of the blocks -/

/-- The arguments of `write` for each block number. -/
abbrev Blocks (c : WriterConfig) := Nat → ImageMetadataBlock × BlockData c.nModules

variable {H : Hdf5} {c : WriterConfig} (blocks : Blocks c)

/-- Image `i` of a block. -/
def blockImage {nModules : UInt64} (data : BlockData nModules) (i : Nat) : Image nModules :=
  read data.pixels.cell (i * (imageNBytes nModules).toNat) (imageNBytes nModules).toNat

/-- The image of a pulse. -/
def pulseImage (p : Nat) : Image c.nModules := blockImage (blocks (p / bufferBlockSize)).2 (p % bufferBlockSize)

/-- The entry of a pulse in an array of the block metadata. -/
def pulseEntry {α : Type} (entries : ImageMetadataBlock → Fin bufferBlockSize → α) (p : Nat) : α :=
  entries (blocks (p / bufferBlockSize)).1 ⟨p % bufferBlockSize, Nat.mod_lt _ (by decide)⟩

/-! ## The invariant -/

/-- The images of the pulses below `p` are in the dataset. -/
structure ImagesUpTo (w : JFH5Writer H c) (p : Nat) : Prop where
  index : w.dataWriteIndex.toNat = below c.pulseIdStep.toNat (p - c.startPulseId.toNat)
  extent : H.extent w.imageDataset = c.nImages
  image : ∀ k < below c.pulseIdStep.toNat (p - c.startPulseId.toNat),
    H.read w.imageDataset k = some (pulseImage blocks (c.startPulseId.toNat + k * c.pulseIdStep.toNat))

/-- An array of the writer holds the entries of the pulses below `p`. -/
def EntriesUpTo {α : Type} (array : Region α c.nTotalPulses.toNat)
    (entries : ImageMetadataBlock → Fin bufferBlockSize → α) (p : Nat) : Prop :=
  ∀ i < p - c.startPulseId.toNat, array.cell i = pulseEntry blocks entries (c.startPulseId.toNat + i)

structure MetadataUpTo (w : JFH5Writer H c) (p : Nat) : Prop where
  index : w.metaWriteIndex.toNat = p - c.startPulseId.toNat
  pulseId : EntriesUpTo blocks w.bPulseId ImageMetadataBlock.pulseId p
  frameIndex : EntriesUpTo blocks w.bFrameIndex ImageMetadataBlock.frameIndex p
  daqRec : EntriesUpTo blocks w.bDaqRec ImageMetadataBlock.daqRec p
  isGoodFrame : EntriesUpTo blocks w.bIsGoodFrame ImageMetadataBlock.isGoodImage p

/-- The images of a block change nothing that `MetadataUpTo` is about. -/
structure SameMetadata (w w' : JFH5Writer H c) : Prop where
  index : w'.metaWriteIndex = w.metaWriteIndex
  pulseId : w'.bPulseId = w.bPulseId
  frameIndex : w'.bFrameIndex = w.bFrameIndex
  daqRec : w'.bDaqRec = w.bDaqRec
  isGoodFrame : w'.bIsGoodFrame = w.bIsGoodFrame

theorem SameMetadata.trans {w w' w'' : JFH5Writer H c} (h : SameMetadata w w') (h' : SameMetadata w' w'') :
    SameMetadata w w'' :=
  ⟨h'.index.trans h.index, h'.pulseId.trans h.pulseId, h'.frameIndex.trans h.frameIndex,
    h'.daqRec.trans h.daqRec, h'.isGoodFrame.trans h.isGoodFrame⟩

theorem setImages_sameMetadata (w : JFH5Writer H c) (imageDataset : H.Dataset (Image c.nModules))
    (dataWriteIndex : UInt64) : SameMetadata w (w.setImages imageDataset dataWriteIndex) :=
  ⟨rfl, rfl, rfl, rfl, rfl⟩

variable {blocks}

/-! ## Images -/

section

variable {w : JFH5Writer H c} {p : Nat}

theorem ImagesUpTo.append (h : ImagesUpTo blocks w p) (hc : Ranged c) (hstart : c.startPulseId.toNat ≤ p)
    (hstop : p ≤ c.stopPulseId.toNat) (hp : c.pulseIdStep.toNat ∣ p) :
    ImagesUpTo blocks (w.appendImage (pulseImage blocks p)) (p + 1) := by
  have hstep := hc.step_pos
  have hdvd : c.pulseIdStep.toNat ∣ p - c.startPulseId.toNat := Nat.dvd_sub hp hc.start_dvd
  have hsucc : below c.pulseIdStep.toNat (p + 1 - c.startPulseId.toNat) =
      below c.pulseIdStep.toNat (p - c.startPulseId.toNat) + 1 := by
    rw [Nat.sub_add_comm hstart, below_succ_of_dvd hdvd]
  have hmul := below_mul_of_dvd hstep hdvd
  -- the number of an image in the range is below `n_images_`
  have hlt : w.dataWriteIndex.toNat < c.nImages.toNat := by
    rw [h.index, hc.nImages, lt_below_iff hstep, hmul]
    omega
  have hfit := c.nImages.toNat_lt
  refine ⟨?_, ?_, fun k hk => ?_⟩
  · show (w.dataWriteIndex + 1).toNat = _
    rw [hsucc, ← h.index, UInt64.toNat_add]
    exact Nat.mod_eq_of_lt (by simp only [UInt64.reduceToNat]; omega)
  · exact (H.extent_writeChunk ..).trans h.extent
  · have hext : w.dataWriteIndex < H.extent w.imageDataset := by
      rw [h.extent, UInt64.lt_iff_toNat_lt]
      exact hlt
    show H.read (H.writeChunk w.imageDataset w.dataWriteIndex _) k = _
    rw [H.read_writeChunk _ _ _ hext, h.index]
    by_cases heq : k = below c.pulseIdStep.toNat (p - c.startPulseId.toNat)
    · rw [if_pos heq, heq, hmul, Nat.add_sub_cancel' hstart]
    · rw [if_neg heq]
      exact h.image k (by omega)

theorem ImagesUpTo.skip (h : ImagesUpTo blocks w p) (hc : Ranged c) (hstart : c.startPulseId.toNat ≤ p)
    (hp : ¬ c.pulseIdStep.toNat ∣ p) : ImagesUpTo blocks w (p + 1) := by
  have hdvd : ¬ c.pulseIdStep.toNat ∣ p - c.startPulseId.toNat := fun hdvd => by
    have hsum := Nat.dvd_add hdvd hc.start_dvd
    rw [Nat.sub_add_cancel hstart] at hsum
    exact hp hsum
  have hsucc : below c.pulseIdStep.toNat (p + 1 - c.startPulseId.toNat) =
      below c.pulseIdStep.toNat (p - c.startPulseId.toNat) := by
    rw [Nat.sub_add_comm hstart, below_succ_of_not_dvd hdvd]
  exact ⟨h.index.trans hsucc.symm, h.extent, fun k hk => h.image k (hsucc ▸ hk)⟩

theorem load_image {nModules : UInt64} (data : BlockData nModules) {i : UInt64} (hi : i.toNat < bufferBlockSize) :
    data.pixels.load (i * UInt64.ofNat moduleNBytes * nModules).toNat (imageNBytes nModules).toNat =
      some (blockImage data i.toNat) := by
  have hwithin := cell_within (n := (imageNBytes nModules).toNat) hi
  have hoff : (i * UInt64.ofNat moduleNBytes * nModules).toNat = i.toNat * (imageNBytes nModules).toNat := by
    have hassoc : i * UInt64.ofNat moduleNBytes * nModules = i * imageNBytes nModules := UInt64.mul_assoc ..
    have hfits := data.fits
    rw [hassoc, UInt64.toNat_mul]
    exact Nat.mod_eq_of_lt (by omega)
  rw [hoff]
  exact Region.load_eq_some _ hwithin

/-- The pulse of image `i` of a block is a multiple of the step when `i` is. -/
theorem image_mod_iff (hc : Ranged c) {b : Nat} {i : UInt64} :
    i % c.pulseIdStep = 0 ↔ c.pulseIdStep.toNat ∣ b * bufferBlockSize + i.toNat := by
  have hblock : c.pulseIdStep.toNat ∣ b * bufferBlockSize := Nat.dvd_mul_left_of_dvd hc.step_dvd b
  rw [← Nat.dvd_add_iff_right hblock, ← UInt64.toNat_inj, UInt64.toNat_mod, Nat.dvd_iff_mod_eq_zero]
  rfl

theorem writeImages_skip (data : BlockData c.nModules) (n : Nat) {i : UInt64} (w : JFH5Writer H c)
    (h : i % c.pulseIdStep ≠ 0) : writeImages data (n + 1) i w = writeImages data n (i + 1) w := by
  rw [writeImages_succ, if_pos h]

theorem writeImages_append (data : BlockData c.nModules) (n : Nat) {i : UInt64} (w : JFH5Writer H c)
    (h : i % c.pulseIdStep = 0) (hi : i.toNat < bufferBlockSize) :
    writeImages data (n + 1) i w = writeImages data n (i + 1) (w.appendImage (blockImage data i.toNat)) := by
  have hload := load_image data hi
  rw [writeImages_succ, if_neg (not_not.2 h)]
  simp only [hload]

theorem writeImages_spec (hc : Ranged c) (b : Nat) : ∀ (n : Nat) (i : UInt64) (w : JFH5Writer H c) (p : Nat),
    p = b * bufferBlockSize + i.toNat → i.toNat + n ≤ bufferBlockSize → c.startPulseId.toNat ≤ p →
      p + n ≤ c.stopPulseId.toNat + 1 → ImagesUpTo blocks w p →
      ∃ w', writeImages (blocks b).2 n i w = .ok w' ∧ ImagesUpTo blocks w' (p + n) ∧ SameMetadata w w'
  | 0, _, w, p, _, _, _, _, h => ⟨w, rfl, h, rfl, rfl, rfl, rfl, rfl⟩
  | n + 1, i, w, p, hp, hi, hstart, hstop, h => by
    simp only [bufferBlockSize] at hp hi
    have hnext : (i + 1).toNat = i.toNat + 1 := by
      rw [UInt64.toNat_add]
      exact Nat.mod_eq_of_lt (by simp only [UInt64.reduceToNat]; omega)
    have ih := fun w' => writeImages_spec hc b n (i + 1) w' (p + 1) (by simp only [bufferBlockSize]; omega)
      (by simp only [bufferBlockSize]; omega) (by omega) (by omega)
    rw [show p + (n + 1) = p + 1 + n by omega]
    by_cases hmod : i % c.pulseIdStep = 0
    · have hdvd : c.pulseIdStep.toNat ∣ p := by
        rw [hp]
        exact (image_mod_iff hc).1 hmod
      have himage : pulseImage blocks p = blockImage (blocks b).2 i.toNat := by
        have hb : p / bufferBlockSize = b := by simp only [bufferBlockSize]; omega
        have hi' : p % bufferBlockSize = i.toNat := by simp only [bufferBlockSize]; omega
        unfold pulseImage
        rw [hb, hi']
      have happend := h.append hc hstart (by omega) hdvd
      rw [himage] at happend
      obtain ⟨w', hw', himages, hsame⟩ := ih _ happend
      rw [writeImages_append _ _ _ hmod (by simp only [bufferBlockSize]; omega)]
      exact ⟨w', hw', himages, (setImages_sameMetadata ..).trans hsame⟩
    · have hdvd : ¬ c.pulseIdStep.toNat ∣ p := by
        rw [hp]
        exact fun hdvd => hmod ((image_mod_iff hc).2 hdvd)
      rw [writeImages_skip _ _ _ hmod]
      exact ih w (h.skip hc hstart hdvd)

end

/-! ## Metadata -/

/-- `n` entries of a block, from `offset` on, were copied to an array at `index`. -/
structure EntriesCopied {α : Type} {size : Nat} (array array' : Region α size) (index : Nat)
    (entries : Fin bufferBlockSize → α) (offset n : Nat) : Prop where
  other : ∀ i, i < index ∨ index + n ≤ i → array'.cell i = array.cell i
  copied : ∀ j < n, ∀ h : offset + j < bufferBlockSize, array'.cell (index + j) = entries ⟨offset + j, h⟩

theorem copyEntries_ok {α : Type} {size : Nat} (array : Region α size) {index offset n : UInt64}
    (entries : Fin bufferBlockSize → α) (h : offset.toNat + n.toNat ≤ bufferBlockSize)
    (hsize : index.toNat + n.toNat ≤ size) : ∃ array', copyEntries array index entries offset n = .ok array' ∧
      EntriesCopied array array' index.toNat entries offset.toNat n.toNat := by
  obtain ⟨array', hstore⟩ : ∃ array', (array.store index.toNat fun i : Fin n.toNat =>
      entries ⟨offset.toNat + i, by omega⟩) = some array' := ⟨_, Region.store_eq_some _ _ hsize⟩
  have hcell := Region.cell_of_store hstore
  unfold copyEntries
  rw [dif_pos h, hstore]
  refine ⟨array', rfl, fun i hi => ?_, fun j hj _ => ?_⟩
  · rw [hcell]
    exact write_outside _ _ _ hi
  · rw [hcell]
    exact write_inside _ _ _ ⟨j, hj⟩

/-- The copy of the entries of a block continues an array. -/
theorem EntriesUpTo.copy {α : Type} {array : Region α c.nTotalPulses.toNat}
    {entries : ImageMetadataBlock → Fin bufferBlockSize → α} {p b : Nat} (h : EntriesUpTo blocks array entries p)
    (hc : Ranged c) {index offset n : UInt64} (hindex : index.toNat = p - c.startPulseId.toNat)
    (hp : p = b * bufferBlockSize + offset.toNat) (hn : offset.toNat + n.toNat ≤ bufferBlockSize)
    (hstart : c.startPulseId.toNat ≤ p) (hstop : p + n.toNat ≤ c.stopPulseId.toNat + 1) :
    ∃ array', copyEntries array index (entries (blocks b).1) offset n = .ok array' ∧
      EntriesUpTo blocks array' entries (p + n.toNat) := by
  have hsize : index.toNat + n.toNat ≤ c.nTotalPulses.toNat := by
    rw [hindex, hc.nTotalPulses]
    omega
  obtain ⟨array', hcopy, hold, hnew⟩ := copyEntries_ok array (entries (blocks b).1) hn hsize
  refine ⟨array', hcopy, fun i hi => ?_⟩
  by_cases hlt : i < index.toNat
  · rw [hold i (.inl hlt)]
    exact h i (hindex ▸ hlt)
  · obtain ⟨j, rfl⟩ : ∃ j, i = index.toNat + j := ⟨i - index.toNat, by omega⟩
    have hj : j < n.toNat := by omega
    simp only [bufferBlockSize] at hp hn
    have hpulse : c.startPulseId.toNat + (index.toNat + j) = b * bufferBlockSize + (offset.toNat + j) := by
      simp only [bufferBlockSize]
      omega
    have hb : (b * bufferBlockSize + (offset.toNat + j)) / bufferBlockSize = b := by
      simp only [bufferBlockSize]
      omega
    have hmod : (b * bufferBlockSize + (offset.toNat + j)) % bufferBlockSize = offset.toNat + j := by
      simp only [bufferBlockSize]
      omega
    rw [hnew j hj (by simp only [bufferBlockSize]; omega), hpulse]
    unfold pulseEntry
    simp only [hb, hmod]

section

variable {w : JFH5Writer H c} {p : Nat}

theorem copyMetadata_spec (h : MetadataUpTo blocks w p) (hc : Ranged c) {b : Nat} {offset n : UInt64}
    (hp : p = b * bufferBlockSize + offset.toNat) (hn : offset.toNat + n.toNat ≤ bufferBlockSize)
    (hstart : c.startPulseId.toNat ≤ p) (hstop : p + n.toNat ≤ c.stopPulseId.toNat + 1) :
    ∃ w', w.copyMetadata (blocks b).1 offset n = .ok w' ∧ MetadataUpTo blocks w' (p + n.toNat) ∧
      w'.dataWriteIndex = w.dataWriteIndex ∧ w'.imageDataset = w.imageDataset := by
  obtain ⟨pulseId, h1, hpulseId⟩ := h.pulseId.copy hc h.index hp hn hstart hstop
  obtain ⟨frameIndex, h2, hframeIndex⟩ := h.frameIndex.copy hc h.index hp hn hstart hstop
  obtain ⟨daqRec, h3, hdaqRec⟩ := h.daqRec.copy hc h.index hp hn hstart hstop
  obtain ⟨isGoodFrame, h4, hisGoodFrame⟩ := h.isGoodFrame.copy hc h.index hp hn hstart hstop
  have hindex : (w.metaWriteIndex + n).toNat = p + n.toNat - c.startPulseId.toNat := by
    have hlt := hc.stop_lt
    rw [UInt64.toNat_add, h.index, Nat.mod_eq_of_lt (by omega)]
    omega
  unfold copyMetadata
  rw [h1, h2, h3, h4]
  exact ⟨_, rfl, ⟨hindex, hpulseId, hframeIndex, hdaqRec, hisGoodFrame⟩, rfl, rfl⟩

theorem MetadataUpTo.same {w' : JFH5Writer H c} (h : MetadataUpTo blocks w p) (hs : SameMetadata w w') :
    MetadataUpTo blocks w' p :=
  ⟨hs.index ▸ h.index, hs.pulseId ▸ h.pulseId, hs.frameIndex ▸ h.frameIndex, hs.daqRec ▸ h.daqRec,
    hs.isGoodFrame ▸ h.isGoodFrame⟩

end

/-! ## One block -/

/-- Block `b` overlaps the range and has the bounds of its number. -/
structure InRange (c : WriterConfig) (b : Nat) (metadata : ImageMetadataBlock) : Prop where
  start_le : c.startPulseId.toNat / bufferBlockSize ≤ b
  le_stop : b ≤ c.stopPulseId.toNat / bufferBlockSize
  blockStart : metadata.blockStartPulseId.toNat = b * bufferBlockSize
  blockStop : metadata.blockStopPulseId.toNat = b * bufferBlockSize + (bufferBlockSize - 1)

/-- The first pulse of the range in block `b`. -/
def firstOf (c : WriterConfig) (b : Nat) : Nat := max c.startPulseId.toNat (b * bufferBlockSize)

/-- The end of the pulses of the range in block `b`. -/
def endOf (c : WriterConfig) (b : Nat) : Nat := min (c.stopPulseId.toNat + 1) (b * bufferBlockSize + bufferBlockSize)

theorem nImagesOffset_toNat (c : WriterConfig) (metadata : ImageMetadataBlock) :
    (nImagesOffset c metadata).toNat = c.startPulseId.toNat - metadata.blockStartPulseId.toNat := by
  unfold nImagesOffset
  split
  · rename_i hgt
    exact UInt64.toNat_sub_of_le _ _ (UInt64.le_of_lt hgt)
  · rename_i hle
    rw [gt_iff_lt, UInt64.lt_iff_toNat_lt] at hle
    simp only [UInt64.toNat_zero]
    omega

/-- The two subtractions wrap. -/
theorem nImagesToCopy_toNat (c : WriterConfig) (metadata : ImageMetadataBlock)
    (h : (nImagesOffset c metadata).toNat ≤ bufferBlockSize) :
    (nImagesToCopy c metadata).toNat = (2 ^ 64 + (bufferBlockSize - (nImagesOffset c metadata).toNat) -
      (metadata.blockStopPulseId.toNat - c.stopPulseId.toNat)) % 2 ^ 64 := by
  have hsub : (UInt64.ofNat bufferBlockSize - nImagesOffset c metadata).toNat =
      bufferBlockSize - (nImagesOffset c metadata).toNat :=
    UInt64.toNat_sub_of_le _ _ (UInt64.le_iff_toNat_le.2 h)
  have hstop := metadata.blockStopPulseId.toNat_lt
  unfold nImagesToCopy
  simp only [bufferBlockSize] at *
  split
  · rename_i hlt
    have hcut := UInt64.toNat_sub_of_le _ _ (UInt64.le_of_lt hlt)
    rw [UInt64.toNat_sub, hsub, hcut]
    omega
  · rename_i hge
    rw [UInt64.lt_iff_toNat_lt] at hge
    rw [hsub]
    omega

theorem InRange.offset {b : Nat} {metadata : ImageMetadataBlock} (h : InRange c b metadata) :
    b * bufferBlockSize + (nImagesOffset c metadata).toNat = firstOf c b := by
  have h1 := h.blockStart
  have hoff := nImagesOffset_toNat c metadata
  unfold firstOf
  omega

theorem InRange.copied {b : Nat} {metadata : ImageMetadataBlock} (h : InRange c b metadata) (hc : Ranged c) :
    firstOf c b + (nImagesToCopy c metadata).toNat = endOf c b ∧ firstOf c b < endOf c b ∧
      (nImagesOffset c metadata).toNat < bufferBlockSize := by
  have hoff := h.offset
  obtain ⟨h1, h2, h3, h4⟩ := h
  have hle := hc.le
  unfold firstOf at hoff ⊢
  unfold endOf
  simp only [bufferBlockSize] at *
  have hlt : (nImagesOffset c metadata).toNat < 100 := by omega
  have hcopy := nImagesToCopy_toNat c metadata (le_of_lt hlt)
  simp only [bufferBlockSize] at hcopy
  refine ⟨by omega, by omega, hlt⟩

theorem write_spec {w : JFH5Writer H c} {b : Nat} (hc : Ranged c) (hb : InRange c b (blocks b).1)
    (himages : ImagesUpTo blocks w (firstOf c b)) (hmeta : MetadataUpTo blocks w (firstOf c b)) :
    ∃ w', w.write (blocks b).1 (blocks b).2 = .ok w' ∧ ImagesUpTo blocks w' (endOf c b) ∧
      MetadataUpTo blocks w' (endOf c b) := by
  have hoff := hb.offset
  obtain ⟨hend, hpos, hlt⟩ := hb.copied hc
  have hfirst : c.startPulseId.toNat ≤ firstOf c b := le_max_left ..
  have hstop : endOf c b ≤ c.stopPulseId.toNat + 1 := min_le_left ..
  have hblock : endOf c b ≤ b * bufferBlockSize + bufferBlockSize := min_le_right ..
  have hn : (nImagesOffset c (blocks b).1).toNat + (nImagesToCopy c (blocks b).1).toNat ≤ bufferBlockSize := by
    omega
  obtain ⟨w₁, h₁, himages₁, hsame⟩ := writeImages_spec hc b (nImagesToCopy c (blocks b).1).toNat
    (nImagesOffset c (blocks b).1) w _ hoff.symm hn hfirst (by omega) himages
  obtain ⟨w', h', hmeta', hindex', hdataset'⟩ := copyMetadata_spec (hmeta.same hsame) hc hoff.symm hn hfirst
    (by omega)
  rw [hend] at himages₁ hmeta'
  refine ⟨w', ?_, ⟨hindex' ▸ himages₁.index, hdataset' ▸ himages₁.extent, hdataset' ▸ himages₁.image⟩, hmeta'⟩
  simp only [bufferBlockSize] at hn hlt
  have hround : nImagesOffset c (blocks b).1 < nImagesOffset c (blocks b).1 + nImagesToCopy c (blocks b).1 := by
    rw [UInt64.lt_iff_toNat_lt, UInt64.toNat_add, Nat.mod_eq_of_lt (by omega)]
    omega
  have hle : ¬ nImagesOffset c (blocks b).1 > UInt64.ofNat bufferBlockSize := by
    rw [gt_iff_lt, UInt64.lt_iff_toNat_lt]
    show ¬ 100 < _
    omega
  have hone : ¬ nImagesToCopy c (blocks b).1 < 1 := by
    rw [UInt64.lt_iff_toNat_lt]
    show ¬ _ < 1
    omega
  unfold JFH5Writer.write
  simp only
  rw [if_neg hle, if_neg hone, if_pos hround, h₁]
  exact h'

/-! ## A run -/

/-- `write` for each of a list of blocks. -/
def writeBlocks (blocks : Blocks c) : List Nat → JFH5Writer H c → Except Fault (JFH5Writer H c)
  | [], w => .ok w
  | b :: bs, w => do
    let w ← w.write (blocks b).1 (blocks b).2
    writeBlocks blocks bs w

/-- The numbers of the blocks of the range. -/
def blockIds (c : WriterConfig) : List Nat :=
  List.range' (c.startPulseId.toNat / bufferBlockSize)
    (c.stopPulseId.toNat / bufferBlockSize + 1 - c.startPulseId.toNat / bufferBlockSize)

theorem writeBlocks_spec (hc : Ranged c) : ∀ (n b : Nat) (w : JFH5Writer H c),
    (∀ b' < n, InRange c (b + b') (blocks (b + b')).1) → b + n = c.stopPulseId.toNat / bufferBlockSize + 1 → 0 < n →
      ImagesUpTo blocks w (firstOf c b) → MetadataUpTo blocks w (firstOf c b) →
      ∃ w', writeBlocks blocks (List.range' b n) w = .ok w' ∧ ImagesUpTo blocks w' (c.stopPulseId.toNat + 1) ∧
        MetadataUpTo blocks w' (c.stopPulseId.toNat + 1)
  | 0, _, _, _, _, hpos, _, _ => absurd hpos (Nat.lt_irrefl 0)
  | n + 1, b, w, hblocks, hlast, _, himages, hmeta => by
    have hb : InRange c b (blocks b).1 := hblocks 0 (Nat.succ_pos n)
    obtain ⟨w₁, h₁, himages₁, hmeta₁⟩ := write_spec hc hb himages hmeta
    rw [List.range'_succ]
    unfold writeBlocks
    rw [h₁]
    cases n with
    | zero =>
      have hend : endOf c b = c.stopPulseId.toNat + 1 := by
        unfold endOf
        simp only [bufferBlockSize] at hlast ⊢
        omega
      rw [hend] at himages₁ hmeta₁
      exact ⟨w₁, rfl, himages₁, hmeta₁⟩
    | succ n =>
      -- a block that is not the last one is written to its end
      have hend : endOf c b = firstOf c (b + 1) := by
        have hstart := hb.start_le
        unfold endOf firstOf
        simp only [bufferBlockSize] at hlast hstart ⊢
        omega
      rw [hend] at himages₁ hmeta₁
      refine writeBlocks_spec hc (n + 1) (b + 1) w₁ (fun b' hb' => ?_) (by omega) (Nat.succ_pos n) himages₁ hmeta₁
      have hnext := hblocks (b' + 1) (by omega)
      rwa [show b + (b' + 1) = b + 1 + b' by omega] at hnext

/-! ## The file -/

theorem metadataSelection_within (hc : Ranged c) : (metadataSelection c).Within := by
  refine ⟨hc.step_pos, fun k hk => ?_⟩
  have hlt : k < below c.pulseIdStep.toNat (c.stopPulseId.toNat - c.startPulseId.toNat + 1) := hc.nImages ▸ hk
  have hmul := (lt_below_iff hc.step_pos).1 hlt
  show 0 + k * c.pulseIdStep.toNat < c.nTotalPulses.toNat
  rw [hc.nTotalPulses]
  omega

/-- The rows of a metadata dataset are the entries of the pulses of the images. -/
theorem read_selected (hc : Ranged c) {α : Type} {array : Region α c.nTotalPulses.toNat}
    {entries : ImageMetadataBlock → Fin bufferBlockSize → α}
    (h : EntriesUpTo blocks array entries (c.stopPulseId.toNat + 1)) {k : Nat} (hk : k < c.nImages.toNat) :
    H.read (H.writeSelected (H.create α c.nImages) (metadataSelection c) array.cell) k =
      some (pulseEntry blocks entries (c.startPulseId.toNat + k * c.pulseIdStep.toNat)) := by
  have hlt := hk
  rw [hc.nImages, lt_below_iff hc.step_pos] at hlt
  have hrow : H.read (H.writeSelected (H.create α c.nImages) (metadataSelection c) array.cell) k =
      some (array.cell (0 + k * c.pulseIdStep.toNat)) :=
    H.read_writeSelected _ _ _ (metadataSelection_within hc) (H.extent_create _ _) k hk
  have hle := hc.le
  rw [hrow, Nat.zero_add, h _ (by omega)]

/-- Image `k` and row `k` of each metadata dataset belong to the same pulse. -/
structure RowsAligned (blocks : Blocks c) (w : JFH5Writer H c) (k : Nat) (p : Nat) : Prop where
  image : H.read w.imageDataset k = some (pulseImage blocks p)
  pulseId : H.read w.writeMetadata.pulseId k = some (pulseEntry blocks ImageMetadataBlock.pulseId p)
  frameIndex : H.read w.writeMetadata.frameIndex k = some (pulseEntry blocks ImageMetadataBlock.frameIndex p)
  daqRec : H.read w.writeMetadata.daqRec k = some (pulseEntry blocks ImageMetadataBlock.daqRec p)
  isGoodFrame : H.read w.writeMetadata.isGoodFrame k = some (pulseEntry blocks ImageMetadataBlock.isGoodImage p)

theorem new_upTo (blocks : Blocks c) (bPulseId bFrameIndex : Region UInt64 c.nTotalPulses.toNat)
    (bDaqRec : Region UInt32 c.nTotalPulses.toNat) (bIsGoodFrame : Region UInt8 c.nTotalPulses.toNat) :
    ImagesUpTo blocks (JFH5Writer.new (H := H) bPulseId bFrameIndex bDaqRec bIsGoodFrame) c.startPulseId.toNat ∧
      MetadataUpTo blocks (JFH5Writer.new (H := H) bPulseId bFrameIndex bDaqRec bIsGoodFrame)
        c.startPulseId.toNat := by
  have hnone : ∀ {α : Type} (array : Region α c.nTotalPulses.toNat)
      (entries : ImageMetadataBlock → Fin bufferBlockSize → α),
      EntriesUpTo blocks array entries c.startPulseId.toNat := by
    intro α array entries i hi
    rw [Nat.sub_self] at hi
    exact absurd hi (Nat.not_lt_zero i)
  refine ⟨⟨?_, H.extent_create _ _, fun k hk => ?_⟩, ?_, hnone _ _, hnone _ _, hnone _ _, hnone _ _⟩
  · rw [Nat.sub_self, below_zero]
    rfl
  · rw [Nat.sub_self, below_zero] at hk
    exact absurd hk (Nat.not_lt_zero k)
  · rw [Nat.sub_self]
    rfl

/-- A run of the writer over the blocks of an accepted range: no call fails, the indices end at the
numbers of images and pulses, and image `k` and the rows `k` are those of pulse
`start + k * step`. -/
theorem writer_run_aligned (H : Hdf5) (nModules : UInt64) {startPulseId stopPulseId pulseIdStep : UInt64}
    (h : Accepted startPulseId stopPulseId pulseIdStep) :
    ∃ c, WriterConfig.new nModules startPulseId stopPulseId pulseIdStep = .ok c ∧
      c.nImages.toNat =
        ((Finset.Icc startPulseId.toNat stopPulseId.toNat).filter (pulseIdStep.toNat ∣ ·)).card ∧
      ∀ (blocks : Blocks c) bPulseId bFrameIndex bDaqRec bIsGoodFrame,
        (∀ b ∈ blockIds c, InRange c b (blocks b).1) →
        ∃ w : JFH5Writer H c, writeBlocks blocks (blockIds c) (.new bPulseId bFrameIndex bDaqRec bIsGoodFrame) = .ok w ∧
          w.dataWriteIndex = c.nImages ∧ w.metaWriteIndex = c.nTotalPulses ∧
          ∀ k < c.nImages.toNat, RowsAligned blocks w k (startPulseId.toNat + k * pulseIdStep.toNat) := by
  obtain ⟨c, hnew, rfl, rfl, rfl, hc⟩ := h.new_ranged nModules
  refine ⟨c, hnew, ?_, fun blocks bPulseId bFrameIndex bDaqRec bIsGoodFrame hblocks => ?_⟩
  · rw [hc.nImages, card_multiples hc.step_pos hc.start_dvd hc.le]
  have hle := Nat.div_le_div_right (c := bufferBlockSize) hc.le
  obtain ⟨himages, hmeta⟩ := new_upTo (H := H) blocks bPulseId bFrameIndex bDaqRec bIsGoodFrame
  have hfirst : firstOf c (c.startPulseId.toNat / bufferBlockSize) = c.startPulseId.toNat := by
    unfold firstOf
    simp only [bufferBlockSize]
    omega
  obtain ⟨w, hw, himages', hmeta'⟩ := writeBlocks_spec hc
    (c.stopPulseId.toNat / bufferBlockSize + 1 - c.startPulseId.toNat / bufferBlockSize)
    (c.startPulseId.toNat / bufferBlockSize) _
    (fun b' hb' => hblocks _ (List.mem_range'_1.2 ⟨Nat.le_add_right .., by omega⟩)) (by omega) (by omega)
    (hfirst.symm ▸ himages) (hfirst.symm ▸ hmeta)
  have htotal : c.stopPulseId.toNat + 1 - c.startPulseId.toNat = c.stopPulseId.toNat - c.startPulseId.toNat + 1 := by
    have := hc.le
    omega
  refine ⟨w, hw, ?_, ?_, fun k hk => ⟨?_, ?_, ?_, ?_, ?_⟩⟩
  · apply UInt64.toNat_inj.1
    rw [himages'.index, htotal, hc.nImages]
  · apply UInt64.toNat_inj.1
    rw [hmeta'.index, htotal, hc.nTotalPulses]
  · apply himages'.image
    rw [htotal, ← hc.nImages]
    exact hk
  · exact read_selected hc hmeta'.pulseId hk
  · exact read_selected hc hmeta'.frameIndex hk
  · exact read_selected hc hmeta'.daqRec hk
  · exact read_selected hc hmeta'.isGoodFrame hk

/-- Blocks of one module whose metadata holds the pulse_ids. -/
def numberedBlocks (b : Nat) : ImageMetadataBlock × BlockData 1 where
  fst := {
    pulseId := fun i => UInt64.ofNat (b * bufferBlockSize + i)
    frameIndex := fun _ => 0
    daqRec := fun _ => 0
    isGoodImage := fun _ => 1
    blockStartPulseId := UInt64.ofNat (b * bufferBlockSize)
    blockStopPulseId := UInt64.ofNat (b * bufferBlockSize + (bufferBlockSize - 1)) }
  snd := ⟨⟨fun _ => 0⟩, by decide⟩

/-- Every second pulse from 98 to 102, over two partial blocks. -/
theorem writer_run_aligned_twoBlocks :
    ∃ w : JFH5Writer Hdf5.rows ⟨1, 98, 102, 2, 3, 5⟩,
      writeBlocks numberedBlocks [0, 1] (.new ⟨fun _ => 0⟩ ⟨fun _ => 0⟩ ⟨fun _ => 0⟩ ⟨fun _ => 0⟩) = .ok w ∧
        w.dataWriteIndex = 3 ∧ w.metaWriteIndex = 5 ∧ Hdf5.rows.read w.writeMetadata.pulseId 2 = some 102 := by
  have haccepted : Accepted 98 102 2 := ⟨by decide, by decide, by decide, by decide, by decide⟩
  obtain ⟨c, hnew, -, hrun⟩ := writer_run_aligned Hdf5.rows 1 haccepted
  obtain rfl : ⟨1, 98, 102, 2, 3, 5⟩ = c := Except.ok.inj hnew
  have hblocks : ∀ b ∈ blockIds ⟨1, 98, 102, 2, 3, 5⟩, InRange ⟨1, 98, 102, 2, 3, 5⟩ b (numberedBlocks b).1 := by
    intro b hb
    have hb : b ∈ [0, 1] := hb
    simp only [List.mem_cons, List.not_mem_nil, or_false] at hb
    rcases hb with rfl | rfl
    · exact ⟨by decide, by decide, rfl, rfl⟩
    · exact ⟨by decide, by decide, rfl, rfl⟩
  obtain ⟨w, hw, hdata, hmeta, hrows⟩ :=
    hrun numberedBlocks ⟨fun _ => 0⟩ ⟨fun _ => 0⟩ ⟨fun _ => 0⟩ ⟨fun _ => 0⟩ hblocks
  exact ⟨w, hw, hdata, hmeta, (hrows 2 (by decide)).pulseId⟩

end SfDaqBuffer.SfWriter
