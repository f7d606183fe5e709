/-
Which blocks `JFH5Writer::write` accepts: those that overlap the range, and the pulses of the overlap are
copied. The length of the overlap is computed by unsigned subtractions; it wraps for a block that starts
more than one pulse behind the range, and such a block is not rejected.
-/
import SfDaqBuffer.SfWriter.Alignment

namespace SfDaqBuffer.SfWriter

open Memory Multiples JFH5Writer

variable {H : Hdf5} {c : WriterConfig}

namespace JFH5Writer

/-- `write` with the writer that it leaves. -/
def writeState (w : JFH5Writer H c) (metadata : ImageMetadataBlock) (data : BlockData c.nModules) :
    Except Fault Unit × JFH5Writer H c :=
  let offset := nImagesOffset c metadata
  let n := nImagesToCopy c metadata
  if offset > UInt64.ofNat bufferBlockSize then
    (.error (.threw "Received unexpected block for start_pulse_id."), w)
  else if n < 1 then (.error (.threw "Received unexpected block for stop_pulse_id."), w)
  else
    match writeImages data (if offset < offset + n then n.toNat else 0) offset w with
    | .error e => (.error e, w)
    | .ok w =>
      match w.copyMetadata metadata offset n with
      | .error e => (.error e, w)
      | .ok w => (.ok (), w)

theorem write_eq (w : JFH5Writer H c) (metadata : ImageMetadataBlock) (data : BlockData c.nModules) :
    w.write metadata data = (w.writeState metadata data).1.map fun _ => (w.writeState metadata data).2 := by
  unfold write writeState
  simp only
  split
  · rfl
  · split
    · rfl
    · generalize writeImages data (if nImagesOffset c metadata < nImagesOffset c metadata + nImagesToCopy c metadata then
        (nImagesToCopy c metadata).toNat else 0) (nImagesOffset c metadata) w = images
      cases images with
      | error e => rfl
      | ok w₁ =>
        show w₁.copyMetadata metadata (nImagesOffset c metadata) (nImagesToCopy c metadata) = _
        simp only
        cases w₁.copyMetadata metadata (nImagesOffset c metadata) (nImagesToCopy c metadata) with
        | error e => rfl
        | ok w₂ => rfl

end JFH5Writer

/-! ## The steps of a write -/

theorem writeImages_ok (data : BlockData c.nModules) : ∀ (n : Nat) (i : UInt64) (w : JFH5Writer H c),
    i.toNat + n ≤ bufferBlockSize → ∃ w', writeImages data n i w = .ok w' ∧ SameMetadata w w'
  | 0, _, w, _ => ⟨w, rfl, rfl, rfl, rfl, rfl, rfl⟩
  | n + 1, i, w, hi => by
    simp only [bufferBlockSize] at hi
    have hnext : (i + 1).toNat = i.toNat + 1 := by
      rw [UInt64.toNat_add]
      exact Nat.mod_eq_of_lt (by simp only [UInt64.reduceToNat]; omega)
    have ih := fun w' : JFH5Writer H c => writeImages_ok data n (i + 1) w' (by simp only [bufferBlockSize]; omega)
    by_cases hmod : i % c.pulseIdStep = 0
    · obtain ⟨w', hw', hsame⟩ := ih (w.appendImage (blockImage data i.toNat))
      rw [writeImages_append _ _ _ hmod (by simp only [bufferBlockSize]; omega)]
      exact ⟨w', hw', (setImages_sameMetadata ..).trans hsame⟩
    · rw [writeImages_skip _ _ _ hmod]
      exact ih w

theorem writeImages_same (data : BlockData c.nModules) : ∀ (n : Nat) (i : UInt64) (w : JFH5Writer H c),
    match writeImages data n i w with
    | .error e => e = .outOfBounds
    | .ok w' => SameMetadata w w'
  | 0, _, _ => ⟨rfl, rfl, rfl, rfl, rfl⟩
  | n + 1, i, w => by
    rw [writeImages_succ]
    by_cases hmod : i % c.pulseIdStep = 0
    · rw [if_neg (not_not.2 hmod)]
      cases data.pixels.load (i * UInt64.ofNat moduleNBytes * c.nModules).toNat (imageNBytes c.nModules).toNat with
      | none => rfl
      | some image =>
        have ih := writeImages_same data n (i + 1) (w.appendImage image)
        simp only
        cases h : writeImages data n (i + 1) (w.appendImage image) with
        | error e =>
          rw [h] at ih
          exact ih
        | ok w' =>
          rw [h] at ih
          exact (setImages_sameMetadata ..).trans ih
    · rw [if_pos hmod]
      exact writeImages_same data n (i + 1) w

theorem copyEntries_cases {α : Type} {size : Nat} (array : Region α size) (index : UInt64)
    (entries : Fin bufferBlockSize → α) (offset n : UInt64) :
    match copyEntries array index entries offset n with
    | .error e => e = .outOfBounds
    | .ok _ => offset.toNat + n.toNat ≤ bufferBlockSize ∧ index.toNat + n.toNat ≤ size := by
  unfold copyEntries
  by_cases h : offset.toNat + n.toNat ≤ bufferBlockSize
  · rw [dif_pos h]
    unfold Region.store
    by_cases hsize : index.toNat + n.toNat ≤ size
    · rw [if_pos hsize]
      exact ⟨h, hsize⟩
    · rw [if_neg hsize]
  · rw [dif_neg h]

/-- `n` entries of the metadata of a block, from `first` on, were copied. -/
structure Copied (w w' : JFH5Writer H c) (metadata : ImageMetadataBlock) (first n : Nat) : Prop where
  index : w'.metaWriteIndex.toNat = w.metaWriteIndex.toNat + n
  pulseId : EntriesCopied w.bPulseId w'.bPulseId w.metaWriteIndex.toNat metadata.pulseId first n
  frameIndex : EntriesCopied w.bFrameIndex w'.bFrameIndex w.metaWriteIndex.toNat metadata.frameIndex first n
  daqRec : EntriesCopied w.bDaqRec w'.bDaqRec w.metaWriteIndex.toNat metadata.daqRec first n
  isGoodFrame : EntriesCopied w.bIsGoodFrame w'.bIsGoodFrame w.metaWriteIndex.toNat metadata.isGoodImage first n

theorem Copied.same {w w₁ w' : JFH5Writer H c} {metadata : ImageMetadataBlock} {first n : Nat}
    (h : Copied w₁ w' metadata first n) (hs : SameMetadata w w₁) : Copied w w' metadata first n := by
  obtain ⟨hindex, hpulseId, hframeIndex, hdaqRec, hisGoodFrame⟩ := h
  rw [hs.index] at hindex hpulseId hframeIndex hdaqRec hisGoodFrame
  rw [hs.pulseId] at hpulseId
  rw [hs.frameIndex] at hframeIndex
  rw [hs.daqRec] at hdaqRec
  rw [hs.isGoodFrame] at hisGoodFrame
  exact ⟨hindex, hpulseId, hframeIndex, hdaqRec, hisGoodFrame⟩

theorem copyMetadata_ok (w : JFH5Writer H c) (metadata : ImageMetadataBlock) {offset n : UInt64}
    (h : offset.toNat + n.toNat ≤ bufferBlockSize) (hsize : w.metaWriteIndex.toNat + n.toNat ≤ c.nTotalPulses.toNat) :
    ∃ w', w.copyMetadata metadata offset n = .ok w' ∧ Copied w w' metadata offset.toNat n.toNat := by
  obtain ⟨pulseId, h1, hpulseId⟩ := copyEntries_ok w.bPulseId metadata.pulseId h hsize
  obtain ⟨frameIndex, h2, hframeIndex⟩ := copyEntries_ok w.bFrameIndex metadata.frameIndex h hsize
  obtain ⟨daqRec, h3, hdaqRec⟩ := copyEntries_ok w.bDaqRec metadata.daqRec h hsize
  obtain ⟨isGoodFrame, h4, hisGoodFrame⟩ := copyEntries_ok w.bIsGoodFrame metadata.isGoodImage h hsize
  have hindex : (w.metaWriteIndex + n).toNat = w.metaWriteIndex.toNat + n.toNat := by
    rw [UInt64.toNat_add]
    exact Nat.mod_eq_of_lt (hsize.trans_lt c.nTotalPulses.toNat_lt)
  unfold copyMetadata
  rw [h1, h2, h3, h4]
  exact ⟨_, rfl, hindex, hpulseId, hframeIndex, hdaqRec, hisGoodFrame⟩

/-- Copies that fail leave the arrays. -/
theorem copyMetadata_cases (w : JFH5Writer H c) (metadata : ImageMetadataBlock) (offset n : UInt64) :
    match w.copyMetadata metadata offset n with
    | .error e => e = .outOfBounds
    | .ok _ => offset.toNat + n.toNat ≤ bufferBlockSize ∧
        w.metaWriteIndex.toNat + n.toNat ≤ c.nTotalPulses.toNat := by
  by_cases hfits : offset.toNat + n.toNat ≤ bufferBlockSize ∧ w.metaWriteIndex.toNat + n.toNat ≤ c.nTotalPulses.toNat
  · obtain ⟨w', hw', -⟩ := copyMetadata_ok w metadata hfits.1 hfits.2
    rw [hw']
    exact hfits
  · have h := copyEntries_cases w.bPulseId w.metaWriteIndex metadata.pulseId offset n
    unfold copyMetadata
    cases hcopy : copyEntries w.bPulseId w.metaWriteIndex metadata.pulseId offset n with
    | error e =>
      rw [hcopy] at h
      exact h
    | ok array =>
      rw [hcopy] at h
      exact absurd h hfits

/-- What the exits of `write` say: a check that throws sees one of the two numbers, and a return means
that the entries fit into the block and the arrays. -/
theorem writeState_cases (w : JFH5Writer H c) (metadata : ImageMetadataBlock) (data : BlockData c.nModules) :
    match w.writeState metadata data with
    | (.error (.threw _), _) => bufferBlockSize < (nImagesOffset c metadata).toNat ∨ (nImagesToCopy c metadata).toNat = 0
    | (.error _, _) => True
    | (.ok (), _) => w.metaWriteIndex.toNat + (nImagesToCopy c metadata).toNat ≤ c.nTotalPulses.toNat := by
  unfold writeState
  simp only
  by_cases hoff : nImagesOffset c metadata > UInt64.ofNat bufferBlockSize
  · rw [if_pos hoff]
    exact .inl (UInt64.lt_iff_toNat_lt.1 hoff)
  rw [if_neg hoff]
  by_cases hn : nImagesToCopy c metadata < 1
  · rw [if_pos hn]
    refine .inr ?_
    have hlt := UInt64.lt_iff_toNat_lt.1 hn
    exact Nat.lt_one_iff.1 hlt
  rw [if_neg hn]
  have hsame := writeImages_same data (if nImagesOffset c metadata < nImagesOffset c metadata + nImagesToCopy c metadata then
    (nImagesToCopy c metadata).toNat else 0) (nImagesOffset c metadata) w
  generalize writeImages data (if nImagesOffset c metadata < nImagesOffset c metadata + nImagesToCopy c metadata then
    (nImagesToCopy c metadata).toNat else 0) (nImagesOffset c metadata) w = images at hsame ⊢
  cases images with
  | error e =>
    obtain rfl : e = .outOfBounds := hsame
    trivial
  | ok w₁ =>
    have hcases := copyMetadata_cases w₁ metadata (nImagesOffset c metadata) (nImagesToCopy c metadata)
    simp only
    generalize w₁.copyMetadata metadata (nImagesOffset c metadata) (nImagesToCopy c metadata) = copies at hcases ⊢
    cases copies with
    | error e =>
      obtain rfl : e = .outOfBounds := hcases
      trivial
    | ok w₂ =>
      have hindex : w₁.metaWriteIndex = w.metaWriteIndex := SameMetadata.index hsame
      rw [← hindex]
      exact hcases.2

/-! ## The overlap -/

/-- The pulses that a block has in the range. -/
def common (c : WriterConfig) (metadata : ImageMetadataBlock) : Finset Nat :=
  Finset.Icc c.startPulseId.toNat c.stopPulseId.toNat ∩
    Finset.Icc metadata.blockStartPulseId.toNat metadata.blockStopPulseId.toNat

theorem common_eq (c : WriterConfig) (metadata : ImageMetadataBlock) : common c metadata =
    Finset.Icc (max c.startPulseId.toNat metadata.blockStartPulseId.toNat)
      (min c.stopPulseId.toNat metadata.blockStopPulseId.toNat) := by
  ext p
  unfold common
  simp only [Finset.mem_inter, Finset.mem_Icc]
  omega

theorem le_of_new {nModules startPulseId stopPulseId pulseIdStep : UInt64} {c : WriterConfig}
    (hnew : WriterConfig.new nModules startPulseId stopPulseId pulseIdStep = .ok c) :
    c.startPulseId.toNat ≤ c.stopPulseId.toNat := by
  unfold WriterConfig.new getNPulsesInRange at hnew
  by_cases hlt : stopPulseId < startPulseId
  · simp only [hlt, if_true] at hnew
    cases hnew
  · rw [UInt64.lt_iff_toNat_lt] at hlt
    simp only [bind, Except.bind] at hnew
    split at hnew
    · cases hnew
    · cases hnew
      exact Nat.le_of_not_lt hlt

section

variable {metadata : ImageMetadataBlock} (hle : c.startPulseId.toNat ≤ c.stopPulseId.toNat)
  (hblock : metadata.blockStopPulseId.toNat = metadata.blockStartPulseId.toNat + (bufferBlockSize - 1))

include hle hblock

/-- Where a block overlaps the range no subtraction wraps. -/
theorem overlap (hne : (common c metadata).Nonempty) :
    (nImagesOffset c metadata).toNat + (nImagesToCopy c metadata).toNat ≤ bufferBlockSize ∧
      0 < (nImagesToCopy c metadata).toNat ∧ (nImagesToCopy c metadata).toNat = (common c metadata).card ∧
      IsLeast (common c metadata : Set Nat) (metadata.blockStartPulseId.toNat + (nImagesOffset c metadata).toNat) := by
  have hoff := nImagesOffset_toNat c metadata
  have hn := nImagesToCopy_toNat c metadata
  rw [common_eq] at hne ⊢
  rw [Finset.nonempty_Icc] at hne
  rw [Nat.card_Icc]
  simp only [bufferBlockSize] at *
  have hcopy := hn (by omega)
  refine ⟨by omega, by omega, by omega, ?_⟩
  rw [Finset.coe_Icc]
  have hfirst : metadata.blockStartPulseId.toNat + (nImagesOffset c metadata).toNat =
      max c.startPulseId.toNat metadata.blockStartPulseId.toNat := by omega
  rw [hfirst]
  exact isLeast_Icc hne

/-- A block in front of the range, or right behind it, is rejected by one of the checks. -/
theorem rejected (hempty : common c metadata = ∅) (h : metadata.blockStartPulseId.toNat ≤ c.stopPulseId.toNat + 1) :
    bufferBlockSize < (nImagesOffset c metadata).toNat ∨ (nImagesToCopy c metadata).toNat = 0 := by
  have hoff := nImagesOffset_toNat c metadata
  have hn := nImagesToCopy_toNat c metadata
  rw [common_eq, Finset.Icc_eq_empty_iff] at hempty
  simp only [bufferBlockSize] at *
  by_cases hfar : 100 < (nImagesOffset c metadata).toNat
  · exact .inl hfar
  · have hcopy := hn (by omega)
    exact .inr (by omega)

/-- Further behind the range the length of the overlap wraps. -/
theorem behind (h : c.stopPulseId.toNat + 1 < metadata.blockStartPulseId.toNat) :
    common c metadata = ∅ ∧ (nImagesOffset c metadata).toNat = 0 ∧ (nImagesToCopy c metadata).toNat ≠ 0 := by
  have hoff := nImagesOffset_toNat c metadata
  have hn := nImagesToCopy_toNat c metadata
  have hstop := metadata.blockStopPulseId.toNat_lt
  rw [common_eq, Finset.Icc_eq_empty_iff]
  simp only [bufferBlockSize] at *
  have hcopy := hn (by omega)
  refine ⟨by omega, by omega, by omega⟩

end

/-! ## The accepted blocks -/

/-- A block outside the range is rejected, of another one the pulses in the range are copied. -/
structure AcceptsOverlap (w : JFH5Writer H c) (metadata : ImageMetadataBlock) (data : BlockData c.nModules) : Prop where
  rejects : common c metadata = ∅ → ∃ what, w.writeState metadata data = (.error (.threw what), w)
  copies : (common c metadata).Nonempty → ∃ w' first, w.writeState metadata data = (.ok (), w') ∧
    IsLeast (common c metadata : Set Nat) (metadata.blockStartPulseId.toNat + first) ∧
    Copied w w' metadata first (common c metadata).card

theorem writeState_rejected (w : JFH5Writer H c) {metadata : ImageMetadataBlock} (data : BlockData c.nModules)
    (h : bufferBlockSize < (nImagesOffset c metadata).toNat ∨ (nImagesToCopy c metadata).toNat = 0) :
    ∃ what, w.writeState metadata data = (.error (.threw what), w) := by
  unfold writeState
  simp only
  by_cases hoff : nImagesOffset c metadata > UInt64.ofNat bufferBlockSize
  · rw [if_pos hoff]
    exact ⟨_, rfl⟩
  · rw [if_neg hoff]
    rcases h with h | h
    · have hgt : UInt64.ofNat bufferBlockSize < nImagesOffset c metadata := UInt64.lt_iff_toNat_lt.2 h
      exact absurd hgt hoff
    · have hn : nImagesToCopy c metadata < 1 := UInt64.lt_iff_toNat_lt.2 (by rw [h]; decide)
      rw [if_pos hn]
      exact ⟨_, rfl⟩

theorem writeState_copied (w : JFH5Writer H c) {metadata : ImageMetadataBlock} (data : BlockData c.nModules)
    (hfits : (nImagesOffset c metadata).toNat + (nImagesToCopy c metadata).toNat ≤ bufferBlockSize)
    (hpos : 0 < (nImagesToCopy c metadata).toNat)
    (hroom : w.metaWriteIndex.toNat + (nImagesToCopy c metadata).toNat ≤ c.nTotalPulses.toNat) :
    ∃ w', w.writeState metadata data = (.ok (), w') ∧
      Copied w w' metadata (nImagesOffset c metadata).toNat (nImagesToCopy c metadata).toNat := by
  obtain ⟨w₁, himages, hsame⟩ := writeImages_ok data (nImagesToCopy c metadata).toNat (nImagesOffset c metadata) w hfits
  obtain ⟨w', hcopies, hcopied⟩ := copyMetadata_ok w₁ metadata hfits (hsame.index ▸ hroom)
  have hoff : ¬ nImagesOffset c metadata > UInt64.ofNat bufferBlockSize := by
    rw [gt_iff_lt, UInt64.lt_iff_toNat_lt]
    exact Nat.not_lt.2 ((Nat.le_add_right ..).trans hfits)
  have hn : ¬ nImagesToCopy c metadata < 1 := by
    rw [UInt64.lt_iff_toNat_lt]
    exact Nat.not_lt.2 hpos
  have hrounds : nImagesOffset c metadata < nImagesOffset c metadata + nImagesToCopy c metadata := by
    simp only [bufferBlockSize] at hfits
    rw [UInt64.lt_iff_toNat_lt, UInt64.toNat_add, Nat.mod_eq_of_lt (by omega)]
    omega
  unfold writeState
  simp only
  rw [if_neg hoff, if_neg hn, if_pos hrounds, himages]
  simp only [hcopies]
  exact ⟨w', rfl, hcopied.same hsame⟩

/-- No check throws for a block further behind the range. -/
theorem not_rejected (w : JFH5Writer H c) {metadata : ImageMetadataBlock} (data : BlockData c.nModules)
    (hle : c.startPulseId.toNat ≤ c.stopPulseId.toNat)
    (hblock : metadata.blockStopPulseId.toNat = metadata.blockStartPulseId.toNat + (bufferBlockSize - 1))
    (h : c.stopPulseId.toNat + 1 < metadata.blockStartPulseId.toNat) (what : String) :
    w.writeState metadata data ≠ (.error (.threw what), w) := by
  obtain ⟨-, hoff, hn⟩ := behind hle hblock h
  have hcases := writeState_cases w metadata data
  intro hthrew
  rw [hthrew] at hcases
  rcases hcases with h | h
  · rw [hoff] at h
    exact Nat.not_lt_zero _ h
  · exact hn h

/-- `write` accepts exactly the overlapping blocks, unless the block starts more than one pulse behind the
range, or the arrays have no room for its entries. -/
theorem write_accepts_iff (H : Hdf5) {nModules startPulseId stopPulseId pulseIdStep : UInt64} {c : WriterConfig}
    (hnew : WriterConfig.new nModules startPulseId stopPulseId pulseIdStep = .ok c) (w : JFH5Writer H c)
    (metadata : ImageMetadataBlock) (data : BlockData c.nModules)
    (hblock : metadata.blockStopPulseId.toNat = metadata.blockStartPulseId.toNat + (bufferBlockSize - 1)) :
    AcceptsOverlap w metadata data ↔ metadata.blockStartPulseId.toNat ≤ c.stopPulseId.toNat + 1 ∧
      ((common c metadata).Nonempty →
        w.metaWriteIndex.toNat + (common c metadata).card ≤ c.nTotalPulses.toNat) := by
  have hle := le_of_new hnew
  constructor
  · rintro ⟨hrejects, hcopies⟩
    constructor
    · by_contra hfar
      have hbehind := Nat.lt_of_not_le hfar
      obtain ⟨what, hthrew⟩ := hrejects (behind hle hblock hbehind).1
      exact not_rejected w data hle hblock hbehind what hthrew
    · intro hne
      obtain ⟨w', first, hok, -⟩ := hcopies hne
      have hcases := writeState_cases w metadata data
      rw [hok] at hcases
      rw [← (overlap hle hblock hne).2.2.1]
      exact hcases
  · rintro ⟨hnear, hroom⟩
    constructor
    · intro hempty
      exact writeState_rejected w data (rejected hle hblock hempty hnear)
    · intro hne
      obtain ⟨hfits, hpos, hcard, hleast⟩ := overlap hle hblock hne
      obtain ⟨w', hok, hcopied⟩ := writeState_copied w data hfits hpos (hcard ▸ hroom hne)
      exact ⟨w', _, hok, hleast, hcard ▸ hcopied⟩

/-- The writer of one module for the pulses 98 to 102, with a step of 2. -/
def oneModule : WriterConfig := ⟨1, 98, 102, 2, 3, 5⟩

/-- Its state after the constructor. -/
def oneModuleWriter : JFH5Writer Hdf5.rows oneModule := .new ⟨fun _ => 0⟩ ⟨fun _ => 0⟩ ⟨fun _ => 0⟩ ⟨fun _ => 0⟩

/-- The first block of the range, with the pulses 98 and 99. -/
theorem write_accepts_iff_first : common oneModule (numberedBlocks 0).1 = {98, 99} ∧
    AcceptsOverlap oneModuleWriter (numberedBlocks 0).1 (numberedBlocks 0).2 := by
  have hcommon : common oneModule (numberedBlocks 0).1 = {98, 99} := by decide
  have hnew : WriterConfig.new 1 98 102 2 = .ok oneModule := rfl
  refine ⟨hcommon, (write_accepts_iff Hdf5.rows hnew oneModuleWriter (numberedBlocks 0).1 (numberedBlocks 0).2 rfl).2
    ⟨by decide, fun _ => ?_⟩⟩
  rw [hcommon]
  decide

/-- A block of the pulses 200 to 299 is not rejected, and asks for `2^64 - 97` entries. -/
theorem write_accepts_far_block : WriterConfig.new 1 98 102 2 = .ok oneModule ∧
    common oneModule (numberedBlocks 2).1 = ∅ ∧ (nImagesToCopy oneModule (numberedBlocks 2).1).toNat = 2 ^ 64 - 97 ∧
    ¬ AcceptsOverlap oneModuleWriter (numberedBlocks 2).1 (numberedBlocks 2).2 := by
  have hcommon : common oneModule (numberedBlocks 2).1 = ∅ := by decide
  refine ⟨rfl, hcommon, by decide, ?_⟩
  rintro ⟨hrejects, -⟩
  obtain ⟨what, hthrew⟩ := hrejects hcommon
  exact not_rejected oneModuleWriter (numberedBlocks 2).2 (by decide) rfl (by decide) what hthrew

end SfDaqBuffer.SfWriter
