/-
Which images are good, in the words of the three programs that decide it: jf_assembler on the RAM
buffer, sf_writer on the blocks read from disk, and the Python reader that verifies its files. Each
loop is a pass for agreement; sf_writer does not compare daq_rec.
-/
import SfDaqBuffer.CoreBuffer.Assemble
import SfDaqBuffer.Lib.Agreement
import SfDaqBuffer.SfUtils.BinaryBufferReader
import SfDaqBuffer.SfWriter.ImageAssembler

namespace SfDaqBuffer.SfUtils

open Agreement CoreBuffer SfWriter Posix

/-! ## sf_writer -/

/-- What the loop of `get_metadata_buffer` compares. -/
def pulseAndFrame (f : ModuleFrame) : UInt64 × UInt64 := (f.pulseId, f.frameIndex)

/-- The variables of the loop of `get_metadata_buffer` are those of a pass for agreement. -/
structure MergesTo (s : Bool × ImageAssembler.PulseMeta) (t : Progress (UInt64 × UInt64)) : Prop where
  good : s.2.isGoodImage = if t.agree then 1 else 0
  reference : t.reference = if s.1 then some (s.2.pulseId, s.2.frameIndex) else none

theorem mergeModule_visit {s : Bool × ImageAssembler.PulseMeta} {t : Progress (UInt64 × UInt64)}
    (h : MergesTo s t) (f : ModuleFrame) :
    MergesTo (ImageAssembler.mergeModule s f) (visit CompleteFrame pulseAndFrame t f) := by
  obtain ⟨init, image⟩ := s
  obtain ⟨reference, agree⟩ := t
  obtain ⟨hgood, href⟩ := h
  simp only at hgood href
  subst href
  unfold ImageAssembler.mergeModule
  by_cases hf : f.nRecvPackets.toNat = jfNPacketsPerFrame
  · rw [visit_complete (show CompleteFrame f from hf)]
    simp only [hf, ne_eq, not_true_eq_false, if_false, or_false]
    cases init with
    | false =>
      -- the frame becomes the reference, with which it agrees
      constructor <;> simp [hgood, pulseAndFrame]
    | true =>
      by_cases hp : f.pulseId = image.pulseId <;> by_cases hi : f.frameIndex = image.frameIndex <;>
        cases agree <;> constructor <;> simp [hgood, hp, hi, pulseAndFrame]
  · rw [visit_incomplete (show ¬ CompleteFrame f from hf)]
    simp only [hf, ne_eq, not_false_eq_true, if_true]
    exact ⟨rfl, rfl⟩

theorem mergePulse_good (ia : ImageAssembler) (slotId : Nat) (i : Fin bufferBlockSize) :
    (ia.mergePulse slotId i).isGoodImage = 1 ↔
      Agreeing CompleteFrame pulseAndFrame ((List.range ia.nModules).map fun m => ia.cellMeta slotId m i) := by
  rw [← foldl_agree, List.foldl_map]
  have h := List.foldl_rel (l := List.range ia.nModules)
    (f := fun state m => ImageAssembler.mergeModule state (ia.cellMeta slotId m i))
    (g := fun t m => visit CompleteFrame pulseAndFrame t (ia.cellMeta slotId m i)) (r := MergesTo)
    (a := (false, ⟨0, (ia.metaBuffer slotId).frameIndex i, (ia.metaBuffer slotId).daqRec i, 1⟩)) (b := .start)
    ⟨rfl, rfl⟩ fun m _ _ _ h => mergeModule_visit h _
  have hgood : (ia.mergePulse slotId i).isGoodImage = _ := h.good
  rw [hgood]
  split <;> simp_all

/-! ## BinaryBufferReader -/

/-- A record of the buffer with all its packets. -/
def MarkedComplete (r : BufferBinaryFormat) : Prop :=
  r.formatMarker = formatMarkerValue ∧ CompleteFrame r.metadata

instance (r : BufferBinaryFormat) : Decidable (MarkedComplete r) := inferInstanceAs (Decidable (_ ∧ _))

/-- What the module loop of `read_pulse_id` compares. -/
def pulseFrameDaq (r : BufferBinaryFormat) : UInt64 × UInt64 × UInt64 :=
  (r.metadata.pulseId, r.metadata.frameIndex, r.metadata.daqRec)

/-- The variables of the module loop are those of a pass for agreement. -/
structure ReadsTo (s : ReadState) (t : Progress (UInt64 × UInt64 × UInt64)) : Prop where
  good : s.metadata.isGoodFrame = t.agree
  init : s.metadataInit = t.reference.isSome
  reference : ∀ k, t.reference = some k →
    s.metadata.pulseId = k.1.toNat ∧ s.metadata.frameIndex = k.2.1.toNat ∧ s.metadata.daqRec = k.2.2.toNat

theorem readModule_visit {s : ReadState} {t : Progress (UInt64 × UInt64 × UInt64)} (h : ReadsTo s t) (m : Nat)
    (r : BufferBinaryFormat) : ReadsTo (readModule s m r) (visit MarkedComplete pulseFrameDaq t r) := by
  obtain ⟨⟨pulseId, frameIndex, daqRec, good⟩, init, data⟩ := s
  obtain ⟨reference, agree⟩ := t
  obtain ⟨hgood, hinit, href⟩ := h
  simp only at hgood hinit href
  subst hgood hinit
  unfold readModule
  by_cases hmarker : r.formatMarker = formatMarkerValue
  · by_cases hpackets : r.metadata.nRecvPackets.toNat = jfNPacketsPerFrame
    · rw [visit_complete (show MarkedComplete r from ⟨hmarker, hpackets⟩)]
      simp only [hmarker, hpackets, ne_eq, not_true_eq_false, if_false]
      cases reference with
      | none =>
        constructor <;> simp [pulseFrameDaq]
      | some k =>
        obtain ⟨rfl, rfl, rfl⟩ := href k rfl
        simp only [Option.isSome_some, if_true, Option.getD_some, UInt64.toNat_inj]
        have hkey : pulseFrameDaq r = k ↔ r.metadata.pulseId = k.1 ∧ r.metadata.frameIndex = k.2.1 ∧
            r.metadata.daqRec = k.2.2 := by
          rw [Prod.ext_iff, Prod.ext_iff]
          exact Iff.rfl
        by_cases hk : pulseFrameDaq r = k
        · obtain ⟨h1, h2, h3⟩ := hkey.1 hk
          simp only [h1, h2, h3, not_true_eq_false, or_self, and_false, if_false, hk, beq_self_eq_true,
            Bool.and_true]
          exact ⟨rfl, rfl, fun k' hk' => by cases hk'; exact ⟨rfl, rfl, rfl⟩⟩
        · have hne := mt hkey.2 hk
          rw [not_and_or, not_and_or] at hne
          simp only [hne, and_true]
          constructor
          · cases good <;> simp [hk]
          · rfl
          · rintro k' hk'
            cases hk'
            cases good <;> exact ⟨rfl, rfl, rfl⟩
    · rw [visit_incomplete fun h => hpackets h.2]
      simp only [hmarker, hpackets, ne_eq, not_true_eq_false, not_false_eq_true, if_false, if_true]
      exact ⟨rfl, rfl, href⟩
  · rw [visit_incomplete fun h => hmarker h.1]
    simp only [hmarker, ne_eq, not_false_eq_true, if_true]
    exact ⟨rfl, rfl, href⟩

/-- A pass that took no reference saw no complete record. -/
theorem readPulseId_good {r : BinaryBufferReader} {files : String → Option File} {pulseId : Nat}
    {record : Nat → BufferBinaryFormat} (hpos : 1 ≤ r.nModules)
    (h : ∀ m < r.nModules, r.readRecord files pulseId m = .ok (record m)) :
    ∃ metadata data, r.readPulseId files pulseId = .ok (metadata, data) ∧
      (metadata.isGoodFrame = true ↔
        Agreeing MarkedComplete pulseFrameDaq ((List.range r.nModules).map record)) := by
  rw [BinaryBufferReader.readPulseId_eq h]
  refine ⟨_, _, rfl, ?_⟩
  have hloop := List.foldl_rel (l := List.range r.nModules) (f := fun s m => readModule s m (record m))
    (g := fun t m => visit MarkedComplete pulseFrameDaq t (record m)) (r := ReadsTo)
    (a := .start) (b := .start) ⟨rfl, rfl, nofun⟩ fun m _ _ _ h => readModule_visit h m _
  rw [← List.foldl_map (f := record)] at hloop
  split
  · rw [hloop.good, foldl_agree]
  · rename_i hinit
    rw [hloop.init, foldl_reference_isSome] at hinit
    refine iff_of_false Bool.false_ne_true fun hall => hinit (.inr ?_)
    have hfirst : record 0 ∈ (List.range r.nModules).map record :=
      List.mem_map.2 ⟨0, List.mem_range.2 hpos, rfl⟩
    exact ⟨_, hfirst, (hall _ hfirst).1⟩

/-! ## The same records in three places -/

/-- What there is of a module for a pulse: nothing, or a record of that pulse. -/
inductive RecordOf (pulseId : UInt64) : BufferBinaryFormat → Prop
  | absent : RecordOf pulseId .zero
  | present {r : BufferBinaryFormat} (marker : r.formatMarker = formatMarkerValue)
      (pulse : r.metadata.pulseId = pulseId) (daqRec : r.metadata.daqRec.toNat < 2 ^ 32) : RecordOf pulseId r

/-- A complete record is not absent. -/
theorem RecordOf.of_complete {pulseId : UInt64} {r : BufferBinaryFormat} (h : RecordOf pulseId r)
    (hr : CompleteFrame r.metadata) :
    r.formatMarker = formatMarkerValue ∧ r.metadata.pulseId = pulseId ∧ r.metadata.daqRec.toNat < 2 ^ 32 := by
  cases h with
  | absent => cases hr
  | present marker pulse daqRec => exact ⟨marker, pulse, daqRec⟩

def bunchOf (pulseId : UInt64) : UInt64 := pulseId / UInt64.ofNat bufferBlockSize

def indexInBunch (pulseId : UInt64) : Fin bufferBlockSize := ⟨pulseId.toNat % bufferBlockSize, Nat.mod_lt _ (by decide)⟩

/-- sf_writer, the RAM buffer and the files of the Python reader hold the same records of a pulse. -/
structure Holds (pulseId : UInt64) (record : Nat → BufferBinaryFormat) (ia : ImageAssembler) {g : Geometry}
    (b : RamBuffer g) (r : BinaryBufferReader) (files : String → Option File) : Prop where
  recordOf : ∀ m < g.nModules, RecordOf pulseId (record m)
  offlineModules : ia.nModules = g.nModules
  offline : ∀ m < g.nModules,
    ia.cellMeta (ImageAssembler.slotId (bunchOf pulseId)) m (indexInBunch pulseId) = (record m).metadata
  live : ∀ m < g.nModules, b.cellMeta (g.slotN pulseId) m = (record m).metadata
  pythonModules : r.nModules = g.nModules
  python : ∀ m < g.nModules, r.readRecord files pulseId.toNat m = .ok (record m)

/-- The frames of all modules. -/
def metas (n : Nat) (record : Nat → BufferBinaryFormat) : List ModuleFrame :=
  (List.range n).map fun m => (record m).metadata

/-- All frames are complete and have one frame_index, but not one daq_rec. -/
def OnlyDaqRecDiffers (frames : List ModuleFrame) : Prop :=
  (∀ f ∈ frames, CompleteFrame f) ∧ (∀ f ∈ frames, ∀ f' ∈ frames, f'.frameIndex = f.frameIndex) ∧
    ∃ f ∈ frames, ∃ f' ∈ frames, f'.daqRec ≠ f.daqRec

namespace Holds

variable {pulseId : UInt64} {record : Nat → BufferBinaryFormat} {ia : ImageAssembler} {g : Geometry}
  {b : RamBuffer g} {r : BinaryBufferReader} {files : String → Option File}

theorem of_complete (h : Holds pulseId record ia b r files) {f : ModuleFrame} (hf : f ∈ metas g.nModules record)
    (hc : CompleteFrame f) : f.pulseId = pulseId ∧ f.daqRec.toNat < 2 ^ 32 := by
  obtain ⟨m, hm, rfl⟩ := List.mem_map.1 hf
  exact ((h.recordOf m (List.mem_range.1 hm)).of_complete hc).2

/-- sf_writer does not look at daq_rec. -/
theorem offline_good (h : Holds pulseId record ia b r files) :
    (ia.getMetadataBuffer (bunchOf pulseId)).1.isGoodImage (indexInBunch pulseId) = 1 ↔
      (∀ f ∈ metas g.nModules record, CompleteFrame f) ∧
        ∀ f ∈ metas g.nModules record, ∀ f' ∈ metas g.nModules record, f'.frameIndex = f.frameIndex := by
  have hcells : (List.range ia.nModules).map (fun m =>
      ia.cellMeta (ImageAssembler.slotId (bunchOf pulseId)) m (indexInBunch pulseId)) = metas g.nModules record := by
    rw [h.offlineModules]
    exact List.map_congr_left fun m hm => h.offline m (List.mem_range.1 hm)
  have hgood := mergePulse_good ia (ImageAssembler.slotId (bunchOf pulseId)) (indexInBunch pulseId)
  rw [hcells] at hgood
  refine hgood.trans ⟨fun hall => ⟨fun f hf => (hall f hf).1, fun f hf f' hf' => ?_⟩, ?_⟩
  · exact congrArg Prod.snd ((hall f hf).2 f' hf')
  · rintro ⟨hcomplete, hframe⟩ f hf
    refine ⟨hcomplete f hf, fun f' hf' => ?_⟩
    -- complete records are all of the pulse
    have hpulse := (h.of_complete hf (hcomplete f hf)).1
    have hpulse' := (h.of_complete hf' (hcomplete f' hf')).1
    exact Prod.ext (hpulse'.trans hpulse.symm) (hframe f hf f' hf')

theorem live_good (h : Holds pulseId record ia b r files) (image : ImageMetadata) :
    ∃ image', b.assembleImage pulseId image = some (.ok (), image') ∧
      (image'.isGoodImage = 1 ↔ GoodFrames (metas g.nModules record)) := by
  have hcells : slotFrames b pulseId = metas g.nModules record :=
    List.map_congr_left fun m hm => h.live m (List.mem_range.1 hm)
  rw [assembleImage_slot, hcells]
  obtain ⟨image', hslot, hgood⟩ := assembleSlot_good (metas g.nModules record) image
    (fun f hf hc => (h.of_complete hf hc).1) fun f hf hc => daqRec_narrowed (h.of_complete hf hc).2
  exact ⟨image', by rw [hslot], hgood⟩

theorem python_good (h : Holds pulseId record ia b r files) :
    ∃ metadata data, r.readPulseId files pulseId.toNat = .ok (metadata, data) ∧
      (metadata.isGoodFrame = true ↔ GoodFrames (metas g.nModules record)) := by
  have hpos : 1 ≤ r.nModules := by
    rw [h.pythonModules]
    exact g.nModules_pos
  have hrecords : ∀ m < r.nModules, r.readRecord files pulseId.toNat m = .ok (record m) := by
    rw [h.pythonModules]
    exact h.python
  obtain ⟨metadata, data, hread, hgood⟩ := readPulseId_good hpos hrecords
  refine ⟨metadata, data, hread, hgood.trans ?_⟩
  rw [h.pythonModules]
  constructor
  · intro hall f hf
    obtain ⟨m, hm, rfl⟩ := List.mem_map.1 hf
    obtain ⟨hc, hkey⟩ := hall _ (List.mem_map_of_mem hm)
    refine ⟨hc.2, fun f' hf' => ?_⟩
    obtain ⟨m', hm', rfl⟩ := List.mem_map.1 hf'
    have hk := congrArg Prod.snd (hkey _ (List.mem_map_of_mem hm'))
    exact ⟨congrArg Prod.fst hk, congrArg Prod.snd hk⟩
  · intro hall q hq
    obtain ⟨m, hm, rfl⟩ := List.mem_map.1 hq
    obtain ⟨hc, hsame⟩ := hall _ (List.mem_map_of_mem (f := fun m => (record m).metadata) hm)
    have hm' := List.mem_range.1 hm
    obtain ⟨hmarker, hpulse, -⟩ := (h.recordOf m hm').of_complete hc
    refine ⟨⟨hmarker, hc⟩, fun q' hq' => ?_⟩
    obtain ⟨k, hk, rfl⟩ := List.mem_map.1 hq'
    have hmem := List.mem_map_of_mem (f := fun m => (record m).metadata) hk
    obtain ⟨hframe, hdaq⟩ := hsame _ hmem
    have hpulse' := (h.of_complete hmem (hall _ hmem).1).1
    exact Prod.ext (hpulse'.trans hpulse.symm) (Prod.ext hframe hdaq)

end Holds

/-- sf_writer, jf_assembler and the Python reader agree on whether an image is good, unless all its
frames are complete and only their daq_rec differ. -/
theorem good_image_agreement {pulseId : UInt64} {record : Nat → BufferBinaryFormat} {ia : ImageAssembler}
    {g : Geometry} {b : RamBuffer g} {r : BinaryBufferReader} {files : String → Option File}
    (h : Holds pulseId record ia b r files) (image : ImageMetadata) :
    ∃ image' metadata data, b.assembleImage pulseId image = some (.ok (), image') ∧
      r.readPulseId files pulseId.toNat = .ok (metadata, data) ∧
      (((ia.getMetadataBuffer (bunchOf pulseId)).1.isGoodImage (indexInBunch pulseId) = 1 ↔ image'.isGoodImage = 1) ∧
        (image'.isGoodImage = 1 ↔ metadata.isGoodFrame = true) ↔
          ¬ OnlyDaqRecDiffers (metas g.nModules record)) := by
  obtain ⟨image', hassemble, hlive⟩ := h.live_good image
  obtain ⟨metadata, data, hread, hpython⟩ := h.python_good
  refine ⟨image', metadata, data, hassemble, hread, ?_⟩
  rw [h.offline_good, hlive, hpython]
  constructor
  · rintro ⟨hsame, -⟩ ⟨hcomplete, hframe, f, hf, f', hf', hne⟩
    exact hne ((hsame.1 ⟨hcomplete, hframe⟩ f hf).2 f' hf').2
  · intro hnot
    refine ⟨⟨?_, ?_⟩, Iff.rfl⟩
    · rintro ⟨hcomplete, hframe⟩ f hf
      refine ⟨hcomplete f hf, fun f' hf' => ⟨hframe f hf f' hf', ?_⟩⟩
      by_contra hne
      exact hnot ⟨hcomplete, hframe, f, hf, f', hf', hne⟩
    · intro hgood
      exact ⟨fun f hf => (hgood f hf).1, fun f hf f' hf' => ((hgood f hf).2 f' hf').1⟩

/-- Two modules and one slot. -/
def twoModules : Geometry := .checked 2 1 (@rfl Bool true)

/-- Complete records of pulse 5, with the module number as daq_rec unless it is the `same` for all. -/
def recordOfFive (same : Bool) (m : Nat) : BufferBinaryFormat :=
  ⟨formatMarkerValue, ⟨5, 1, if same then 7 else UInt64.ofNat m, 128, UInt64.ofNat m⟩, fun _ => 1⟩

/-- The buffer files that hold them. -/
def filesOfFive (same : Bool) (name : String) : Option File :=
  let file (m : Nat) := File.empty.write (5 * sizeofBufferBinaryFormat) (recordOfFive same m).toBytes
  some (if name = getFilename "" (deviceName 0) 5 then file 0 else file 1)

theorem getFilename_deviceName_ne : getFilename "" (deviceName 1) 5 ≠ getFilename "" (deviceName 0) 5 := by
  intro h
  unfold getFilename at h
  rw [← String.toList_inj] at h
  simp only [String.toList_append] at h
  simp only [List.append_cancel_right_eq, List.append_cancel_left_eq] at h
  revert h
  decide

def assemblerOfFive (same : Bool) : ImageAssembler :=
  ⟨2, fun _ => 0, fun _ => ⟨fun _ => 0, fun _ => 0, fun _ => 0, fun _ => 0, 0, 0⟩,
    fun k => (recordOfFive same (k % 2)).metadata, fun _ => 0, fun _ => 0⟩

theorem readRecord_write {files : String → Option File} {r : BinaryBufferReader} {pulseId m : Nat} {f : File}
    {record : BufferBinaryFormat} (h : files (getFilename r.rootFolder (deviceName m) pulseId) =
      some (f.write (getFileFrameIndex pulseId * sizeofBufferBinaryFormat) record.toBytes)) :
    r.readRecord files pulseId m = .ok record := by
  unfold BinaryBufferReader.readRecord readFrameBuffer
  rw [h]
  generalize getFileFrameIndex pulseId * sizeofBufferBinaryFormat = offset
  simp only [File.byte_write, Memory.read_write_same, BufferBinaryFormat.ofBytes_toBytes]
  rw [File.size_write _ _ _ (by decide), if_neg (by omega)]

def framesOfFive (same : Bool) : List (ModuleFrame × ModuleData) :=
  [((recordOfFive same 0).metadata, (recordOfFive same 0).data),
    ((recordOfFive same 1).metadata, (recordOfFive same 1).data)]

theorem holds_ofFive (same : Bool) : ∃ b,
    writeFrames (RamBuffer.new twoModules) (framesOfFive same) = some b ∧
      Holds 5 (recordOfFive same) (assemblerOfFive same) b ⟨"", 2⟩ (filesOfFive same) := by
  obtain ⟨b, hb, href⟩ := writeFrames_refines (framesOfFive same) (RamBuffer.new twoModules) Cells.zero
    (by cases same <;> decide) refines_new
  have hmodules : ∀ m < twoModules.nModules, m = 0 ∨ m = 1 := by decide
  refine ⟨b, hb, ⟨?_, rfl, ?_, ?_, rfl, ?_⟩⟩
  · intro m hm
    rcases hmodules m hm with rfl | rfl <;> cases same <;> exact .present rfl rfl (by decide)
  · intro m hm
    rcases hmodules m hm with rfl | rfl <;> cases same <;> rfl
  · intro m hm
    rw [href.frameMeta _ (by decide) m hm]
    rcases hmodules m hm with rfl | rfl <;> cases same <;> rfl
  · intro m hm
    apply readRecord_write
    rcases hmodules m hm with rfl | rfl
    · exact congrArg some (if_pos rfl)
    · exact congrArg some (if_neg getFilename_deviceName_ne)

/-- With one daq_rec the three call the image good. -/
theorem good_image_agreement_ofFive : ∃ b image' metadata data,
    writeFrames (RamBuffer.new twoModules) (framesOfFive true) = some b ∧
      b.assembleImage 5 ⟨0, 0, 0, 0⟩ = some (.ok (), image') ∧
      (⟨"", 2⟩ : BinaryBufferReader).readPulseId (filesOfFive true) 5 = .ok (metadata, data) ∧
      ((assemblerOfFive true).getMetadataBuffer (bunchOf 5)).1.isGoodImage (indexInBunch 5) = 1 ∧
      image'.isGoodImage = 1 ∧ metadata.isGoodFrame = true := by
  obtain ⟨b, hb, h⟩ := holds_ofFive true
  obtain ⟨image', metadata, data, hassemble, hread, hagree⟩ := good_image_agreement h ⟨0, 0, 0, 0⟩
  have hsame : ¬ OnlyDaqRecDiffers (metas 2 (recordOfFive true)) := by
    rintro ⟨-, -, f, hf, f', hf', hne⟩
    obtain ⟨m, -, rfl⟩ := List.mem_map.1 hf
    obtain ⟨m', -, rfl⟩ := List.mem_map.1 hf'
    exact hne rfl
  obtain ⟨hoffline, hpython⟩ := hagree.2 hsame
  have hgood := hoffline.1 rfl
  exact ⟨b, image', metadata, data, hb, hassemble, hread, rfl, hgood, hpython.1 hgood⟩

/-- Two complete frames with daq_rec 0 and 1: only sf_writer calls the image good. -/
theorem sf_writer_ignores_daqRec : ∃ b image' metadata data,
    writeFrames (RamBuffer.new twoModules) (framesOfFive false) = some b ∧
      Holds 5 (recordOfFive false) (assemblerOfFive false) b ⟨"", 2⟩ (filesOfFive false) ∧
      b.assembleImage 5 ⟨0, 0, 0, 0⟩ = some (.ok (), image') ∧
      (⟨"", 2⟩ : BinaryBufferReader).readPulseId (filesOfFive false) 5 = .ok (metadata, data) ∧
      ((assemblerOfFive false).getMetadataBuffer (bunchOf 5)).1.isGoodImage (indexInBunch 5) = 1 ∧
      image'.isGoodImage ≠ 1 ∧ metadata.isGoodFrame = false := by
  obtain ⟨b, hb, h⟩ := holds_ofFive false
  obtain ⟨image', hassemble, hlive⟩ := h.live_good ⟨0, 0, 0, 0⟩
  obtain ⟨metadata, data, hread, hpython⟩ := h.python_good
  have hbad : ¬ GoodFrames (metas twoModules.nModules (recordOfFive false)) := by
    intro hgood
    have hdaq := (hgood (recordOfFive false 0).metadata (.head _)).2 (recordOfFive false 1).metadata
      (.tail _ (.head _))
    exact absurd hdaq.2 (by decide)
  refine ⟨b, image', metadata, data, hb, h, hassemble, hread, ?_, mt hlive.1 hbad, ?_⟩
  · rfl
  · exact Bool.eq_false_iff.2 (mt hpython.1 hbad)

end SfDaqBuffer.SfUtils
