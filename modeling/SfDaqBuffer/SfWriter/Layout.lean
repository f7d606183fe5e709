/-
The layout of an assembled block. Each call of `process` writes its module's frames with a stride
of all modules, in the image buffer and in the frame metadata; the calls of all modules fill every
cell of the slot, whatever their order, and nothing else.
-/
import SfDaqBuffer.SfWriter.BlockHistory

namespace SfDaqBuffer.SfWriter.ImageAssembler

/-- Each module of `order` processes its block. -/
def processAll (ia : ImageAssembler) (bunchId : UInt64) (block : Nat → BufferBinaryBlock) (order : List Nat) :
    ImageAssembler :=
  order.foldl (fun ia m => ia.process bunchId m (block m)) ia

/-- Entry `k` of the frame metadata of a block's slot. -/
def slotFrameMeta (ia : ImageAssembler) (bunchId : UInt64) (k : Nat) : ModuleFrame :=
  ia.frameMetaBuffer (ia.getMetadataOffset (slotId bunchId) 0 + k)

/-- The bytes of `image_buffer_`. -/
def imageBufferNBytes (ia : ImageAssembler) : Nat := writerIaNSlots * ia.imageBufferSlotNBytes

/-- The entries of `frame_meta_buffer_`. -/
def frameMetaBufferLength (ia : ImageAssembler) : Nat := writerIaNSlots * ia.nModules * bufferBlockSize

/-! ## The cells of a slot -/

/-- `a` lies in slot `slot` of a buffer with `size` elements in each slot. -/
def InSlot (size slot a : Nat) : Prop := slot * size ≤ a ∧ a < (slot + 1) * size

/-- What round `i` of `process` writes lies in the slot, and the slot in the allocated buffers. -/
structure RoundInside (ia : ImageAssembler) (slot iModule i : Nat) : Prop where
  imageFrom : slot * ia.imageBufferSlotNBytes ≤ ia.imageOffset slot iModule i
  imageTo : ia.imageOffset slot iModule i + moduleNBytes ≤ (slot + 1) * ia.imageBufferSlotNBytes
  imageAllocated : (slot + 1) * ia.imageBufferSlotNBytes ≤ ia.imageBufferNBytes
  frameMeta : InSlot (ia.nModules * bufferBlockSize) slot (ia.metaOffset slot iModule i)
  frameMetaAllocated : (slot + 1) * (ia.nModules * bufferBlockSize) ≤ ia.frameMetaBufferLength

/-- The assemblers differ only in the frames and the status of a slot. -/
structure OnlySlot (slot : Nat) (ia ia' : ImageAssembler) : Prop where
  nModules : ia'.nModules = ia.nModules
  imageBuffer : ∀ a, ¬ InSlot ia.imageBufferSlotNBytes slot a → ia'.imageBuffer a = ia.imageBuffer a
  metaBuffer : ia'.metaBuffer = ia.metaBuffer
  frameMetaBuffer : ∀ k, ¬ InSlot (ia.nModules * bufferBlockSize) slot k →
    ia'.frameMetaBuffer k = ia.frameMetaBuffer k
  bufferStatus : ∀ s ≠ slot, ia'.bufferStatus s = ia.bufferStatus s
  bufferBunchId : ia'.bufferBunchId = ia.bufferBunchId

section

variable {ia : ImageAssembler} {slot m k a : Nat}

theorem slotId_lt (bunchId : UInt64) : slotId bunchId < writerIaNSlots := Nat.mod_lt _ (Nat.zero_lt_two)

theorem imageBufferSlotNBytes_eq (ia : ImageAssembler) :
    ia.imageBufferSlotNBytes = ia.nModules * bufferBlockSize * moduleNBytes := by
  unfold imageBufferSlotNBytes
  ring

theorem metaOffset_inSlot (slot : Nat) (hm : m < ia.nModules) (i : Fin bufferBlockSize) :
    InSlot (ia.nModules * bufferBlockSize) slot (ia.metaOffset slot m i) := by
  have hcell := Memory.rowMajor_lt i.isLt hm
  have hoffset : ia.metaOffset slot m i = slot * (ia.nModules * bufferBlockSize) + (ia.nModules * i + m) := by
    unfold metaOffset getMetadataOffset
    ring
  unfold InSlot
  rw [hoffset, Nat.succ_mul]
  omega

/-- The slot has no entry outside its cells. -/
theorem exists_metaOffset (h : InSlot (ia.nModules * bufferBlockSize) slot k) :
    ∃ m < ia.nModules, ∃ i : Fin bufferBlockSize, k = ia.metaOffset slot m i := by
  obtain ⟨hfrom, hto⟩ := h
  rw [Nat.succ_mul] at hto
  obtain ⟨r, rfl⟩ := Nat.exists_eq_add_of_le hfrom
  have hr : r < ia.nModules * bufferBlockSize := by omega
  have hpos : 0 < ia.nModules := Nat.pos_of_mul_pos_right (Nat.zero_lt_of_lt hr)
  refine ⟨r % ia.nModules, Nat.mod_lt _ hpos, ⟨r / ia.nModules, Nat.div_lt_of_lt_mul hr⟩, ?_⟩
  unfold metaOffset getMetadataOffset
  have hsplit := Nat.mod_add_div' r ia.nModules
  simp only
  omega

/-- A byte of the slot is a byte of a cell of the slot. -/
theorem inSlot_image (h : InSlot ia.imageBufferSlotNBytes slot a) :
    InSlot (ia.nModules * bufferBlockSize) slot (a / moduleNBytes) := by
  obtain ⟨hfrom, hto⟩ := h
  rw [imageBufferSlotNBytes_eq, ← Nat.mul_assoc] at hfrom hto
  exact ⟨(Nat.le_div_iff_mul_le (by decide)).2 hfrom, (Nat.div_lt_iff_lt_mul (by decide)).2 hto⟩

theorem roundInside (hslot : slot < writerIaNSlots) (hm : m < ia.nModules) (i : Fin bufferBlockSize) :
    ia.RoundInside slot m i := by
  have hcell := metaOffset_inSlot slot hm i
  have hallocated := Nat.mul_le_mul_right (ia.nModules * bufferBlockSize) (Nat.succ_le_of_lt hslot)
  refine ⟨?_, ?_, Nat.mul_le_mul_right _ hslot, hcell, ?_⟩
  · rw [imageOffset_eq, imageBufferSlotNBytes_eq, ← Nat.mul_assoc]
    exact Nat.mul_le_mul_right _ hcell.1
  · have hto := Memory.cell_within (n := moduleNBytes) hcell.2
    rw [imageOffset_eq, imageBufferSlotNBytes_eq]
    rwa [Nat.mul_assoc (slot + 1)] at hto
  · unfold frameMetaBufferLength
    rwa [Nat.mul_assoc]

end

/-! ## What a call of `process` changes -/

namespace OnlySlot

variable {slot : Nat} {ia ia' ia'' : ImageAssembler}

theorem refl (slot : Nat) (ia : ImageAssembler) : OnlySlot slot ia ia where
  nModules := rfl
  imageBuffer _ _ := rfl
  metaBuffer := rfl
  frameMetaBuffer _ _ := rfl
  bufferStatus _ _ := rfl
  bufferBunchId := rfl

theorem trans (h : OnlySlot slot ia ia') (h' : OnlySlot slot ia' ia'') : OnlySlot slot ia ia'' where
  nModules := h'.nModules.trans h.nModules
  imageBuffer a ha := by
    have ha' : ¬ InSlot ia'.imageBufferSlotNBytes slot a := by
      rwa [imageBufferSlotNBytes_eq, h.nModules, ← imageBufferSlotNBytes_eq]
    rw [h'.imageBuffer a ha', h.imageBuffer a ha]
  metaBuffer := h'.metaBuffer.trans h.metaBuffer
  frameMetaBuffer k hk := by
    have hk' : ¬ InSlot (ia'.nModules * bufferBlockSize) slot k := by rwa [h.nModules]
    rw [h'.frameMetaBuffer k hk', h.frameMetaBuffer k hk]
  bufferStatus s hs := by rw [h'.bufferStatus s hs, h.bufferStatus s hs]
  bufferBunchId := h'.bufferBunchId.trans h.bufferBunchId

end OnlySlot

section

variable {ia : ImageAssembler} {bunchId : UInt64} {m : Nat}

theorem onlySlot_copyFrame (hm : m < ia.nModules) (block : BufferBinaryBlock) (i : Fin bufferBlockSize) :
    OnlySlot (slotId bunchId) ia (ia.copyFrame bunchId m block i) where
  nModules := copyFrame_nModules ..
  imageBuffer a ha := by
    have hinside := roundInside (slotId_lt bunchId) hm i
    unfold copyFrame
    rw [setFrameBuffers_imageBuffer]
    apply Memory.write_outside _ _ _
    by_contra hin
    exact ha ⟨by have := hinside.imageFrom; omega, by have := hinside.imageTo; omega⟩
  metaBuffer := copyFrame_metaBuffer ..
  frameMetaBuffer k hk := by
    have hinside := roundInside (slotId_lt bunchId) hm i
    unfold copyFrame
    rw [setFrameBuffers_frameMetaBuffer]
    refine Function.update_of_ne ?_ ..
    rintro rfl
    exact hk hinside.frameMeta
  bufferStatus s _ := by rw [copyFrame_bufferStatus]
  bufferBunchId := copyFrame_bufferBunchId ..

theorem onlySlot_releaseModule (ia : ImageAssembler) (bunchId : UInt64) :
    OnlySlot (slotId bunchId) ia (ia.releaseModule bunchId) where
  nModules := rfl
  imageBuffer _ _ := rfl
  metaBuffer := rfl
  frameMetaBuffer _ _ := rfl
  bufferStatus _ hs := Function.update_of_ne hs ..
  bufferBunchId := rfl

theorem onlySlot_process (hm : m < ia.nModules) (block : BufferBinaryBlock) :
    OnlySlot (slotId bunchId) ia (ia.process bunchId m block) := by
  have hloop : ∀ (l : List (Fin bufferBlockSize)) {ia : ImageAssembler}, m < ia.nModules →
      OnlySlot (slotId bunchId) ia (l.foldl (fun ia i => ia.copyFrame bunchId m block i) ia) := by
    intro l
    induction l with
    | nil => exact fun _ => .refl ..
    | cons i l ih =>
      intro ia hm
      rw [List.foldl_cons]
      exact (onlySlot_copyFrame hm block i).trans (ih (by rwa [copyFrame_nModules]))
  unfold process
  exact (hloop _ hm).trans (onlySlot_releaseModule ..)

theorem releaseModule_bufferStatus (ia : ImageAssembler) (bunchId : UInt64) :
    (ia.releaseModule bunchId).bufferStatus (slotId bunchId) = ia.bufferStatus (slotId bunchId) - 1 :=
  Function.update_self ..

/-- A call of `process` counts one module down. -/
theorem process_bufferStatus (ia : ImageAssembler) (block : BufferBinaryBlock) :
    (ia.process bunchId m block).bufferStatus (slotId bunchId) = ia.bufferStatus (slotId bunchId) - 1 := by
  have hloop := Runs.foldl_frame (fun ia : ImageAssembler => ia.bufferStatus)
    (fun ia i => copyFrame_bufferStatus ia bunchId m block i) (List.finRange bufferBlockSize) ia
  unfold process
  rw [releaseModule_bufferStatus, hloop]

end

/-! ## The calls of all modules -/

section

variable {ia : ImageAssembler} {bunchId : UInt64} {block : Nat → BufferBinaryBlock}

theorem processAll_nil (ia : ImageAssembler) : ia.processAll bunchId block [] = ia := List.foldl_nil ..

theorem processAll_cons (ia : ImageAssembler) (m : Nat) (order : List Nat) :
    ia.processAll bunchId block (m :: order) = (ia.process bunchId m (block m)).processAll bunchId block order :=
  List.foldl_cons ..

theorem onlySlot_processAll {order : List Nat} (h : ∀ m ∈ order, m < ia.nModules) :
    OnlySlot (slotId bunchId) ia (ia.processAll bunchId block order) := by
  induction order generalizing ia with
  | nil =>
    rw [processAll_nil]
    exact .refl ..
  | cons m order ih =>
    rw [processAll_cons]
    refine (onlySlot_process (h m (List.mem_cons_self ..)) (block m)).trans (ih fun q hq => ?_)
    rw [process_nModules]
    exact h q (List.mem_cons_of_mem _ hq)

theorem processAll_bufferStatus (order : List Nat) :
    (ia.processAll bunchId block order).bufferStatus (slotId bunchId) =
      ia.bufferStatus (slotId bunchId) - order.length := by
  induction order generalizing ia with
  | nil =>
    rw [processAll_nil]
    simp
  | cons m order ih =>
    rw [processAll_cons, ih, process_bufferStatus, List.length_cons, Nat.cast_succ]
    ring

/-- The calls fill the cells of their modules. -/
theorem processAll_cell {order : List Nat} (h : ∀ q ∈ order, q < ia.nModules) {m : Nat} (hm : m < ia.nModules)
    (i : Fin bufferBlockSize) : (ia.processAll bunchId block order).cell (slotId bunchId) m i =
      if m ∈ order then (((block m).frame i).metadata, ((block m).frame i).data)
        else ia.cell (slotId bunchId) m i := by
  refine Runs.foldl_set (fun s : ImageAssembler => s.cell (slotId bunchId) m i)
    (P := fun s => s.nModules = ia.nModules) (fun s hs q hq => ⟨?_, ?_⟩) rfl
  · rw [process_nModules, hs]
  · rw [process_cell _ i (by rw [hs]; exact h q hq) (by rwa [hs])]
    by_cases hmq : m = q
    · subst hmq
      rw [if_pos ⟨rfl, rfl⟩, if_pos rfl]
    · rw [if_neg fun h => hmq h.2, if_neg hmq]

/-- Assemblers that differ only in a slot are equal when its cells and its status are. -/
theorem OnlySlot.eq_of_cells {slot : Nat} {ia₁ ia₂ : ImageAssembler} (h₁ : OnlySlot slot ia ia₁)
    (h₂ : OnlySlot slot ia ia₂) (hcell : ∀ m < ia.nModules, ∀ i, ia₁.cell slot m i = ia₂.cell slot m i)
    (hstatus : ia₁.bufferStatus slot = ia₂.bufferStatus slot) : ia₁ = ia₂ := by
  have hoffset : ∀ m i, ia₁.metaOffset slot m i = ia.metaOffset slot m i := fun m i => by
    rw [metaOffset_eq, metaOffset_eq, h₁.nModules]
  have hoffset' : ∀ m i, ia₂.metaOffset slot m i = ia.metaOffset slot m i := fun m i => by
    rw [metaOffset_eq, metaOffset_eq, h₂.nModules]
  have hframe : ia₁.frameMetaBuffer = ia₂.frameMetaBuffer := by
    funext k
    by_cases hk : InSlot (ia.nModules * bufferBlockSize) slot k
    · obtain ⟨m, hm, i, rfl⟩ := exists_metaOffset hk
      have hmeta := congrArg Prod.fst (hcell m hm i)
      unfold cell cellMeta at hmeta
      rwa [hoffset, hoffset'] at hmeta
    · rw [h₁.frameMetaBuffer k hk, h₂.frameMetaBuffer k hk]
  have himage : ia₁.imageBuffer = ia₂.imageBuffer := by
    funext a
    by_cases ha : InSlot ia.imageBufferSlotNBytes slot a
    · obtain ⟨m, hm, i, hk⟩ := exists_metaOffset (inSlot_image ha)
      have hdata := congrFun (congrArg Prod.snd (hcell m hm i)) ⟨a % moduleNBytes, Nat.mod_lt _ (by decide)⟩
      unfold cell cellData Memory.read at hdata
      simp only at hdata
      rwa [imageOffset_eq, imageOffset_eq, hoffset, hoffset', ← hk, Nat.div_add_mod'] at hdata
    · rw [h₁.imageBuffer a ha, h₂.imageBuffer a ha]
  have hstatuses : ia₁.bufferStatus = ia₂.bufferStatus := by
    funext s
    by_cases hs : s = slot
    · rw [hs, hstatus]
    · rw [h₁.bufferStatus s hs, h₂.bufferStatus s hs]
  have hn := h₁.nModules.trans h₂.nModules.symm
  have hmeta := h₁.metaBuffer.trans h₂.metaBuffer.symm
  have hbunch := h₁.bufferBunchId.trans h₂.bufferBunchId.symm
  cases ia₁
  cases ia₂
  simp only at hn hmeta hbunch hframe himage hstatuses
  rw [hn, hmeta, hbunch, hframe, himage, hstatuses]

/-- After one call for every module, in any order, frame `i` of module `m` is at place
`i * n_modules + m` of the slot; the order of the calls does not matter, only the slot has changed
and every write stays inside the allocated buffers, whose sizes do not overflow for any number of
modules that the `int` of `i_module` can count. -/
theorem processAll_layout (ia : ImageAssembler) (bunchId : UInt64) (block : Nat → BufferBinaryBlock)
    {order : List Nat} (h : order.Perm (List.range ia.nModules)) :
    let assembled := ia.processAll bunchId block order
    (∀ i : Fin bufferBlockSize, ∀ m < ia.nModules,
      Memory.read assembled.imageBuffer
          (assembled.getDataBuffer bunchId + (i * ia.nModules + m) * moduleNBytes) moduleNBytes =
        ((block m).frame i).data ∧
      assembled.slotFrameMeta bunchId (i * ia.nModules + m) = ((block m).frame i).metadata) ∧
    (∀ order' : List Nat, order'.Perm (List.range ia.nModules) → ia.processAll bunchId block order' = assembled) ∧
    OnlySlot (slotId bunchId) ia assembled ∧
    (∀ m < ia.nModules, ∀ i : Fin bufferBlockSize, ia.RoundInside (slotId bunchId) m i) ∧
    (ia.nModules ≤ 2 ^ 31 → ia.imageBufferNBytes < 2 ^ 64) := by
  have hmem : ∀ {order : List Nat}, order.Perm (List.range ia.nModules) → ∀ m, m ∈ order ↔ m < ia.nModules :=
    fun h m => by rw [h.mem_iff, List.mem_range]
  have hcell : ∀ {order : List Nat}, order.Perm (List.range ia.nModules) → ∀ m < ia.nModules, ∀ i,
      (ia.processAll bunchId block order).cell (slotId bunchId) m i =
        (((block m).frame i).metadata, ((block m).frame i).data) := fun h m hm i => by
    rw [processAll_cell (fun q hq => (hmem h q).1 hq) hm, if_pos ((hmem h m).2 hm)]
  have honly : ∀ {order : List Nat}, order.Perm (List.range ia.nModules) →
      OnlySlot (slotId bunchId) ia (ia.processAll bunchId block order) :=
    fun h => onlySlot_processAll fun q hq => (hmem h q).1 hq
  intro assembled
  refine ⟨fun i m hm => ?_, fun order' h' => ?_, honly h, fun m hm i => roundInside (slotId_lt _) hm i, ?_⟩
  · have hdata := congrArg Prod.snd (hcell h m hm i)
    have hmeta := congrArg Prod.fst (hcell h m hm i)
    have hn : assembled.nModules = ia.nModules := (honly h).nModules
    unfold cell cellData at hdata
    unfold cell cellMeta at hmeta
    constructor
    · have hoffset : assembled.imageOffset (slotId bunchId) m i =
          assembled.getDataBuffer bunchId + (i * ia.nModules + m) * moduleNBytes := by
        unfold imageOffset getDataOffset getDataBuffer
        rw [hn]
        ring
      rwa [hoffset] at hdata
    · have hoffset : assembled.metaOffset (slotId bunchId) m i =
          assembled.getMetadataOffset (slotId bunchId) 0 + (i * ia.nModules + m) := by
        unfold metaOffset getMetadataOffset
        rw [hn]
        ring
      rwa [hoffset] at hmeta
  · refine (honly h').eq_of_cells (honly h) (fun m hm i => ?_) ?_
    · rw [hcell h' m hm i, hcell h m hm i]
    · rw [processAll_bufferStatus, processAll_bufferStatus, h'.length_eq, h.length_eq]
  · intro hn
    unfold imageBufferNBytes imageBufferSlotNBytes
    simp only [writerIaNSlots, bufferBlockSize, moduleNBytes]
    omega

end

/-- An assembler of two modules in zeroed memory. -/
def twoModules : ImageAssembler :=
  .new 2 (fun _ => 0) (fun _ => ⟨fun _ => 0, fun _ => 0, fun _ => 0, fun _ => 0, 0, 0⟩) (fun _ => .zero) (fun _ => 0)
    fun _ => 0

/-- Block 5 of a module: the frames have its number as frame_index and in every byte. -/
def blockFive (m : Nat) : BufferBinaryBlock :=
  ⟨fun i => ⟨formatMarkerValue, ⟨500 + UInt64.ofNat i, UInt64.ofNat m, 0, 128, 0⟩, fun _ => UInt8.ofNat m⟩, 500⟩

/-- Module 1 before module 0: entry 5 of slot 1 is frame 2 of module 1, as in the other order. -/
theorem processAll_layout_two :
    (twoModules.processAll 5 blockFive [1, 0]).slotFrameMeta 5 5 = ⟨502, 1, 0, 128, 0⟩ ∧
    Memory.read (twoModules.processAll 5 blockFive [1, 0]).imageBuffer
        ((twoModules.processAll 5 blockFive [1, 0]).getDataBuffer 5 + 5 * moduleNBytes) moduleNBytes =
      (fun _ => 1) ∧
    twoModules.processAll 5 blockFive [0, 1] = twoModules.processAll 5 blockFive [1, 0] := by
  have hn : twoModules.nModules = 2 := rfl
  have hswap : [1, 0].Perm (List.range twoModules.nModules) := List.Perm.swap 0 1 []
  obtain ⟨hcells, horder, -⟩ := processAll_layout twoModules 5 blockFive hswap
  obtain ⟨hdata, hmeta⟩ := hcells 2 1 (by rw [hn]; exact Nat.one_lt_two)
  rw [hn] at hdata hmeta
  exact ⟨hmeta, hdata, horder [0, 1] (.refl _)⟩

end SfDaqBuffer.SfWriter.ImageAssembler
