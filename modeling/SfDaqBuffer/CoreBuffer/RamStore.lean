/-
`RamBuffer` refines a map from slots and modules to frames. Every address computed from a pulse_id
and a module is that of a cell numbered `nModules * slot + module`: 40 bytes of metadata at the
front of the mapping and one image part behind all metadata.
-/
import SfDaqBuffer.CoreBuffer.RamBuffer

namespace SfDaqBuffer.CoreBuffer

open Memory

/-! ## Addresses -/

namespace Geometry

variable (g : Geometry)

/-- The number of a cell. -/
def cell (slot m : Nat) : Nat := g.nModules * slot + m

def metaOffset (slot m : Nat) : Nat := g.cell slot m * sizeofModuleFrame

/-- The first byte behind the metadata. -/
def metaEnd : Nat := g.nModules * g.nSlots * sizeofModuleFrame

def dataOffset (slot m : Nat) : Nat := g.metaEnd + g.cell slot m * moduleNBytes

variable {g}

theorem cell_lt {slot m : Nat} (hs : slot < g.nSlots) (hm : m < g.nModules) :
    g.cell slot m < g.nModules * g.nSlots := rowMajor_lt hs hm

theorem nModules_le : g.nModules ≤ g.nModules * g.nSlots := Nat.le_mul_of_pos_right _ g.nSlots_pos

theorem sizeT_of_lt {n : Nat} (h : n < 2 ^ 64) : sizeT n = n := Nat.mod_eq_of_lt h

theorem slotN_lt (pulseId : UInt64) : g.slotN pulseId < g.nSlots := Nat.mod_lt _ g.nSlots_pos

theorem slot_mul_lt {slot : Nat} (hs : slot < g.nSlots) : g.nModules * slot < 2 ^ 31 :=
  (Nat.mul_le_mul_left _ hs.le).trans_lt g.cells_lt

theorem imageBytes_eq : g.imageBytes = moduleNBytes * g.nModules := by
  have h := nModules_le (g := g)
  have hlt := g.cells_lt
  apply sizeT_of_lt
  simp only [moduleNBytes]
  omega

theorem imageBuffer_eq : g.imageBuffer = g.metaEnd := by
  have h := nModules_le (g := g)
  have hlt := g.cells_lt
  have hmeta : g.metaBytes = sizeofModuleFrame * g.nModules := by
    apply sizeT_of_lt
    simp only [sizeofModuleFrame]
    omega
  have hmul : g.metaBytes * g.nSlots = g.metaEnd := by
    rw [hmeta]
    unfold metaEnd
    ring
  unfold imageBuffer
  rw [hmul]
  apply sizeT_of_lt
  simp only [metaEnd, sizeofModuleFrame]
  omega

theorem bufferBytes_eq : g.bufferBytes = g.metaEnd + g.nModules * g.nSlots * moduleNBytes := by
  have h := nModules_le (g := g)
  have hlt := g.cells_lt
  have hmeta : g.metaBytes = sizeofModuleFrame * g.nModules := by
    apply sizeT_of_lt
    simp only [sizeofModuleFrame]
    omega
  have hsum : sizeT (g.metaBytes + g.imageBytes) = (sizeofModuleFrame + moduleNBytes) * g.nModules := by
    rw [hmeta, imageBytes_eq, ← Nat.add_mul]
    apply sizeT_of_lt
    simp only [sizeofModuleFrame, moduleNBytes]
    omega
  have hmul : (sizeofModuleFrame + moduleNBytes) * g.nModules * g.nSlots =
      g.metaEnd + g.nModules * g.nSlots * moduleNBytes := by
    unfold metaEnd
    ring
  unfold bufferBytes
  rw [hsum, hmul]
  apply sizeT_of_lt
  simp only [metaEnd, sizeofModuleFrame, moduleNBytes]
  omega

theorem cell_inj {slot slot' m m' : Nat} (hm : m < g.nModules) (hm' : m' < g.nModules)
    (h : g.cell slot m = g.cell slot' m') : slot = slot' ∧ m = m' := rowMajor_inj hm hm' h

/-- The image of a slot starts at the data of its first module. -/
theorem readImage_eq {slot : Nat} (hs : slot < g.nSlots) :
    g.imageBuffer + sizeT (g.imageBytes * slot) = g.dataOffset slot 0 := by
  have hlt := slot_mul_lt hs
  have hmul : g.imageBytes * slot = g.cell slot 0 * moduleNBytes := by
    rw [imageBytes_eq]
    unfold cell
    ring
  rw [imageBuffer_eq, hmul]
  unfold dataOffset
  congr 1
  apply sizeT_of_lt
  simp only [cell, moduleNBytes]
  omega

theorem dataOffset_eq {slot m : Nat} (hs : slot < g.nSlots) (hm : m < g.nModules) :
    g.imageBuffer + sizeT (g.imageBytes * slot) + sizeT (moduleNBytes * m) = g.dataOffset slot m := by
  have h := nModules_le (g := g)
  have hlt := g.cells_lt
  rw [readImage_eq hs]
  have hwrap : sizeT (moduleNBytes * m) = moduleNBytes * m := by
    apply sizeT_of_lt
    simp only [moduleNBytes]
    omega
  rw [hwrap]
  unfold dataOffset cell
  ring

/-! ## Ranges -/

variable {slot m : Nat} (hs : slot < g.nSlots) (hm : m < g.nModules)

include hs hm

/-- The metadata of a cell lies in front of all images. -/
theorem meta_within : g.metaOffset slot m + sizeofModuleFrame ≤ g.metaEnd :=
  cell_within (cell_lt hs hm)

theorem data_within : g.metaEnd ≤ g.dataOffset slot m ∧ g.dataOffset slot m + moduleNBytes ≤ g.bufferBytes := by
  have h := cell_within (n := moduleNBytes) (cell_lt hs hm)
  rw [bufferBytes_eq]
  unfold dataOffset
  omega

theorem meta_within_buffer : g.metaOffset slot m + sizeofModuleFrame ≤ g.bufferBytes := by
  have h1 := meta_within hs hm
  have h2 := data_within hs hm
  omega

omit hm in
/-- The data of the modules of a slot follow each other. -/
theorem image_within : g.dataOffset slot 0 + g.imageBytes ≤ g.bufferBytes := by
  have hmod := g.nModules_pos
  have hpos : g.nModules - 1 < g.nModules := by omega
  have hlast := (data_within hs hpos).2
  have hend : g.dataOffset slot 0 + g.imageBytes = g.dataOffset slot (g.nModules - 1) + moduleNBytes := by
    obtain ⟨k, hk⟩ : ∃ k, g.nModules = k + 1 := ⟨g.nModules - 1, by omega⟩
    rw [imageBytes_eq]
    unfold dataOffset cell
    rw [hk, Nat.add_sub_cancel]
    ring
  rw [hend]
  exact hlast

end Geometry

/-! ## The operations at the addresses of cells -/

namespace RamBuffer

open CoreBuffer.Geometry

variable {g : Geometry}

/-- The memory after a frame was stored in a cell. -/
def storeCell (b : RamBuffer g) (slot m : Nat) (frameMeta : ModuleFrame) (data : ModuleData) : RamBuffer g :=
  ⟨write (write b.cell (g.metaOffset slot m) frameMeta.toBytes) (g.dataOffset slot m) data⟩

def cellMeta (b : RamBuffer g) (slot m : Nat) : ModuleFrame :=
  ModuleFrame.ofBytes (read b.cell (g.metaOffset slot m) sizeofModuleFrame)

def cellData (b : RamBuffer g) (slot m : Nat) : ModuleData := read b.cell (g.dataOffset slot m) moduleNBytes

theorem writeFrame_eq (b : RamBuffer g) {frameMeta : ModuleFrame} (data : ModuleData)
    (hm : frameMeta.moduleId.toNat < g.nModules) :
    b.writeFrame frameMeta data =
      some (b.storeCell (g.slotN frameMeta.pulseId) frameMeta.moduleId.toNat frameMeta data) := by
  have hs := slotN_lt (g := g) frameMeta.pulseId
  have hmul : intMul g.nModules (g.slotN frameMeta.pulseId) = some (g.nModules * g.slotN frameMeta.pulseId) :=
    if_pos (slot_mul_lt hs)
  unfold writeFrame
  simp only [hmul, dataOffset_eq hs hm, Option.bind_eq_bind, Option.bind_some]
  have hmeta : (g.nModules * g.slotN frameMeta.pulseId + frameMeta.moduleId.toNat) * sizeofModuleFrame =
      g.metaOffset (g.slotN frameMeta.pulseId) frameMeta.moduleId.toNat := rfl
  rw [hmeta, Region.store_eq_some _ _ (meta_within_buffer hs hm), Option.bind_some]
  exact Region.store_eq_some _ _ (data_within hs hm).2

/-- `meta_buffer_ + (n_modules_ * slot_n) + module_id`, with `slot_n` a `size_t`. -/
theorem load_meta (b : RamBuffer g) {slot m : Nat} (hs : slot < g.nSlots) (hm : m < g.nModules) :
    b.load ((sizeT (g.nModules * slot) + m) * sizeofModuleFrame) sizeofModuleFrame =
      some (read b.cell (g.metaOffset slot m) sizeofModuleFrame) := by
  have hmul : sizeT (g.nModules * slot) = g.nModules * slot :=
    sizeT_of_lt ((slot_mul_lt hs).trans (by decide))
  rw [hmul]
  exact Region.load_eq_some _ (meta_within_buffer hs hm)

theorem readFrame_eq (b : RamBuffer g) (pulseId : UInt64) {moduleId : UInt64}
    (hm : moduleId.toNat < g.nModules) :
    b.readFrame pulseId moduleId =
      some (b.cellMeta (g.slotN pulseId) moduleId.toNat, b.cellData (g.slotN pulseId) moduleId.toNat) := by
  have hs := slotN_lt (g := g) pulseId
  have hdata : b.load (g.dataOffset (g.slotN pulseId) moduleId.toNat) moduleNBytes =
      some (b.cellData (g.slotN pulseId) moduleId.toNat) :=
    Region.load_eq_some _ (data_within hs hm).2
  unfold readFrame
  simp only [load_meta b hs hm, dataOffset_eq hs hm, hdata, Option.bind_eq_bind, Option.bind_some,
    Option.pure_def]
  rw [cellMeta]

/-! ## One store -/

section

variable (b : RamBuffer g) {slot m slot' m' : Nat} (frameMeta : ModuleFrame) (data : ModuleData)

theorem cell_storeCell_same (hs : slot < g.nSlots) (hm : m < g.nModules) :
    (b.storeCell slot m frameMeta data).cellMeta slot m = frameMeta ∧
      (b.storeCell slot m frameMeta data).cellData slot m = data := by
  have hmeta := meta_within hs hm
  have hdata := (data_within hs hm).1
  constructor
  · unfold cellMeta storeCell
    rw [read_write_disjoint _ _ _ (.inl (hmeta.trans hdata)), read_write_same, ModuleFrame.ofBytes_toBytes]
  · unfold cellData storeCell
    exact read_write_same ..

theorem cell_storeCell_other (hs : slot < g.nSlots) (hm : m < g.nModules) (hs' : slot' < g.nSlots)
    (hm' : m' < g.nModules) (hne : ¬ (slot' = slot ∧ m' = m)) :
    (b.storeCell slot m frameMeta data).cellMeta slot' m' = b.cellMeta slot' m' ∧
      (b.storeCell slot m frameMeta data).cellData slot' m' = b.cellData slot' m' := by
  have hmeta := meta_within hs hm
  have hmeta' := meta_within hs' hm'
  have hdata := (data_within hs hm).1
  have hdata' := (data_within hs' hm').1
  have hcell : g.cell slot' m' ≠ g.cell slot m := fun h => hne (cell_inj hm' hm h)
  constructor
  · have hdis : g.metaOffset slot' m' + sizeofModuleFrame ≤ g.metaOffset slot m ∨
        g.metaOffset slot m + sizeofModuleFrame ≤ g.metaOffset slot' m' :=
      cells_disjoint hcell
    unfold cellMeta storeCell
    rw [read_write_disjoint _ _ _ (.inl (hmeta'.trans hdata)), read_write_disjoint _ _ _ hdis]
  · have hdis : g.dataOffset slot' m' + moduleNBytes ≤ g.dataOffset slot m ∨
        g.dataOffset slot m + moduleNBytes ≤ g.dataOffset slot' m' := by
      have h := cells_disjoint (n := moduleNBytes) hcell
      unfold dataOffset
      omega
    unfold cellData storeCell
    rw [read_write_disjoint _ _ _ hdis, read_write_disjoint _ _ _ (.inr (hmeta.trans hdata'))]

/-- A store changes no byte outside the two ranges of its cell. -/
theorem storeCell_outside {a : Nat}
    (hmeta : a < g.metaOffset slot m ∨ g.metaOffset slot m + sizeofModuleFrame ≤ a)
    (hdata : a < g.dataOffset slot m ∨ g.dataOffset slot m + moduleNBytes ≤ a) :
    (b.storeCell slot m frameMeta data).cell a = b.cell a := by
  unfold storeCell
  exact (write_outside _ _ _ hdata).trans (write_outside _ _ _ hmeta)

end

end RamBuffer

/-! ## The map -/

/-- The abstract store: a frame for each slot and module. -/
abbrev Cells := Nat → Nat → ModuleFrame × ModuleData

def Cells.zero : Cells := fun _ _ => (ModuleFrame.zero, fun _ => 0)

def Cells.write (g : Geometry) (f : Cells) (w : ModuleFrame × ModuleData) : Cells := fun slot m =>
  if slot = g.slotN w.1.pulseId ∧ m = w.1.moduleId.toNat then w else f slot m

theorem Cells.write_same {g : Geometry} {w : ModuleFrame × ModuleData} {slot m : Nat} (f : Cells)
    (h : slot = g.slotN w.1.pulseId ∧ m = w.1.moduleId.toNat) : f.write g w slot m = w := if_pos h

theorem Cells.write_other {g : Geometry} {w : ModuleFrame × ModuleData} {slot m : Nat} (f : Cells)
    (h : ¬ (slot = g.slotN w.1.pulseId ∧ m = w.1.moduleId.toNat)) : f.write g w slot m = f slot m := if_neg h

/-- The mapping holds the frames of the map. -/
structure Refines {g : Geometry} (b : RamBuffer g) (f : Cells) : Prop where
  frameMeta : ∀ slot < g.nSlots, ∀ m < g.nModules, b.cellMeta slot m = (f slot m).1
  data : ∀ slot < g.nSlots, ∀ m < g.nModules, b.cellData slot m = (f slot m).2

section Map

open CoreBuffer.Geometry RamBuffer

variable {g : Geometry}

theorem refines_new : Refines (RamBuffer.new g) Cells.zero where
  frameMeta _ _ _ _ := ModuleFrame.ofBytes_zero
  data _ _ _ _ := read_const ..

theorem Refines.store {b : RamBuffer g} {f : Cells} (h : Refines b f) {w : ModuleFrame × ModuleData}
    (hm : w.1.moduleId.toNat < g.nModules) :
    Refines (b.storeCell (g.slotN w.1.pulseId) w.1.moduleId.toNat w.1 w.2) (f.write g w) := by
  have hs := slotN_lt (g := g) w.1.pulseId
  constructor
  all_goals
    intro slot' hs' m' hm'
    by_cases heq : slot' = g.slotN w.1.pulseId ∧ m' = w.1.moduleId.toNat
  · obtain ⟨rfl, rfl⟩ := heq
    rw [f.write_same ⟨rfl, rfl⟩]
    exact (cell_storeCell_same b w.1 w.2 hs hm).1
  · rw [f.write_other heq, (cell_storeCell_other b w.1 w.2 hs hm hs' hm' heq).1]
    exact h.frameMeta slot' hs' m' hm'
  · obtain ⟨rfl, rfl⟩ := heq
    rw [f.write_same ⟨rfl, rfl⟩]
    exact (cell_storeCell_same b w.1 w.2 hs hm).2
  · rw [f.write_other heq, (cell_storeCell_other b w.1 w.2 hs hm hs' hm' heq).2]
    exact h.data slot' hs' m' hm'

theorem Refines.writeFrame {b b' : RamBuffer g} {f : Cells} (h : Refines b f) {w : ModuleFrame × ModuleData}
    (hm : w.1.moduleId.toNat < g.nModules) (hwrite : b.writeFrame w.1 w.2 = some b') : Refines b' (f.write g w) := by
  rw [writeFrame_eq b w.2 hm] at hwrite
  obtain rfl := Option.some.inj hwrite
  exact h.store hm

/-! ## Sequences of writes -/

/-- `write_frame` for each of a list of frames. -/
def writeFrames (b : RamBuffer g) (ws : List (ModuleFrame × ModuleData)) : Option (RamBuffer g) :=
  ws.foldlM (fun b w => b.writeFrame w.1 w.2) b

theorem writeFrames_refines : ∀ (ws : List (ModuleFrame × ModuleData)) (b : RamBuffer g) (f : Cells),
    (∀ w ∈ ws, w.1.moduleId.toNat < g.nModules) → Refines b f →
      ∃ b', writeFrames b ws = some b' ∧ Refines b' (ws.foldl (Cells.write g) f)
  | [], b, f, _, h => ⟨b, rfl, h⟩
  | w :: ws, b, f, hws, h => by
    have hm := hws w (List.mem_cons_self ..)
    obtain ⟨b₁, hb₁⟩ : ∃ b₁, b.writeFrame w.1 w.2 = some b₁ := ⟨_, writeFrame_eq b w.2 hm⟩
    obtain ⟨b', hb', h'⟩ := writeFrames_refines ws b₁ _ (fun v hv => hws v (List.mem_cons_of_mem _ hv))
      (h.writeFrame hm hb₁)
    refine ⟨b', ?_, h'⟩
    unfold writeFrames at hb' ⊢
    rw [List.foldlM_cons, hb₁]
    exact hb'

/-- The last frame of module `m` among `ws` whose pulse_id shares a slot with `pulseId`. -/
def lastWrite (g : Geometry) (ws : List (ModuleFrame × ModuleData)) (pulseId : UInt64) (m : Nat) :
    Option (ModuleFrame × ModuleData) :=
  (ws.filter fun w =>
    w.1.moduleId.toNat = m ∧ w.1.pulseId.toNat % g.nSlots = pulseId.toNat % g.nSlots).getLast?

/-- Zeros when there is no such frame. -/
def lastFrame (g : Geometry) (ws : List (ModuleFrame × ModuleData)) (pulseId : UInt64) (m : Nat) :
    ModuleFrame × ModuleData :=
  (lastWrite g ws pulseId m).getD (ModuleFrame.zero, fun _ => 0)

theorem foldl_write_eq (f : Cells) (ws : List (ModuleFrame × ModuleData)) (pulseId : UInt64) (m : Nat) :
    ws.foldl (Cells.write g) f (g.slotN pulseId) m = (lastWrite g ws pulseId m).getD (f (g.slotN pulseId) m) := by
  induction ws using List.reverseRecOn with
  | nil => rfl
  | append_singleton ws w ih =>
    rw [List.foldl_append, List.foldl_cons, List.foldl_nil]
    by_cases h : w.1.moduleId.toNat = m ∧ w.1.pulseId.toNat % g.nSlots = pulseId.toNat % g.nSlots
    · have hcell : g.slotN pulseId = g.slotN w.1.pulseId ∧ m = w.1.moduleId.toNat := ⟨h.2.symm, h.1.symm⟩
      rw [Cells.write_same _ hcell]
      unfold lastWrite
      simp [h]
    · have hcell : ¬ (g.slotN pulseId = g.slotN w.1.pulseId ∧ m = w.1.moduleId.toNat) :=
        fun hc => h ⟨hc.2.symm, hc.1.symm⟩
      rw [Cells.write_other _ hcell, ih]
      unfold lastWrite
      simp [h]

/-- The reads of the frames `ws` were written to. -/
structure HoldsLast (b : RamBuffer g) (ws : List (ModuleFrame × ModuleData)) : Prop where
  frame : ∀ (pulseId moduleId : UInt64), moduleId.toNat < g.nModules →
    b.readFrame pulseId moduleId = some (lastFrame g ws pulseId moduleId.toNat)
  image : ∀ pulseId : UInt64, ∃ image, b.load (b.readImage pulseId) g.imageBytes = some image ∧
    ∀ m < g.nModules, ∀ k : Fin moduleNBytes, ∃ h : m * moduleNBytes + k < g.imageBytes,
      image ⟨m * moduleNBytes + k, h⟩ = (lastFrame g ws pulseId m).2 k

/-- `b'` differs from `b` in the cell of `w` only, whose ranges lie in the metadata and in the
images. -/
structure ChangesCell (b b' : RamBuffer g) (w : ModuleFrame) : Prop where
  frame : ∀ (pulseId moduleId : UInt64), moduleId.toNat < g.nModules →
    ¬ (g.slotN pulseId = g.slotN w.pulseId ∧ moduleId = w.moduleId) →
      b'.readFrame pulseId moduleId = b.readFrame pulseId moduleId
  bytes : ∀ a, b'.cell a ≠ b.cell a →
    (g.metaOffset (g.slotN w.pulseId) w.moduleId.toNat ≤ a ∧
      a < g.metaOffset (g.slotN w.pulseId) w.moduleId.toNat + sizeofModuleFrame) ∨
    (g.dataOffset (g.slotN w.pulseId) w.moduleId.toNat ≤ a ∧
      a < g.dataOffset (g.slotN w.pulseId) w.moduleId.toNat + moduleNBytes)
  metaRange : g.metaOffset (g.slotN w.pulseId) w.moduleId.toNat + sizeofModuleFrame ≤ g.imageBuffer
  dataRange : g.imageBuffer ≤ g.dataOffset (g.slotN w.pulseId) w.moduleId.toNat ∧
    g.dataOffset (g.slotN w.pulseId) w.moduleId.toNat + moduleNBytes ≤ g.bufferBytes

theorem Refines.readFrame {b : RamBuffer g} {f : Cells} (h : Refines b f) (pulseId : UInt64)
    {moduleId : UInt64} (hm : moduleId.toNat < g.nModules) :
    b.readFrame pulseId moduleId = some (f (g.slotN pulseId) moduleId.toNat) := by
  have hs := slotN_lt (g := g) pulseId
  rw [readFrame_eq b pulseId hm, h.frameMeta _ hs _ hm, h.data _ hs _ hm]

/-- `read_image` points to the data of the modules one after the other. -/
theorem Refines.readImage {b : RamBuffer g} {f : Cells} (h : Refines b f) (pulseId : UInt64) :
    ∃ image, b.load (b.readImage pulseId) g.imageBytes = some image ∧
      ∀ m < g.nModules, ∀ k : Fin moduleNBytes, ∃ hk : m * moduleNBytes + k < g.imageBytes,
        image ⟨m * moduleNBytes + k, hk⟩ = (f (g.slotN pulseId) m).2 k := by
  have hs := slotN_lt (g := g) pulseId
  have hstart : b.readImage pulseId = g.dataOffset (g.slotN pulseId) 0 := readImage_eq hs
  refine ⟨Memory.read b.cell (g.dataOffset (g.slotN pulseId) 0) g.imageBytes, ?_, ?_⟩
  · rw [hstart]
    exact Region.load_eq_some _ (image_within hs)
  · intro m hm k
    have hcell : m * moduleNBytes + moduleNBytes ≤ g.imageBytes := by
      rw [imageBytes_eq, Nat.mul_comm moduleNBytes]
      exact cell_within hm
    have hoff : g.dataOffset (g.slotN pulseId) 0 + m * moduleNBytes = g.dataOffset (g.slotN pulseId) m := by
      unfold dataOffset Geometry.cell
      ring
    refine ⟨by omega, ?_⟩
    rw [← h.data _ hs _ hm, read_read _ _ _ hcell k, hoff]
    rfl

theorem Refines.holdsLast {b : RamBuffer g} {ws : List (ModuleFrame × ModuleData)}
    (h : Refines b (ws.foldl (Cells.write g) Cells.zero)) : HoldsLast b ws where
  frame pulseId moduleId hm := by
    rw [h.readFrame pulseId hm, foldl_write_eq]
    rfl
  image pulseId := by
    obtain ⟨image, hload, himage⟩ := h.readImage pulseId
    refine ⟨image, hload, fun m hm k => ?_⟩
    have hcell := himage m hm k
    rw [foldl_write_eq] at hcell
    exact hcell

theorem storeCell_changesCell (b : RamBuffer g) (w : ModuleFrame) (data : ModuleData)
    (hm : w.moduleId.toNat < g.nModules) :
    ChangesCell b (b.storeCell (g.slotN w.pulseId) w.moduleId.toNat w data) w where
  frame pulseId moduleId hm' hne := by
    have hs := slotN_lt (g := g) w.pulseId
    have hs' := slotN_lt (g := g) pulseId
    have hcell : ¬ (g.slotN pulseId = g.slotN w.pulseId ∧ moduleId.toNat = w.moduleId.toNat) :=
      fun h => hne ⟨h.1, UInt64.toNat_inj.mp h.2⟩
    obtain ⟨hmeta, hdata⟩ := cell_storeCell_other b w data hs hm hs' hm' hcell
    rw [readFrame_eq _ pulseId hm', readFrame_eq b pulseId hm', hmeta, hdata]
  bytes a hne := by
    by_contra hout
    apply hne
    apply storeCell_outside <;> omega
  metaRange := by
    rw [imageBuffer_eq]
    exact meta_within (slotN_lt _) hm
  dataRange := by
    rw [imageBuffer_eq]
    exact data_within (slotN_lt _) hm

/-- `RamBuffer` is a map from slots and modules to frames: after any writes to a new mapping the
reads return what was last written to their cells, and one more write changes one cell. -/
theorem ramBuffer_refines_map (g : Geometry) (ws : List (ModuleFrame × ModuleData))
    (hws : ∀ w ∈ ws, w.1.moduleId.toNat < g.nModules) :
    ∃ b, writeFrames (.new g) ws = some b ∧ HoldsLast b ws ∧
      ∀ w : ModuleFrame × ModuleData, w.1.moduleId.toNat < g.nModules →
        ∃ b', b.writeFrame w.1 w.2 = some b' ∧ HoldsLast b' (ws ++ [w]) ∧ ChangesCell b b' w.1 := by
  obtain ⟨b, hb, href⟩ := writeFrames_refines ws (.new g) Cells.zero hws refines_new
  refine ⟨b, hb, href.holdsLast, ?_⟩
  intro w hw
  have hnext : Refines (b.storeCell (g.slotN w.1.pulseId) w.1.moduleId.toNat w.1 w.2)
      ((ws ++ [w]).foldl (Cells.write g) Cells.zero) := by
    rw [List.foldl_append]
    exact href.store hw
  exact ⟨_, writeFrame_eq b w.2 hw, hnext.holdsLast, storeCell_changesCell b w.1 w.2 hw⟩

/-- Two modules and three slots: module 1 wrote pulse 4 and then pulse 7 over it. -/
theorem ramBuffer_refines_map_twoModules :
    let g : Geometry := ⟨2, 3, by decide, by decide, by decide⟩
    let old : ModuleFrame × ModuleData := (⟨4, 10, 0, 128, 1⟩, fun _ => 1)
    let new : ModuleFrame × ModuleData := (⟨7, 11, 0, 127, 1⟩, fun _ => 2)
    ∃ b, writeFrames (.new g) [old, new] = some b ∧ b.readFrame 4 1 = some new ∧
      b.readFrame 4 0 = some (ModuleFrame.zero, fun _ => 0) := by
  intro g old new
  have hws : ∀ w ∈ [old, new], w.1.moduleId.toNat < g.nModules := by simp [g, old, new]
  obtain ⟨b, hb, hlast, _⟩ := ramBuffer_refines_map g [old, new] hws
  exact ⟨b, hb, (hlast.frame 4 1 (by decide)).trans (by simp [lastFrame, lastWrite, g, old, new]),
    (hlast.frame 4 0 (by decide)).trans (by simp [lastFrame, lastWrite, g, old, new])⟩

end Map

end SfDaqBuffer.CoreBuffer
