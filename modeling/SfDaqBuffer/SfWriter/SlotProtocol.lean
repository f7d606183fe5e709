/-
Slot protocol of sf-writer: whenever the main thread works on a block, its slot holds that block
of every module, each processed once since the slot was freed, and no reader is about to write to
the slot. Readers are at most two blocks ahead of the main thread; the invariant says what the
slots of the main thread's block and of the block after it hold.
-/
import SfDaqBuffer.SfWriter.Threads

namespace SfDaqBuffer.SfWriter

open ImageAssembler

variable {c : Request} {s s' : State}

/-! ## Blocks and slots -/

/-- The slot of `buffer_blocks[t]`. -/
def Request.slot (c : Request) (t : Nat) : Nat := (c.firstBlock + t) % writerIaNSlots

theorem block_toNat {t : Nat} (ht : t < c.nBlocks) : (c.block t).toNat = c.firstBlock + t := by
  have := c.blocks_lt
  unfold Request.block
  rw [UInt64.toNat_ofNat_of_lt' (by simp only [UInt64.size]; omega)]

theorem slotId_block {t : Nat} (ht : t < c.nBlocks) : slotId (c.block t) = c.slot t := by
  unfold slotId Request.slot
  rw [block_toNat ht]

theorem block_ne_empty {t : Nat} (ht : t < c.nBlocks) : c.block t ≠ iaEmptySlotValue := by
  intro h
  have hn := block_toNat ht
  have := c.firstBlock_pos
  rw [h] at hn
  change 0 = _ at hn
  omega

theorem block_inj {t t' : Nat} (ht : t < c.nBlocks) (ht' : t' < c.nBlocks) (h : c.block t = c.block t') :
    t = t' := by
  have hn := block_toNat ht
  rw [h, block_toNat ht'] at hn
  omega

theorem slot_inj {j t t' : Nat} (ht : j ≤ t ∧ t ≤ j + 1) (ht' : j ≤ t' ∧ t' ≤ j + 1)
    (h : c.slot t = c.slot t') : t = t' := by
  simp only [Request.slot, writerIaNSlots] at h
  omega

theorem slot_add_two (t : Nat) : c.slot (t + 2) = c.slot t := by
  simp only [Request.slot, writerIaNSlots]
  omega

/-! ## Progress of a reader -/

/-- The reader may work on the slot of its block. -/
def ReaderPhase.Granted : ReaderPhase → Prop
  | .acquire | .checkStatus _ => False
  | .getBlock | .copying _ | .release => True

/-- The reader has copied frame `i` of its block. -/
def ReaderPhase.Copied : ReaderPhase → Fin bufferBlockSize → Prop
  | .acquire, _ | .checkStatus _, _ | .getBlock, _ => False
  | .copying k, i => i < k
  | .release, _ => True

/-- Reader `m` is past block `t` or works on it. -/
def Past (s : State) (m t : Nat) : Prop :=
  t < (s.readers m).pos ∨ (s.readers m).pos = t ∧ (s.readers m).phase.Granted

/-- Reader `m` has copied frame `i` of block `t`. -/
def Filled (s : State) (m t : Nat) (i : Fin bufferBlockSize) : Prop :=
  t < (s.readers m).pos ∨ (s.readers m).pos = t ∧ (s.readers m).phase.Copied i

/-- The modules that have processed block `t`. -/
def finished (c : Request) (s : State) (t : Nat) : Finset Nat :=
  (Finset.range c.nModules).filter fun m => t < (s.readers m).pos

/-- The main thread is between the two stores of `free_slot` for block `t`. -/
def Freeing (s : State) (t : Nat) : Prop := s.main.pos = t ∧ s.main.phase = .resetBunchId

/-- The cell of a module and a frame holds what `get_block` delivered for block `t`. -/
def HoldsFrame (c : Request) (s : State) (t m : Nat) (i : Fin bufferBlockSize) : Prop :=
  s.assembler.cellMeta (c.slot t) m i = ((c.getBlock (c.block t) m).frame i).metadata ∧
    s.assembler.cellData (c.slot t) m i = ((c.getBlock (c.block t) m).frame i).data

/-- A step leaves a cell as it is. -/
def SameCell (s s' : State) (slot m : Nat) (i : Fin bufferBlockSize) : Prop :=
  s'.assembler.cellMeta slot m i = s.assembler.cellMeta slot m i ∧
    s'.assembler.cellData slot m i = s.assembler.cellData slot m i

/-! ## The invariant -/

/-- What the slot of block `t` holds while `t` is the main thread's block or the next one. -/
structure SlotInv (c : Request) (s : State) (t : Nat) : Prop where
  bunch : (s.assembler.bufferBunchId (c.slot t) = c.block t ∧ t < c.nBlocks) ∨
    (s.assembler.bufferBunchId (c.slot t) = iaEmptySlotValue ∧ ∀ m < c.nModules, ¬ Past s m t)
  status : ¬ Freeing s t → s.assembler.bufferStatus (c.slot t) = c.nModules - (finished c s t).card
  processed : ∀ m b, (s.processed (c.slot t)).count (m, b) =
    if m < c.nModules ∧ t < (s.readers m).pos ∧ b = c.block t then 1 else 0
  cells : ∀ m < c.nModules, ∀ i, Filled s m t i → HoldsFrame c s t m i
  freeing : Freeing s t → s.assembler.bufferStatus (c.slot t) = c.nModules

structure Inv (c : Request) (s : State) : Prop where
  nModules : s.assembler.nModules = c.nModules
  lower : ∀ m < c.nModules, s.main.pos ≤ (s.readers m).pos
  upper : ∀ m < c.nModules, (s.readers m).pos ≤ s.main.pos + 2
  bound : ∀ m < c.nModules, (s.readers m).pos ≤ c.nBlocks
  granted : ∀ m < c.nModules, (s.readers m).phase.Granted → (s.readers m).pos ≤ s.main.pos + 1
  seen : ∀ m < c.nModules, (s.readers m).pos < c.nBlocks →
    (s.readers m).phase = .checkStatus (c.block (s.readers m).pos) →
      s.assembler.bufferBunchId (c.slot (s.readers m).pos) = c.block (s.readers m).pos
  buffer : ∀ m < c.nModules, ∀ i, (s.readers m).phase = .copying i →
    (s.readers m).blockBuffer = c.getBlock (c.block (s.readers m).pos) m
  reading : s.main.phase ≠ .poll → s.main.pos < c.nBlocks ∧ ∀ m < c.nModules, s.main.pos < (s.readers m).pos
  slots : ∀ t, s.main.pos ≤ t ∧ t ≤ s.main.pos + 1 → SlotInv c s t

/-! ## What a slot's invariant depends on -/

/-- The step leaves the slot of block `t` as it is, except that it may assign the slot to `t` and
copy frames of `t` into it. -/
structure SlotFrame (c : Request) (s s' : State) (t : Nat) : Prop where
  bunch : (s'.assembler.bufferBunchId (c.slot t) = c.block t ∧ t < c.nBlocks) ∨
    (s'.assembler.bufferBunchId (c.slot t) = s.assembler.bufferBunchId (c.slot t) ∧
      ∀ m < c.nModules, Past s' m t → Past s m t)
  status : ¬ Freeing s' t →
    s'.assembler.bufferStatus (c.slot t) = s.assembler.bufferStatus (c.slot t)
  processed : s'.processed (c.slot t) = s.processed (c.slot t)
  cells : ∀ m < c.nModules, ∀ i, Filled s' m t i → HoldsFrame c s' t m i ∨
    Filled s m t i ∧ SameCell s s' (c.slot t) m i
  freeing : Freeing s t → Freeing s' t
  freed : Freeing s' t → s'.assembler.bufferStatus (c.slot t) = c.nModules ∨
    Freeing s t ∧ s'.assembler.bufferStatus (c.slot t) = s.assembler.bufferStatus (c.slot t)
  finished : ∀ m < c.nModules, t < (s'.readers m).pos ↔ t < (s.readers m).pos

theorem finished_congr {t : Nat} (h : ∀ m < c.nModules, t < (s'.readers m).pos ↔ t < (s.readers m).pos) :
    finished c s' t = finished c s t :=
  Finset.filter_congr fun m hm => h m (Finset.mem_range.1 hm)

theorem SlotInv.frame {t : Nat} (h : SlotInv c s t) (hf : SlotFrame c s s' t) : SlotInv c s' t := by
  refine ⟨?_, fun hfree => ?_, fun m b => ?_, fun m hm i hfill => ?_, fun hfree => ?_⟩
  · rcases hf.bunch with hb | ⟨hsame, hpast⟩
    · exact .inl hb
    · rw [hsame]
      exact h.bunch.imp_right fun ⟨hb, hnone⟩ => ⟨hb, fun m hm hp => hnone m hm (hpast m hm hp)⟩
  · rw [hf.status hfree, finished_congr hf.finished]
    exact h.status fun h' => hfree (hf.freeing h')
  · rw [hf.processed, h.processed]
    by_cases hm : m < c.nModules
    · simp only [hf.finished m hm]
    · simp only [hm, false_and]
  · rcases hf.cells m hm i hfill with hnew | ⟨hfill', hmeta, hdata⟩
    · exact hnew
    · obtain ⟨h1, h2⟩ := h.cells m hm i hfill'
      exact ⟨hmeta.trans h1, hdata.trans h2⟩
  · rcases hf.freed hfree with hn | ⟨hold, hsame⟩
    · exact hn
    · exact hsame.trans (h.freeing hold)

/-! ## The initial state -/

theorem new_fields (n : Nat) (imageBuffer : Nat → UInt8) (metaBuffer : Nat → ImageMetadataBlock)
    (frameMetaBuffer : Nat → ModuleFrame) (bufferStatus : Nat → Int) (bufferBunchId : Nat → UInt64)
    {slot : Nat} (hs : slot < writerIaNSlots) :
    let ia := ImageAssembler.new n imageBuffer metaBuffer frameMetaBuffer bufferStatus bufferBunchId
    ia.nModules = n ∧ ia.bufferStatus slot = n ∧ ia.bufferBunchId slot = iaEmptySlotValue := by
  refine ⟨rfl, ?_⟩
  rcases Nat.lt_succ_iff_lt_or_eq.1 hs with h | rfl
  · obtain rfl : slot = 0 := by omega
    exact ⟨rfl, rfl⟩
  · exact ⟨rfl, rfl⟩

theorem init_inv (h : Init c s) : Inv c s := by
  obtain ⟨⟨imageBuffer, metaBuffer, frameMetaBuffer, bufferStatus, bufferBunchId, hia⟩, hr, hmain, hproc⟩ := h
  have hslot : ∀ t, c.slot t < writerIaNSlots := fun t => Nat.mod_lt _ (by decide)
  have hphase : ∀ m, ¬ (s.readers m).phase.Granted := fun m => by rw [(hr m).2]; exact id
  have hpos : ∀ m t, ¬ t < (s.readers m).pos := fun m t => by rw [(hr m).1]; exact Nat.not_lt_zero t
  refine ⟨by rw [hia]; rfl, fun m _ => ?_, fun m _ => ?_, fun m _ => ?_, fun m _ hg => absurd hg (hphase m),
    fun m _ _ h => ?_, fun m _ i h => ?_, fun h => absurd (by rw [hmain]) h, fun t _ => ?_⟩
  · rw [hmain]; exact Nat.zero_le _
  · rw [(hr m).1]; exact Nat.zero_le _
  · rw [(hr m).1]; exact Nat.zero_le _
  · rw [(hr m).2] at h; cases h
  · rw [(hr m).2] at h; cases h
  · obtain ⟨-, hst, hbunch⟩ := new_fields c.nModules imageBuffer metaBuffer frameMetaBuffer bufferStatus
      bufferBunchId (hslot t)
    refine ⟨.inr ⟨by rw [hia]; exact hbunch, fun m _ hp => ?_⟩, fun _ => ?_, fun m b => ?_, fun m _ i hf => ?_,
      fun _ => by rw [hia]; exact hst⟩
    · rcases hp with hp | ⟨-, hp⟩
      · exact hpos m t hp
      · exact hphase m hp
    · have hnone : finished c s t = ∅ := Finset.filter_eq_empty_iff.2 fun m _ => hpos m t
      rw [hia, hnone]
      simpa using hst
    · rw [hproc, if_neg fun h => hpos m t h.2.1]
      rfl
    · rcases hf with hf | ⟨-, hf⟩
      · exact absurd hf (hpos m t)
      · rw [(hr m).2] at hf; exact hf.elim

/-! ## Steps of a reader -/

/-- A slot whose bunch_id the reader can store or has stored is not two blocks ahead: the main
thread has not freed it for that block. -/
theorem Inv.pos_le (h : Inv c s) {m : Nat} (hm : m < c.nModules) (hk : (s.readers m).pos < c.nBlocks)
    (hb : s.assembler.bufferBunchId (c.slot (s.readers m).pos) = iaEmptySlotValue ∨
      s.assembler.bufferBunchId (c.slot (s.readers m).pos) = c.block (s.readers m).pos) :
    (s.readers m).pos ≤ s.main.pos + 1 := by
  by_contra hlt
  have hpos : (s.readers m).pos = s.main.pos + 2 := by have := h.upper m hm; omega
  have hmain : s.main.pos < c.nBlocks := by omega
  rw [hpos, slot_add_two] at hb
  rcases (h.slots s.main.pos ⟨le_refl _, by omega⟩).bunch with ⟨hcur, -⟩ | ⟨-, hnone⟩
  · rw [hcur] at hb
    rcases hb with hb | hb
    · exact block_ne_empty hmain hb
    · have := block_inj hmain (by omega) hb
      omega
  · exact hnone m hm (.inl (by omega))

/-- What holds of all readers after one of them moved to `r`. -/
theorem forall_moved {P : Nat → Reader → Prop} {m n : Nat} {r : Reader}
    (hreaders : s'.readers = Function.update s.readers m r) (hr : P m r)
    (hall : ∀ q < n, P q (s.readers q)) : ∀ q < n, P q (s'.readers q) := by
  intro q hq
  rw [hreaders]
  by_cases hqm : q = m
  · subst hqm
    rw [Function.update_self]
    exact hr
  · rw [Function.update_of_ne hqm]
    exact hall q hq

/-- A step of reader `m` that leaves it at a legal place `r` keeps the invariant if it keeps what
the slots hold. -/
theorem Inv.reader (h : Inv c s) {m : Nat} (hm : m < c.nModules) {r : Reader} (hmain : s'.main = s.main)
    (hn : s'.assembler.nModules = s.assembler.nModules)
    (hreaders : s'.readers = Function.update s.readers m r)
    (hpos : (s.readers m).pos ≤ r.pos ∧ r.pos ≤ s.main.pos + 2 ∧ r.pos ≤ c.nBlocks)
    (hgranted : r.phase.Granted → r.pos ≤ s.main.pos + 1)
    (hseen : r.phase = .checkStatus (c.block r.pos) →
      s'.assembler.bufferBunchId (c.slot r.pos) = c.block r.pos)
    (hbuffer : ∀ i, r.phase = .copying i → r.blockBuffer = c.getBlock (c.block r.pos) m)
    (hbunch : ∀ t < c.nBlocks, s.assembler.bufferBunchId (c.slot t) = c.block t →
      s'.assembler.bufferBunchId (c.slot t) = c.block t)
    (hslots : ∀ t, s.main.pos ≤ t ∧ t ≤ s.main.pos + 1 → SlotInv c s' t) : Inv c s' where
  nModules := hn.trans h.nModules
  lower := by
    rw [hmain]
    exact forall_moved hreaders (P := fun _ r => s.main.pos ≤ r.pos) ((h.lower m hm).trans hpos.1) h.lower
  upper := by
    rw [hmain]
    exact forall_moved hreaders (P := fun _ r => r.pos ≤ s.main.pos + 2) hpos.2.1 h.upper
  bound := forall_moved hreaders (P := fun _ r => r.pos ≤ c.nBlocks) hpos.2.2 h.bound
  granted := by
    rw [hmain]
    exact forall_moved hreaders (P := fun _ r => r.phase.Granted → r.pos ≤ s.main.pos + 1) hgranted h.granted
  seen := forall_moved hreaders
    (P := fun _ r => r.pos < c.nBlocks → r.phase = .checkStatus (c.block r.pos) →
      s'.assembler.bufferBunchId (c.slot r.pos) = c.block r.pos)
    (fun _ => hseen) fun q hq hlt hp => hbunch _ hlt (h.seen q hq hlt hp)
  buffer := forall_moved hreaders
    (P := fun q r => ∀ i, r.phase = .copying i → r.blockBuffer = c.getBlock (c.block r.pos) q) hbuffer h.buffer
  reading := by
    rw [hmain]
    intro hp
    obtain ⟨hlt, hall⟩ := h.reading hp
    exact ⟨hlt, forall_moved hreaders (P := fun _ r => s.main.pos < r.pos)
      (lt_of_lt_of_le (hall m hm) hpos.1) hall⟩
  slots := by rw [hmain]; exact hslots

/-- What a reader that stays at its block has copied after the step. -/
theorem filled_moved {m q t : Nat} {r : Reader} {i : Fin bufferBlockSize}
    (hreaders : s'.readers = Function.update s.readers m r) (hpos : r.pos = (s.readers m).pos)
    (hf : Filled s' q t i) : Filled s q t i ∨ q = m ∧ r.pos = t ∧ r.phase.Copied i := by
  unfold Filled at hf
  rw [hreaders] at hf
  by_cases hqm : q = m
  · subst hqm
    rw [Function.update_self] at hf
    exact hf.imp (fun hlt => .inl (hpos ▸ hlt)) fun hc => ⟨rfl, hc⟩
  · rw [Function.update_of_ne hqm] at hf
    exact .inl hf

/-- A reader that stays at its block leaves the status and the history of a slot as they are. -/
theorem SlotFrame.ofReader {m t : Nat} {r : Reader} (hmain : s'.main = s.main)
    (hreaders : s'.readers = Function.update s.readers m r) (hproc : s'.processed = s.processed)
    (hstatus : s'.assembler.bufferStatus = s.assembler.bufferStatus) (hpos : r.pos = (s.readers m).pos)
    (hbunch : (s'.assembler.bufferBunchId (c.slot t) = c.block t ∧ t < c.nBlocks) ∨
      (s'.assembler.bufferBunchId (c.slot t) = s.assembler.bufferBunchId (c.slot t) ∧
        (r.phase.Granted → r.pos ≠ t)))
    (hcells : ∀ q < c.nModules, ∀ i, Filled s q t i ∨ q = m ∧ r.pos = t ∧ r.phase.Copied i →
      HoldsFrame c s' t q i ∨ Filled s q t i ∧ SameCell s s' (c.slot t) q i) : SlotFrame c s s' t where
  bunch := hbunch.imp_right fun ⟨hsame, hgranted⟩ => ⟨hsame, forall_moved hreaders
    (P := fun q r => t < r.pos ∨ r.pos = t ∧ r.phase.Granted → Past s q t)
    (fun hp => hp.elim (fun hlt => .inl (hpos ▸ hlt)) fun hc => absurd hc.1 (hgranted hc.2))
    fun _ _ hp => hp⟩
  status _ := by rw [hstatus]
  processed := by rw [hproc]
  freeing := by unfold Freeing; rw [hmain]; exact id
  freed := by unfold Freeing; rw [hmain, hstatus]; exact fun hf => .inr ⟨hf, rfl⟩
  finished := forall_moved hreaders (P := fun q r => t < r.pos ↔ t < (s.readers q).pos)
    (by rw [hpos]) fun _ _ => Iff.rfl
  cells := fun q hq i hf => hcells q hq i (filled_moved hreaders hpos hf)

section Reader

variable {m : Nat} (h : Inv c s) (hm : m < c.nModules) (hk : (s.readers m).pos < c.nBlocks)

include h hm hk

/-- A step that only moves reader `m` to another place of its round, with nothing copied. -/
theorem phase_inv {p : ReaderPhase} {b : BufferBinaryBlock} (hcopied : ∀ i, ¬ p.Copied i)
    (hgranted : p.Granted →
      s.assembler.bufferBunchId (c.slot (s.readers m).pos) = c.block (s.readers m).pos)
    (hseen : p = .checkStatus (c.block (s.readers m).pos) →
      s.assembler.bufferBunchId (c.slot (s.readers m).pos) = c.block (s.readers m).pos)
    (hbuffer : ∀ i, p = .copying i → b = c.getBlock (c.block (s.readers m).pos) m) :
    Inv c (s.setReader m ⟨(s.readers m).pos, p, b⟩) := by
  refine h.reader hm rfl rfl rfl ⟨le_refl _, h.upper m hm, h.bound m hm⟩
    (fun hg => h.pos_le hm hk (.inr (hgranted hg))) hseen hbuffer (fun _ _ hb => hb) fun t ht => ?_
  refine (h.slots t ht).frame (.ofReader rfl rfl rfl rfl rfl ?_ fun q _ i hf => .inr ⟨?_, rfl, rfl⟩)
  rotate_left
  · exact hf.resolve_right fun hc => hcopied i hc.2.2
  by_cases hg : p.Granted ∧ (s.readers m).pos = t
  · obtain ⟨hg, rfl⟩ := hg
    exact .inl ⟨hgranted hg, hk⟩
  · exact .inr ⟨rfl, fun hp hpos => hg ⟨hp, hpos⟩⟩

/-- The compare-exchange. -/
theorem acquire_inv (hphase : (s.readers m).phase = .acquire) :
    Inv c (readerStep c m s (s.readers m) (c.block (s.readers m).pos)) := by
  unfold readerStep tryAcquire
  rw [hphase]
  simp only [slotId_block hk]
  by_cases hempty : s.assembler.bufferBunchId (c.slot (s.readers m).pos) = iaEmptySlotValue
  · rw [if_pos hempty]
    have hle := h.pos_le hm hk (.inl hempty)
    refine h.reader hm rfl rfl rfl ⟨le_refl _, h.upper m hm, h.bound m hm⟩ (fun _ => hle)
      (fun hp => by cases hp) (fun i hp => by cases hp) (fun t ht hb => ?_) fun t ht => ?_
    · by_cases hslot : c.slot t = c.slot (s.readers m).pos
      · rw [hslot, hempty] at hb
        exact absurd hb.symm (block_ne_empty ht)
      · simp only [Function.update_of_ne hslot]
        exact hb
    · refine (h.slots t ht).frame (.ofReader rfl rfl rfl rfl rfl ?_ fun q _ i hf => .inr ⟨?_, rfl, rfl⟩)
      rotate_left
      · exact hf.resolve_right fun hc => hc.2.2
      by_cases hslot : c.slot t = c.slot (s.readers m).pos
      · obtain rfl := slot_inj ht ⟨h.lower m hm, hle⟩ hslot
        exact .inl ⟨Function.update_self .., hk⟩
      · refine .inr ⟨Function.update_of_ne hslot .., ?_⟩
        rintro - rfl
        exact hslot rfl
  · rw [if_neg hempty]
    refine phase_inv h hm hk (fun _ hi => hi) (fun hg => hg.elim) (fun hp => ?_) (fun i hp => by cases hp)
    exact ReaderPhase.checkStatus.inj hp

/-- The status load. -/
theorem checkStatus_inv {seen : UInt64} (hphase : (s.readers m).phase = .checkStatus seen) :
    Inv c (readerStep c m s (s.readers m) (c.block (s.readers m).pos)) := by
  unfold readerStep isFreeFor
  rw [hphase]
  simp only
  split
  · rename_i hfree
    have hseen : seen = c.block (s.readers m).pos := beq_iff_eq.1 (Bool.and_eq_true_iff.1 hfree).2
    have hb := h.seen m hm hk (by rw [hphase, hseen])
    exact phase_inv h hm hk (fun _ hi => hi) (fun _ => hb) (fun hp => by cases hp) (fun i hp => by cases hp)
  · exact phase_inv h hm hk (fun _ hi => hi) (fun hg => hg.elim) (fun hp => by cases hp)
      (fun i hp => by cases hp)

omit hk in
/-- A granted reader owns the slot of its block. -/
theorem granted_bunch (hg : (s.readers m).phase.Granted) :
    s.assembler.bufferBunchId (c.slot (s.readers m).pos) = c.block (s.readers m).pos := by
  rcases (h.slots _ ⟨h.lower m hm, h.granted m hm hg⟩).bunch with ⟨hb, -⟩ | ⟨-, hnone⟩
  · exact hb
  · exact absurd (.inr ⟨rfl, hg⟩) (hnone m hm)

theorem getBlock_inv (hphase : (s.readers m).phase = .getBlock) :
    Inv c (readerStep c m s (s.readers m) (c.block (s.readers m).pos)) := by
  have hb := granted_bunch h hm (by rw [hphase]; trivial)
  unfold readerStep
  rw [hphase]
  exact phase_inv h hm hk (fun i hi => Nat.not_lt_zero _ hi) (fun _ => hb) (fun hp => by cases hp)
    fun _ _ => rfl

/-- One round of the loop of `process`. -/
theorem copying_inv {i : Fin bufferBlockSize} (hphase : (s.readers m).phase = .copying i) :
    Inv c (readerStep c m s (s.readers m) (c.block (s.readers m).pos)) := by
  have hg : (s.readers m).phase.Granted := by rw [hphase]; trivial
  have hle := h.granted m hm hg
  have hb := granted_bunch h hm hg
  have hbuf := h.buffer m hm i hphase
  unfold readerStep
  rw [hphase]
  simp only
  generalize hp : (if h : (i : Nat) + 1 < bufferBlockSize then ReaderPhase.copying ⟨i + 1, h⟩ else .release) = p
  have hp' : p = .release ∧ ¬ (i : Nat) + 1 < bufferBlockSize ∨
      ∃ hlt : (i : Nat) + 1 < bufferBlockSize, p = .copying ⟨i + 1, hlt⟩ := by
    rw [← hp]
    split
    · rename_i hlt; exact .inr ⟨hlt, rfl⟩
    · rename_i hlt; exact .inl ⟨rfl, hlt⟩
  have hcopied : ∀ i', p.Copied i' → i' = i ∨ i' < i := by
    intro i' hi'
    rcases hp' with ⟨rfl, hlt⟩ | ⟨hlt, rfl⟩
    · have := i'.2
      exact le_iff_eq_or_lt.1 (Fin.le_def.2 (by omega))
    · have : (i' : Nat) < i + 1 := hi'
      exact le_iff_eq_or_lt.1 (Fin.le_def.2 (by omega))
  have hslot := slotId_block hk
  refine h.reader hm rfl (copyFrame_nModules ..) rfl ⟨le_refl _, h.upper m hm, h.bound m hm⟩ (fun _ => hle) ?_
    (fun _ _ => hbuf) (fun _ _ hb => by rw [copyFrame_bufferBunchId]; exact hb) fun t ht => ?_
  · intro hs
    rcases hp' with ⟨hp', -⟩ | ⟨_, hp'⟩ <;> rw [hp'] at hs <;> cases hs
  · refine (h.slots t ht).frame
      (.ofReader rfl rfl rfl (copyFrame_bufferStatus ..) rfl ?_ fun q hq i' hf => ?_)
    · simp only [copyFrame_bufferBunchId]
      by_cases ht' : (s.readers m).pos = t
      · subst ht'
        exact .inl ⟨hb, hk⟩
      · exact .inr ⟨trivial, fun _ => ht'⟩
    · by_cases hcell : c.slot t = slotId (c.block (s.readers m).pos) ∧ q = m ∧ i' = i
      · -- the cell that is written
        obtain ⟨hst, rfl, rfl⟩ := hcell
        obtain rfl := slot_inj ht ⟨h.lower q hm, hle⟩ (hst.trans hslot)
        obtain ⟨h1, h2⟩ := cell_copyFrame_same s.assembler (c.block (s.readers q).pos) q
          (s.readers q).blockBuffer i'
        rw [hslot, hbuf] at h1 h2
        exact .inl ⟨by rw [hbuf]; exact h1, by rw [hbuf]; exact h2⟩
      · refine .inr ⟨?_, cell_copyFrame_other _ (by rw [h.nModules]; exact hm) (by rw [h.nModules]; exact hq) hcell⟩
        rcases hf with hf | ⟨rfl, rfl, hc⟩
        · exact hf
        · rcases hcopied i' hc with rfl | hlt
          · exact absurd ⟨hslot.symm, rfl, rfl⟩ hcell
          · exact .inr ⟨rfl, by rw [hphase]; exact hlt⟩

/-- In `s'` the reader has processed its block. -/
structure Released (c : Request) (m : Nat) (s s' : State) : Prop where
  main : s'.main = s.main
  pos : (s'.readers m).pos = (s.readers m).pos + 1
  phase : (s'.readers m).phase = .acquire
  others : ∀ q, q ≠ m → s'.readers q = s.readers q
  assembler : s'.assembler = s.assembler.releaseModule (c.block (s.readers m).pos)
  processed : s'.processed = Function.update s.processed (c.slot (s.readers m).pos)
    (s.processed (c.slot (s.readers m).pos) ++ [(m, c.block (s.readers m).pos)])

/-- The slot of the block that the reader has processed. -/
theorem released_own (hphase : (s.readers m).phase = .release) (hr : Released c m s s') :
    SlotInv c s' (s.readers m).pos := by
  have hg : (s.readers m).phase.Granted := by rw [hphase]; trivial
  have hs := h.slots _ ⟨h.lower m hm, h.granted m hm hg⟩
  have hm' : (s.readers m).pos < (s'.readers m).pos := by rw [hr.pos]; exact Nat.lt_succ_self _
  have hst : slotId (c.block (s.readers m).pos) = c.slot (s.readers m).pos := slotId_block hk
  refine ⟨.inl ⟨?_, hk⟩, fun hfree => ?_, fun q b => ?_, fun q hq i hf => ?_, fun hfree => ?_⟩
  · rw [hr.assembler]
    exact granted_bunch h hm hg
  · -- the module joins those that have processed the block
    have hfin : finished c s' (s.readers m).pos = insert m (finished c s (s.readers m).pos) := by
      ext q
      simp only [finished, Finset.mem_filter, Finset.mem_range, Finset.mem_insert]
      by_cases hqm : q = m
      · subst hqm; simp [hm, hm']
      · simp [hqm, hr.others q hqm]
    have hnot : m ∉ finished c s (s.readers m).pos := by simp [finished]
    have hold := hs.status fun hf => hfree (by unfold Freeing at hf ⊢; rw [hr.main]; exact hf)
    rw [hfin, Finset.card_insert_of_notMem hnot, hr.assembler]
    unfold releaseModule
    simp only [hst, Function.update_self, hold, Nat.cast_add, Nat.cast_one]
    ring
  · rw [hr.processed, Function.update_self, List.count_append, hs.processed]
    by_cases hqm : q = m
    · subst hqm
      by_cases hbk : b = c.block (s.readers q).pos
      · subst hbk; simp [hm, hm']
      · simp [hbk, Ne.symm hbk]
    · simp [hr.others q hqm, Ne.symm hqm]
  · rw [HoldsFrame, hr.assembler]
    apply hs.cells q hq i
    by_cases hqm : q = m
    · subst hqm
      exact .inr ⟨rfl, by rw [hphase]; trivial⟩
    · unfold Filled at hf ⊢
      rw [hr.others q hqm] at hf
      exact hf
  · -- the main thread frees a slot only after all modules are past its block
    unfold Freeing at hfree
    rw [hr.main] at hfree
    have := (h.reading (by rw [hfree.2]; decide)).2 m hm
    omega

/-- The other slot keeps what it holds. -/
theorem released_other {t : Nat} (ht : s.main.pos ≤ t ∧ t ≤ s.main.pos + 1)
    (hphase : (s.readers m).phase = .release) (hr : Released c m s s') (hkt : (s.readers m).pos ≠ t) :
    SlotInv c s' t := by
  have hg : (s.readers m).phase.Granted := by rw [hphase]; trivial
  have hslot : c.slot t ≠ c.slot (s.readers m).pos := fun e =>
    hkt (slot_inj ht ⟨h.lower m hm, h.granted m hm hg⟩ e).symm
  have hslot' : c.slot t ≠ slotId (c.block (s.readers m).pos) := by rw [slotId_block hk]; exact hslot
  have hpos : ∀ q, t < (s'.readers q).pos ↔ t < (s.readers q).pos := by
    intro q
    by_cases hqm : q = m
    · subst hqm; rw [hr.pos]; omega
    · rw [hr.others q hqm]
  have hstatus : s'.assembler.bufferStatus (c.slot t) = s.assembler.bufferStatus (c.slot t) := by
    rw [hr.assembler]
    exact Function.update_of_ne hslot' ..
  refine (h.slots t ht).frame ⟨.inr ⟨by rw [hr.assembler]; rfl, fun q _ hp => ?_⟩, fun _ => hstatus, ?_,
    fun q _ i hf => .inr ⟨?_, ?_⟩, fun hf => ?_, fun hf => .inr ⟨?_, hstatus⟩, fun q _ => hpos q⟩
  · rcases hp with hlt | ⟨hq, hgr⟩
    · exact .inl ((hpos q).1 hlt)
    · by_cases hqm : q = m
      · subst hqm; rw [hr.phase] at hgr; exact hgr.elim
      · rw [hr.others q hqm] at hq hgr; exact .inr ⟨hq, hgr⟩
  · rw [hr.processed]
    exact Function.update_of_ne hslot ..
  · rcases hf with hlt | ⟨hq, hc⟩
    · exact .inl ((hpos q).1 hlt)
    · by_cases hqm : q = m
      · subst hqm; rw [hr.phase] at hc; exact hc.elim
      · rw [hr.others q hqm] at hq hc; exact .inr ⟨hq, hc⟩
  · rw [SameCell, hr.assembler]
    exact ⟨rfl, rfl⟩
  · unfold Freeing at hf ⊢
    rw [hr.main]
    exact hf
  · unfold Freeing at hf ⊢
    rw [← hr.main]
    exact hf

theorem released_slot {t : Nat} (ht : s.main.pos ≤ t ∧ t ≤ s.main.pos + 1)
    (hphase : (s.readers m).phase = .release) (hr : Released c m s s') : SlotInv c s' t := by
  by_cases hkt : (s.readers m).pos = t
  · subst hkt
    exact released_own h hm hk hphase hr
  · exact released_other h hm hk ht hphase hr hkt

/-- The `fetch_sub`. -/
theorem release_inv (hphase : (s.readers m).phase = .release) :
    Inv c (readerStep c m s (s.readers m) (c.block (s.readers m).pos)) := by
  have hg : (s.readers m).phase.Granted := by rw [hphase]; trivial
  have hle := h.granted m hm hg
  have hb := granted_bunch h hm hg
  unfold readerStep
  rw [hphase]
  simp only [slotId_block hk]
  refine h.reader hm rfl rfl rfl ⟨Nat.le_succ _, Nat.succ_le_succ hle, hk⟩ (fun hg => hg.elim)
    (fun hp => by cases hp) (fun _ hp => by cases hp) (fun _ _ hb => hb) fun t ht => ?_
  exact released_slot h hm hk ht hphase ⟨rfl, by simp, by simp, fun _ hq => s.setReader_other hq _, rfl, rfl⟩

end Reader

theorem readerStep_inv {m : Nat} (h : Inv c s) (hm : m < c.nModules) (hk : (s.readers m).pos < c.nBlocks) :
    Inv c (readerStep c m s (s.readers m) (c.block (s.readers m).pos)) := by
  cases hphase : (s.readers m).phase with
  | acquire => exact acquire_inv h hm hk hphase
  | checkStatus seen => exact checkStatus_inv h hm hk hphase
  | getBlock => exact getBlock_inv h hm hk hphase
  | copying i => exact copying_inv h hm hk hphase
  | release => exact release_inv h hm hk hphase

/-! ## Steps of the main thread -/

/-- A step of the main thread within its round. -/
theorem Inv.mainPhase (h : Inv c s) {p : MainPhase} {ia : ImageAssembler} (hold : s.main.phase ≠ .resetBunchId)
    (hn : ia.nModules = s.assembler.nModules) (hbunch : ia.bufferBunchId = s.assembler.bufferBunchId)
    (hstatus : ∀ t, s.main.pos ≤ t ∧ t ≤ s.main.pos + 1 → ¬ (s.main.pos = t ∧ p = .resetBunchId) →
      ia.bufferStatus (c.slot t) = s.assembler.bufferStatus (c.slot t))
    (hfreed : p = .resetBunchId → ia.bufferStatus (c.slot s.main.pos) = c.nModules)
    (himage : ia.imageBuffer = s.assembler.imageBuffer) (hmeta : ia.frameMetaBuffer = s.assembler.frameMetaBuffer)
    (hreading : s.main.pos < c.nBlocks ∧ ∀ m < c.nModules, s.main.pos < (s.readers m).pos) :
    Inv c { s with assembler := ia, main := ⟨s.main.pos, p⟩ } where
  nModules := hn.trans h.nModules
  lower := h.lower
  upper := h.upper
  bound := h.bound
  granted := h.granted
  seen := by rw [hbunch]; exact h.seen
  buffer := h.buffer
  reading _ := hreading
  slots t ht := by
    refine (h.slots t ht).frame ⟨.inr ⟨by rw [hbunch], fun _ _ hp => hp⟩, hstatus t ht, rfl, fun m _ i hf => ?_,
      fun hf => absurd hf.2 hold, ?_, fun _ _ => Iff.rfl⟩
    rotate_left
    · rintro ⟨rfl, hp⟩
      exact .inl (hfreed hp)
    refine .inr ⟨hf, ?_, ?_⟩
    · unfold cellMeta metaOffset getMetadataOffset
      rw [hn, hmeta]
    · unfold cellData imageOffset getDataOffset imageBufferSlotNBytes
      rw [hn, himage]

/-- A full slot has been processed by all modules. -/
theorem all_past (h : Inv c s) (hpoll : s.main.phase = .poll)
    (hfull : s.assembler.bufferStatus (c.slot s.main.pos) = 0) :
    ∀ m < c.nModules, s.main.pos < (s.readers m).pos := by
  have hs := (h.slots s.main.pos ⟨le_refl _, Nat.le_succ _⟩).status fun hf => by
    rw [Freeing, hpoll] at hf; cases hf.2
  rw [hfull] at hs
  have hcard : (finished c s s.main.pos).card = (Finset.range c.nModules).card := by
    rw [Finset.card_range]; omega
  have hall := Finset.eq_of_subset_of_card_le (Finset.filter_subset _ _) hcard.ge
  intro m hm
  have hmem : m ∈ Finset.range c.nModules := Finset.mem_range.2 hm
  rw [← hall] at hmem
  exact (Finset.mem_filter.1 hmem).2

/-- The second store of `free_slot` makes the slot the empty slot of the block after the next. -/
theorem freed_inv (h : Inv c s) (hj : s.main.pos < c.nBlocks) (hphase : s.main.phase = .resetBunchId) :
    Inv c (mainStep s (c.block s.main.pos)) := by
  obtain ⟨-, hall⟩ := h.reading (by rw [hphase]; decide)
  unfold mainStep resetBunchId
  rw [hphase]
  simp only [slotId_block hj]
  refine ⟨h.nModules, fun m hm => hall m hm, fun m hm => ?_, h.bound, fun m hm hg => ?_, fun m hm hk hp => ?_,
    h.buffer, fun hp => absurd rfl hp, fun t ht => ?_⟩
  · exact (h.upper m hm).trans (Nat.le_succ _)
  · exact (h.granted m hm hg).trans (Nat.le_succ _)
  · have hb := h.seen m hm hk hp
    have hle := h.pos_le hm hk (.inr hb)
    have hlt := hall m hm
    have hslot : c.slot (s.readers m).pos ≠ c.slot s.main.pos := fun e => by
      have := slot_inj ⟨h.lower m hm, hle⟩ ⟨le_refl _, Nat.le_succ _⟩ e
      omega
    simp only [Function.update_of_ne hslot]
    exact hb
  · by_cases htj : t = s.main.pos + 1
    · -- the block after this one keeps its slot
      have hslot : c.slot t ≠ c.slot s.main.pos := fun e => by
        have := slot_inj ⟨by omega, by omega⟩ ⟨le_refl _, Nat.le_succ _⟩ e
        omega
      refine (h.slots t ⟨by omega, by omega⟩).frame ⟨.inr ⟨Function.update_of_ne hslot .., fun _ _ hp => hp⟩,
        fun _ => rfl, Function.update_of_ne hslot .., fun m _ i hf => .inr ⟨hf, rfl, rfl⟩, fun hf => ?_,
        fun hf => (by cases hf.2), fun _ _ => Iff.rfl⟩
      have := hf.1
      omega
    · -- the freed slot is that of the block after the next, which no reader has been granted
      obtain rfl : t = s.main.pos + 2 := by simp only at ht; omega
      have hlt : ∀ m < c.nModules, ¬ s.main.pos + 2 < (s.readers m).pos := fun m hm =>
        not_lt.2 (h.upper m hm)
      have hnot : ∀ m < c.nModules, (s.readers m).pos = s.main.pos + 2 → ¬ (s.readers m).phase.Granted :=
        fun m hm hpos hg => by
          have := h.granted m hm hg
          omega
      have hst := (h.slots s.main.pos ⟨le_refl _, Nat.le_succ _⟩).freeing ⟨rfl, hphase⟩
      refine ⟨.inr ⟨by rw [slot_add_two]; exact Function.update_self .., fun m hm hp => ?_⟩, fun _ => ?_,
        fun m b => ?_, fun m hm i hf => ?_, fun hf => (by cases hf.2)⟩
      · rcases hp with hp | ⟨hpos, hg⟩
        · exact hlt m hm hp
        · exact hnot m hm hpos hg
      · rw [finished, Finset.filter_eq_empty_iff.2 fun m hm => hlt m (Finset.mem_range.1 hm), slot_add_two]
        simpa using hst
      · simp only [slot_add_two, Function.update_self, List.count_nil]
        rw [if_neg fun hc => hlt m hc.1 hc.2.1]
      · rcases hf with hf | ⟨hpos, hc⟩
        · exact absurd hf (hlt m hm)
        · refine absurd ?_ (hnot m hm hpos)
          simp only at hc
          cases hp : (s.readers m).phase <;> rw [hp] at hc <;> first | exact hc.elim | trivial

theorem mainStep_inv (h : Inv c s) (hj : s.main.pos < c.nBlocks) : Inv c (mainStep s (c.block s.main.pos)) := by
  cases hphase : s.main.phase with
  | poll =>
    unfold mainStep isSlotFull
    rw [hphase]
    simp only [slotId_block hj]
    split
    · rename_i hfull
      exact h.mainPhase (by rw [hphase]; decide) rfl rfl (fun _ _ _ => rfl) (fun hp => by cases hp) rfl rfl
        ⟨hj, all_past h hphase (beq_iff_eq.1 hfull)⟩
    · exact h
  | getMetadata =>
    have hread := h.reading (by rw [hphase]; decide)
    unfold mainStep getMetadataBuffer
    rw [hphase]
    exact h.mainPhase (by rw [hphase]; decide) rfl rfl (fun _ _ _ => rfl) (fun hp => by cases hp) rfl rfl hread
  | write =>
    have hread := h.reading (by rw [hphase]; decide)
    unfold mainStep
    rw [hphase]
    exact h.mainPhase (by rw [hphase]; decide) rfl rfl (fun _ _ _ => rfl) (fun hp => by cases hp) rfl rfl hread
  | resetStatus =>
    have hread := h.reading (by rw [hphase]; decide)
    unfold mainStep resetStatus
    rw [hphase]
    simp only [slotId_block hj]
    refine h.mainPhase (by rw [hphase]; decide) rfl rfl (fun t ht hne => ?_) (fun _ => ?_) rfl rfl hread
    rotate_left
    · simp only [Function.update_self, h.nModules]
    have hslot : c.slot t ≠ c.slot s.main.pos := fun e =>
      hne ⟨(slot_inj ht ⟨le_refl _, Nat.le_succ _⟩ e).symm, rfl⟩
    exact Function.update_of_ne hslot ..
  | resetBunchId => exact freed_inv h hj hphase

theorem step_inv {a : Thread} (h : Inv c s) (hs : step c a s = some s') : Inv c s' := by
  cases a with
  | reader m =>
    simp only [step] at hs
    split at hs
    · rename_i hmk
      obtain rfl := Option.some.inj hs
      exact readerStep_inv h hmk.1 hmk.2
    · cases hs
  | main =>
    simp only [step] at hs
    split at hs
    · rename_i hj
      obtain rfl := Option.some.inj hs
      exact mainStep_inv h hj
    · cases hs

theorem reachable_inv (h : Reachable c s) : Inv c s :=
  h.invariant (fun _ => init_inv) fun _ _ _ hi hs => step_inv hi hs

/-! ## Safety -/

/-- The main thread reads the slot of its block. -/
def MainPhase.Reads (p : MainPhase) : Prop := p = .getMetadata ∨ p = .write

/-- The modules that have processed the current block of a slot. -/
def processedBy (c : Request) (s : State) (slot : Nat) : Finset Nat :=
  (Finset.range c.nModules).filter fun m => (m, s.assembler.bufferBunchId slot) ∈ s.processed slot

theorem mem_processed {t m : Nat} {b : UInt64} (hs : SlotInv c s t) :
    (m, b) ∈ s.processed (c.slot t) ↔ m < c.nModules ∧ t < (s.readers m).pos ∧ b = c.block t := by
  rw [← List.count_pos_iff, hs.processed]
  split <;> simp_all

theorem processedBy_eq {t : Nat} (hs : SlotInv c s t) : processedBy c s (c.slot t) = finished c s t := by
  refine Finset.filter_congr fun m hm => ?_
  rw [mem_processed hs]
  rcases hs.bunch with ⟨hb, -⟩ | ⟨-, hnone⟩
  · rw [hb]
    exact ⟨fun h => h.2.1, fun h => ⟨Finset.mem_range.1 hm, h, rfl⟩⟩
  · have hnot : ¬ t < (s.readers m).pos := fun h => hnone m (Finset.mem_range.1 hm) (.inl h)
    exact ⟨fun h => absurd h.2.1 hnot, fun h => absurd h hnot⟩

theorem slot_cases (c : Request) (j : Nat) {slot : Nat} (h : slot < writerIaNSlots) :
    slot = c.slot j ∨ slot = c.slot (j + 1) := by
  simp only [Request.slot, writerIaNSlots] at *
  omega

/-- A reader that works on a block does not change the cells of another slot. -/
theorem readerStep_sameCell (h : Inv c s) {m : Nat} (hm : m < c.nModules) (hk : (s.readers m).pos < c.nBlocks)
    {slot : Nat} (hslot : (s.readers m).phase.Granted → slot ≠ c.slot (s.readers m).pos) :
    ∀ q < c.nModules, ∀ i,
      SameCell s (readerStep c m s (s.readers m) (c.block (s.readers m).pos)) slot q i := by
  intro q hq i
  unfold readerStep
  cases hphase : (s.readers m).phase with
  | acquire =>
    unfold tryAcquire
    by_cases hempty : s.assembler.bufferBunchId (slotId (c.block (s.readers m).pos)) = iaEmptySlotValue
    · simp only [if_pos hempty]; exact ⟨rfl, rfl⟩
    · simp only [if_neg hempty]; exact ⟨rfl, rfl⟩
  | checkStatus seen => simp only; split <;> exact ⟨rfl, rfl⟩
  | getBlock => exact ⟨rfl, rfl⟩
  | copying k =>
    refine cell_copyFrame_other _ (by rw [h.nModules]; exact hm) (by rw [h.nModules]; exact hq) fun hc => ?_
    rw [slotId_block hk] at hc
    exact hslot (by rw [hphase]; trivial) hc.1
  | release => exact ⟨rfl, rfl⟩

/-- Whenever the main thread reads a slot for a block, every module has processed that block
exactly once and nothing else since the slot was freed, and the slot holds the frames of that
block. No reader changes the slot before it is freed, and except while a slot is being freed its
status counts the modules that have not processed its block. -/
theorem slot_protocol_safe (c : Request) (s : State) (hr : Reachable c s) :
    (s.main.phase.Reads →
      (∀ m < c.nModules, (s.processed (slotId (c.block s.main.pos))).count (m, c.block s.main.pos) = 1) ∧
      (∀ x ∈ s.processed (slotId (c.block s.main.pos)), x.1 < c.nModules ∧ x.2 = c.block s.main.pos) ∧
      ∀ m < c.nModules, ∀ i,
        s.assembler.cellMeta (slotId (c.block s.main.pos)) m i =
          ((c.getBlock (c.block s.main.pos) m).frame i).metadata ∧
        s.assembler.cellData (slotId (c.block s.main.pos)) m i =
          ((c.getBlock (c.block s.main.pos) m).frame i).data) ∧
    (s.main.phase ≠ .poll → ∀ m s', step c (.reader m) s = some s' →
      ∀ q < c.nModules, ∀ i, SameCell s s' (slotId (c.block s.main.pos)) q i) ∧
    ∀ slot < writerIaNSlots, ¬ (s.main.phase = .resetBunchId ∧ slot = slotId (c.block s.main.pos)) →
      s.assembler.bufferStatus slot = c.nModules - (processedBy c s slot).card ∧
      0 ≤ s.assembler.bufferStatus slot := by
  have h := reachable_inv hr
  have hcur := h.slots s.main.pos ⟨le_refl _, Nat.le_succ _⟩
  refine ⟨fun hread => ?_, fun hpoll m s' hs => ?_, fun slot hslot hnot => ?_⟩
  · obtain ⟨hj, hall⟩ := h.reading (by rcases hread with h | h <;> rw [h] <;> decide)
    rw [slotId_block hj]
    refine ⟨fun m hm => ?_, fun x hx => ?_, fun m hm i => hcur.cells m hm i (.inl (hall m hm))⟩
    · rw [hcur.processed, if_pos ⟨hm, hall m hm, rfl⟩]
    · obtain ⟨hm, -, hb⟩ := (mem_processed hcur).1 hx
      exact ⟨hm, hb⟩
  · obtain ⟨hj, hall⟩ := h.reading hpoll
    simp only [step] at hs
    split at hs
    · rename_i hmk
      obtain rfl := Option.some.inj hs
      rw [slotId_block hj]
      refine readerStep_sameCell h hmk.1 hmk.2 fun hg e => ?_
      have hlt := hall m hmk.1
      have := slot_inj ⟨le_refl _, Nat.le_succ _⟩ ⟨hlt.le, h.granted m hmk.1 hg⟩ e
      omega
    · cases hs
  · have hstatus : ∃ t, slot = c.slot t ∧ SlotInv c s t ∧ ¬ Freeing s t := by
      rcases slot_cases c s.main.pos hslot with rfl | rfl
      · refine ⟨_, rfl, hcur, fun hf => hnot ⟨hf.2, ?_⟩⟩
        rw [slotId_block (h.reading (by rw [hf.2]; decide)).1]
      · exact ⟨_, rfl, h.slots _ ⟨Nat.le_succ _, le_refl _⟩, fun hf => absurd hf.1 (by omega)⟩
    obtain ⟨t, rfl, hst, hfree⟩ := hstatus
    have hle : (finished c s t).card ≤ c.nModules :=
      (Finset.card_filter_le _ _).trans (Finset.card_range _).le
    rw [hst.status hfree, processedBy_eq hst]
    exact ⟨rfl, by omega⟩

theorem step_reader {m : Nat} (hm : m < c.nModules) (hk : (s.readers m).pos < c.nBlocks) :
    step c (.reader m) s = some (readerStep c m s (s.readers m) (c.block (s.readers m).pos)) :=
  if_pos ⟨hm, hk⟩

theorem step_main (hj : s.main.pos < c.nBlocks) :
    step c .main s = some (mainStep s (c.block s.main.pos)) := if_pos hj

/-- Two modules and three blocks, of which the first and the last share a slot. All frames are zero but carry
their block. -/
def threeBlocks : Request where
  nModules := 2
  firstBlock := 1
  nBlocks := 3
  getBlock b _ := ⟨fun _ => ⟨0, { ModuleFrame.zero with pulseId := b }, fun _ => 0⟩, b⟩
  nModules_pos := by decide
  firstBlock_pos := le_refl _
  blocks_lt := by decide

/-- The state in which the threads of `threeBlocks` start. -/
def threeBlocksStart : State where
  assembler := .new 2 (fun _ => 0) (fun _ => ⟨fun _ => 0, fun _ => 0, fun _ => 0, fun _ => 0, 0, 0⟩)
    (fun _ => .zero) (fun _ => 0) (fun _ => 0)
  readers _ := ⟨0, .acquire, ⟨fun _ => ⟨0, .zero, fun _ => 0⟩, 0⟩⟩
  main := ⟨0, .poll⟩
  processed _ := []

theorem threeBlocks_init : Init threeBlocks threeBlocksStart :=
  ⟨⟨_, _, _, _, _, rfl⟩, fun _ => ⟨rfl, rfl⟩, rfl, fun _ => rfl⟩

/-- The first reader has processed two blocks and waits for the slot of the third, while the second one is in the
middle of its first block. -/
def untilReaderWaits : List Thread :=
  List.replicate 206 (.reader 0) ++ List.replicate 50 (.reader 1) ++ [.reader 0]

/-- The second reader goes on, and both go through the other blocks behind the main thread, which finds the slot
of the third block full. -/
def untilSlotReused : List Thread :=
  untilReaderWaits ++ List.replicate 54 (.reader 1) ++ List.replicate 5 .main ++ List.replicate 104 (.reader 0) ++
    List.replicate 104 (.reader 1) ++ List.replicate 5 .main ++ List.replicate 104 (.reader 1) ++ [.main]

/-- In the slot that the first block had, the main thread finds the frames of the third block. -/
theorem slot_protocol_safe_threeBlocks : ∃ s, Reachable threeBlocks s ∧ s.main.pos = 2 ∧ s.main.phase = .getMetadata ∧
    slotId (threeBlocks.block 2) = slotId (threeBlocks.block 0) ∧
      ∀ m < 2, (s.processed (slotId 3)).count (m, 3) = 1 ∧ ∀ i, (s.assembler.cellMeta (slotId 3) m i).pulseId = 3 := by
  have hrun : ((Runs.run (step threeBlocks) untilSlotReused threeBlocksStart).map fun s => (s.main.pos, s.main.phase)) =
      some (2, .getMetadata) := by
    decide +kernel
  obtain ⟨s, hs, hobs⟩ := Option.map_eq_some_iff.1 hrun
  obtain ⟨hpos, hphase⟩ := Prod.mk.inj hobs
  have hreach : Reachable threeBlocks s := (Runs.Reachable.init threeBlocks_init).run hs
  obtain ⟨hcount, -, hcells⟩ := (slot_protocol_safe threeBlocks s hreach).1 (.inl hphase)
  rw [hpos] at hcount hcells
  exact ⟨s, hreach, hpos, hphase, rfl, fun m hm =>
    ⟨hcount m hm, fun i => congrArg ModuleFrame.pulseId (hcells m hm i).1⟩⟩

end SfDaqBuffer.SfWriter
