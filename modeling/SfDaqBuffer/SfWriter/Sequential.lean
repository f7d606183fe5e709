/-
Every interleaving of `sf_writer` matches the sequential program. The threads of the program move as
those of the slot protocol do for the blocks that the files hold, except that the main thread loads the
images of a block before it writes it; the invariant adds what was loaded and what was written so far.
-/
import SfDaqBuffer.SfWriter.Export

namespace SfDaqBuffer.SfWriter

open CoreBuffer DiskBuffer ImageAssembler
open SfUtils (deviceName)

/-! ## The blocks of the sequential program -/

theorem blockByte_outside (c : Request) (k : Nat) {a : Nat} (h : bufferBlockSize * (moduleNBytes * c.nModules) ≤ a) :
    blockByte c k a = 0 := by
  have hpos := c.nModules_pos
  have htile : bufferBlockSize * c.nModules ≤ a / moduleNBytes := by
    rw [Nat.le_div_iff_mul_le (by decide)]
    calc bufferBlockSize * c.nModules * moduleNBytes = bufferBlockSize * (moduleNBytes * c.nModules) := by ring
      _ ≤ a := h
  have hge : ¬ a / moduleNBytes / c.nModules < bufferBlockSize :=
    Nat.not_lt.2 ((Nat.le_div_iff_mul_le hpos).2 htile)
  unfold blockByte
  simp only [hge, dite_false]

/-- The first `n` images of block `k`. -/
def loadedBytes (c : Request) (k n : Nat) : Nat → UInt8 :=
  fun a => if a < n * (moduleNBytes * c.nModules) then blockByte c k a else 0

theorem loadedBytes_zero (c : Request) (k : Nat) : loadedBytes c k 0 = fun _ => 0 := by
  funext a
  unfold loadedBytes
  rw [Nat.zero_mul]
  exact if_neg (Nat.not_lt_zero a)

theorem loadedBytes_all (c : Request) (k : Nat) : loadedBytes c k bufferBlockSize = blockByte c k := by
  funext a
  unfold loadedBytes
  split
  · rfl
  · rename_i h
    exact (blockByte_outside c k (Nat.le_of_not_lt h)).symm

/-- One image more. -/
theorem loadedBytes_succ (c : Request) (k n : Nat) {image : Fin (moduleNBytes * c.nModules) → UInt8}
    (h : ∀ x, image x = blockByte c k (n * (moduleNBytes * c.nModules) + x)) :
    Memory.write (loadedBytes c k n) (n * (moduleNBytes * c.nModules)) image = loadedBytes c k (n + 1) := by
  have hsucc : (n + 1) * (moduleNBytes * c.nModules) = n * (moduleNBytes * c.nModules) + moduleNBytes * c.nModules :=
    Nat.succ_mul ..
  funext a
  unfold Memory.write loadedBytes
  rw [hsucc]
  generalize n * (moduleNBytes * c.nModules) = start at h ⊢
  by_cases hin : start ≤ a ∧ a < start + moduleNBytes * c.nModules
  · rw [dif_pos hin, h, if_pos hin.2]
    simp only [Nat.add_sub_cancel' hin.1]
  · rw [dif_neg hin]
    by_cases hlt : a < start
    · rw [if_pos hlt, if_pos (by omega)]
    · rw [if_neg hlt, if_neg (by omega)]

section

variable {H : Hdf5} {j : Retrieval} {ws : Nat → List (UInt64 × BufferBinaryFormat)} {old : Nat → ImageMetadataBlock}
  {start : JFH5Writer H j.config}

theorem Retrieval.block_toNat {k : Nat} (hk : k < j.nBlocks) : (j.block k).toNat = j.startBlock + k := by
  have hlt := j.blocks_lt
  unfold Retrieval.block
  rw [UInt64.toNat_ofNat_of_lt' (by simp only [UInt64.size]; omega)]

theorem Retrieval.block_le {k : Nat} (hk : k < j.nBlocks) :
    j.startBlock + k ≤ j.config.stopPulseId.toNat / bufferBlockSize := by
  unfold nBlocks at hk
  omega

/-- No pulse of a block wraps. -/
theorem Retrieval.block_fits {k : Nat} (hk : k < j.nBlocks) : (j.startBlock + k) * bufferBlockSize + bufferBlockSize ≤ 2 ^ 64 := by
  have hle := Nat.mul_le_mul_right bufferBlockSize (j.block_le hk)
  have hlast := j.ranged.last_lt
  omega

/-- The blocks of the sequential program carry the bounds of their numbers. -/
theorem Retrieval.inRange (getBlock : UInt64 → Nat → BufferBinaryBlock) {k : Nat} (hk : k < j.nBlocks) :
    InRange j.config (j.startBlock + k) (j.blocks getBlock old (j.startBlock + k)).1 := by
  have hfits := j.block_fits hk
  have hfirst : ((j.request getBlock).block k * UInt64.ofNat bufferBlockSize).toNat =
      (j.startBlock + k) * bufferBlockSize := by
    have hblock : ((j.request getBlock).block k).toNat = j.startBlock + k := j.block_toNat hk
    have hsize : (UInt64.ofNat bufferBlockSize).toNat = bufferBlockSize := rfl
    rw [UInt64.toNat_mul, hblock, hsize]
    exact Nat.mod_eq_of_lt (by simp only [bufferBlockSize] at hfits ⊢; omega)
  unfold Retrieval.blocks assembledMeta mergedBlock
  simp only [Nat.add_sub_cancel_left]
  refine ⟨Nat.le_add_right .., j.block_le hk, hfirst, ?_⟩
  have hsize : (UInt64.ofNat bufferBlockSize).toNat = 100 := rfl
  have hone : (1 : UInt64).toNat = 1 := rfl
  simp only [UInt64.toNat_sub, UInt64.toNat_add, hfirst, hsize, hone]
  simp only [bufferBlockSize] at hfits ⊢
  omega

/-- The first pulse that is not written once `k` blocks are. -/
def Retrieval.nextPulse (j : Retrieval) (k : Nat) : Nat :=
  min (j.config.stopPulseId.toNat + 1) (max j.config.startPulseId.toNat ((j.startBlock + k) * bufferBlockSize))

theorem Retrieval.firstOf_eq {k : Nat} (hk : k < j.nBlocks) : firstOf j.config (j.startBlock + k) = j.nextPulse k := by
  have hle := j.block_le hk
  have hstart := j.ranged.le
  unfold firstOf Retrieval.nextPulse
  simp only [bufferBlockSize] at hle ⊢
  omega

theorem Retrieval.endOf_eq (k : Nat) : endOf j.config (j.startBlock + k) = j.nextPulse (k + 1) := by
  unfold endOf Retrieval.nextPulse Retrieval.startBlock
  simp only [bufferBlockSize]
  omega

theorem Retrieval.nextPulse_zero : j.nextPulse 0 = j.config.startPulseId.toNat := by
  have hstart := j.ranged.le
  unfold Retrieval.nextPulse Retrieval.startBlock
  simp only [bufferBlockSize]
  omega

theorem Retrieval.nextPulse_nBlocks : j.nextPulse j.nBlocks = j.config.stopPulseId.toNat + 1 := by
  have hle := j.startBlock_le
  unfold Retrieval.nextPulse Retrieval.nBlocks
  simp only [bufferBlockSize] at hle ⊢
  omega

theorem writeBlocks_append {blocks : Blocks j.config} : ∀ (bs : List Nat) {b : Nat} {w w' : JFH5Writer H j.config},
    writeBlocks blocks bs w = .ok w' → writeBlocks blocks (bs ++ [b]) w = w'.write (blocks b).1 (blocks b).2
  | [], b, w, w', h => by
    cases h
    have hsingle : writeBlocks blocks ([] ++ [b]) w = (w.write (blocks b).1 (blocks b).2).bind pure := rfl
    rw [hsingle]
    cases w.write (blocks b).1 (blocks b).2 <;> rfl
  | b' :: bs, b, w, w', h => by
    rw [List.cons_append]
    unfold writeBlocks at h ⊢
    cases hfirst : w.write (blocks b').1 (blocks b').2 with
    | error e =>
      rw [hfirst] at h
      cases h
    | ok w₁ =>
      rw [hfirst] at h
      exact writeBlocks_append bs h

/-! ## The invariant -/

namespace Program

/-- The program next to the sequential one. -/
structure Inv (j : Retrieval) (ws : Nat → List (UInt64 × BufferBinaryFormat)) (old : Nat → ImageMetadataBlock)
    (start : JFH5Writer H j.config) (s : Program H j.config) : Prop where
  threads : SfWriter.Reachable (j.request (stored ws)) s.threads
  metas : MetasAssembled (j.request (stored ws)) old s.threads
  aborted : s.aborted = none
  blockBuffer : ∀ m, (s.threads.readers m).blockBuffer.startPulseId = 0
  clients : ∃ ws', ClientsOk j.detectorFolder ws' s.clients ∧
    ∀ m p, Program.Reads j p → lastRecord (ws' m) p = lastRecord (ws m) p
  files : ∀ m < j.config.nModules.toNat, ∀ k < j.nBlocks, ∃ f, s.clients.disk.file
    (BufferUtils.getFilename j.detectorFolder (deviceName m) (j.block k * UInt64.ofNat bufferBlockSize)) = some f
  loaded_le : s.loaded ≤ bufferBlockSize
  notLoading : s.threads.main.phase ≠ .write → s.loaded = 0
  data : s.data = loadedBytes (j.request (stored ws)) s.threads.main.pos s.loaded
  written : writeBlocks (j.blocks (stored ws) old) (List.range' j.startBlock (writtenBlocks s.threads)) start = .ok s.writer
  images : ImagesUpTo (j.blocks (stored ws) old) s.writer (j.nextPulse (writtenBlocks s.threads))
  metadata : MetadataUpTo (j.blocks (stored ws) old) s.writer (j.nextPulse (writtenBlocks s.threads))

variable {s s' : Program H j.config}

theorem init_inv (h : Program.Init j ws old start s) : Inv j ws old start s := by
  obtain ⟨hthreads, hmeta, hzero, ⟨disk, calls, hempty, hcalls, hws⟩, hfiles, hloaded, hdata, rfl, ⟨_, _, _, _, hnew⟩,
    haborted⟩ := h
  have hclients : ClientsOk j.detectorFolder ws s.clients := by
    rw [hcalls, hws]
    exact ClientsOk.after hempty calls
  obtain ⟨himages, hmetadata⟩ := new_upTo (H := H) (j.blocks (stored ws) old) _ _ _ _
  rw [← hnew] at himages hmetadata
  have hassembled : assembledBlocks s.threads = 0 := by
    unfold assembledBlocks
    rw [hthreads.main]
  have hwritten : writtenBlocks s.threads = 0 := by
    unfold writtenBlocks
    rw [hthreads.main]
  refine ⟨.init ⟨hthreads.assembler, hthreads.readers, hthreads.main, hthreads.processed⟩, ?_, haborted, hzero,
    ⟨ws, hclients, fun _ _ _ => rfl⟩, hfiles, ?_, fun _ => hloaded, ?_, ?_, ?_, ?_⟩
  · unfold MetasAssembled
    rw [hassembled]
    exact hmeta
  · rw [hloaded]
    exact Nat.zero_le _
  · rw [hloaded, loadedBytes_zero]
    exact hdata
  · rw [hwritten]
    rfl
  · rw [hwritten, j.nextPulse_zero]
    exact himages
  · rw [hwritten, j.nextPulse_zero]
    exact hmetadata

/-- The threads make a step that leaves the main thread where it is, as to what is loaded and written. -/
structure SameWork (s s' : Program H j.config) : Prop where
  pos : s'.loaded ≠ 0 → s'.threads.main.pos = s.threads.main.pos
  writing : s'.threads.main.phase ≠ .write → s.threads.main.phase ≠ .write ∨ s'.loaded = 0
  written : writtenBlocks s'.threads = writtenBlocks s.threads
  loaded : s'.loaded = s.loaded
  data : s'.data = s.data
  writer : s'.writer = s.writer

theorem Inv.same (h : Inv j ws old start s) (hsame : SameWork s s')
    (hthreads : SfWriter.Reachable (j.request (stored ws)) s'.threads)
    (hmetas : MetasAssembled (j.request (stored ws)) old s'.threads) (haborted : s'.aborted = none)
    (hzero : ∀ m, (s'.threads.readers m).blockBuffer.startPulseId = 0)
    (hclients : ∃ ws', ClientsOk j.detectorFolder ws' s'.clients ∧
      ∀ m p, Program.Reads j p → lastRecord (ws' m) p = lastRecord (ws m) p)
    (hfiles : ∀ m < j.config.nModules.toNat, ∀ k < j.nBlocks, ∃ f, s'.clients.disk.file
      (BufferUtils.getFilename j.detectorFolder (deviceName m) (j.block k * UInt64.ofNat bufferBlockSize)) = some f) :
    Inv j ws old start s' where
  threads := hthreads
  metas := hmetas
  aborted := haborted
  blockBuffer := hzero
  clients := hclients
  files := hfiles
  loaded_le := by
    rw [hsame.loaded]
    exact h.loaded_le
  notLoading hne := by
    rcases hsame.writing hne with hold | hzero
    · rw [hsame.loaded]
      exact h.notLoading hold
    · exact hzero
  data := by
    by_cases hloaded : s'.loaded = 0
    · rw [hsame.data, h.data, ← hsame.loaded, hloaded, loadedBytes_zero, loadedBytes_zero]
    · rw [hsame.data, h.data, hsame.loaded, hsame.pos hloaded]
  written := by
    rw [hsame.written, hsame.writer]
    exact h.written
  images := by
    rw [hsame.written, hsame.writer]
    exact h.images
  metadata := by
    rw [hsame.written, hsame.writer]
    exact h.metadata

/-! ## Reading threads -/

section

variable (h : Inv j ws old start s)

include h

/-- What `get_block` delivers. -/
theorem Inv.getBlock {m : Nat} (hm : m < j.config.nModules.toNat) {k : Nat} (hk : k < j.nBlocks)
    {buffer : BufferBinaryBlock} (hzero : buffer.startPulseId = 0) :
    ∃ clients, s.clients.getBlock m (j.block k) buffer = (.ok (), stored ws (j.block k) m, clients) ∧
      (∃ ws', ClientsOk j.detectorFolder ws' clients ∧
        ∀ m p, Program.Reads j p → lastRecord (ws' m) p = lastRecord (ws m) p) ∧
      clients.disk.file = s.clients.disk.file := by
  obtain ⟨ws', hok, hsame⟩ := h.clients
  obtain ⟨result, block, clients, hget, hok', hfile, hread⟩ := hok.getBlock m (j.block k) buffer
  have hfits := j.block_fits hk
  have hblock := j.block_toNat hk
  obtain ⟨rfl, rfl⟩ := hread (by rw [hblock]; simp only [bufferBlockSize] at hfits ⊢; omega) (h.files m hm k hk)
  refine ⟨clients, ?_, ⟨ws', hok', hsame⟩, hfile⟩
  have hframes : ∀ i : Fin bufferBlockSize, lastRecord (ws' m) (bufferBlockSize * (j.block k).toNat + i) =
      lastRecord (ws m) (bufferBlockSize * (j.block k).toNat + i) := by
    intro i
    have hi := i.2
    refine hsame m _ ⟨?_, ?_⟩
    · rw [hblock, Nat.mul_add_div (by decide)]
      exact (Nat.le_add_right _ _).trans (Nat.le_add_right _ _)
    · rw [hblock, Nat.mul_add_div (by decide), Nat.div_eq_of_lt hi]
      omega
  rw [hget]
  unfold stored
  rw [← hzero, ← funext hframes]

/-- A reading thread moves as in the slot protocol. -/
theorem Inv.moved {m : Nat} {next : State} {clients : Clients}
    (hstep : SfWriter.step (j.request (stored ws)) (.reader m) s.threads = some next)
    (hframe : ReaderFrame m s.threads next) (hbuffer : (next.readers m).blockBuffer.startPulseId = 0)
    (hclients : ∃ ws', ClientsOk j.detectorFolder ws' clients ∧
      ∀ m p, Program.Reads j p → lastRecord (ws' m) p = lastRecord (ws m) p)
    (hfile : clients.disk.file = s.clients.disk.file) :
    Inv j ws old start { s with clients := clients, threads := next } := by
  refine h.same ⟨fun _ => congrArg MainThread.pos hframe.main, fun hne => .inl ?_, ?_, rfl, rfl, rfl⟩
    (h.threads.step hstep) (metas_step h.threads h.metas hstep) h.aborted (fun q => ?_) hclients ?_
  · rw [← hframe.main]
    exact hne
  · unfold writtenBlocks
    rw [hframe.main]
  · by_cases hq : q = m
    · subst hq
      exact hbuffer
    · show (next.readers q).blockBuffer.startPulseId = 0
      rw [hframe.others q hq]
      exact h.blockBuffer q
  · rw [hfile]
    exact h.files

/-- The step of a reading thread is that of the slot protocol. -/
theorem Inv.readerStep_eq {m : Nat} (hm : m < j.config.nModules.toNat) (hk : (s.threads.readers m).pos < j.nBlocks) :
    ∃ clients, Program.readerStep j m s (s.threads.readers m) (j.block (s.threads.readers m).pos) = { s with
        clients := clients
        threads := SfWriter.readerStep (j.request (stored ws)) m s.threads (s.threads.readers m)
          (j.block (s.threads.readers m).pos) } ∧
      (∃ ws', ClientsOk j.detectorFolder ws' clients ∧
        ∀ m p, Program.Reads j p → lastRecord (ws' m) p = lastRecord (ws m) p) ∧
      clients.disk.file = s.clients.disk.file ∧
      ((SfWriter.readerStep (j.request (stored ws)) m s.threads (s.threads.readers m)
        (j.block (s.threads.readers m).pos)).readers m).blockBuffer.startPulseId = 0 := by
  by_cases hphase : (s.threads.readers m).phase = .getBlock
  · obtain ⟨clients, hget, hclients, hfile⟩ := h.getBlock hm hk (h.blockBuffer m)
    have hnext : SfWriter.readerStep (j.request (stored ws)) m s.threads (s.threads.readers m)
        (j.block (s.threads.readers m).pos) = s.threads.setReader m { s.threads.readers m with
          phase := .copying ⟨0, bufferBlockSize_pos⟩, blockBuffer := stored ws (j.block (s.threads.readers m).pos) m } := by
      unfold SfWriter.readerStep
      rw [hphase]
      rfl
    refine ⟨clients, ?_, hclients, hfile, ?_⟩
    · unfold Program.readerStep
      rw [if_pos hphase]
      simp only [hget]
      rw [hnext]
    · rw [hnext, State.setReader_self]
      rfl
  · obtain ⟨hrequest, hbuffer⟩ := readerStep_request (c := j.request (stored ws))
      (d := j.request fun _ _ => emptyBlock) (s := s.threads) (m := m) (b := j.block (s.threads.readers m).pos) hphase
    refine ⟨s.clients, ?_, h.clients, rfl, ?_⟩
    · unfold Program.readerStep
      rw [hrequest, if_neg hphase]
    · rw [hbuffer]
      exact h.blockBuffer m

theorem Inv.readerStep {m : Nat} (hm : m < j.config.nModules.toNat) (hk : (s.threads.readers m).pos < j.nBlocks) :
    Inv j ws old start (Program.readerStep j m s (s.threads.readers m) (j.block (s.threads.readers m).pos)) := by
  have hstep : SfWriter.step (j.request (stored ws)) (.reader m) s.threads = some (SfWriter.readerStep
      (j.request (stored ws)) m s.threads (s.threads.readers m) (j.block (s.threads.readers m).pos)) := step_reader hm hk
  obtain ⟨clients, heq, hclients, hfile, hbuffer⟩ := h.readerStep_eq hm hk
  rw [heq]
  exact h.moved hstep (readerStep_frame ..) hbuffer hclients hfile

/-! ## The main thread -/

/-- The main thread moves as in the slot protocol where it does not write. -/
theorem Inv.mainMoved (hk : s.threads.main.pos < j.nBlocks) (hphase : s.threads.main.phase ≠ .write) :
    Inv j ws old start { s with threads := SfWriter.mainStep s.threads (j.block s.threads.main.pos) } := by
  have hstep : SfWriter.step (j.request (stored ws)) .main s.threads =
      some (SfWriter.mainStep s.threads (j.block s.threads.main.pos)) := step_main hk
  have hloaded := h.notLoading hphase
  have hwritten : writtenBlocks (SfWriter.mainStep s.threads (j.block s.threads.main.pos)) = writtenBlocks s.threads := by
    unfold SfWriter.mainStep writtenBlocks
    cases hp : s.threads.main.phase with
    | poll =>
      by_cases hfull : s.threads.assembler.isSlotFull (j.block s.threads.main.pos) = true
      · simp only [if_pos hfull]
      · simp only [if_neg hfull, hp]
    | getMetadata => rfl
    | write => exact absurd hp hphase
    | resetStatus => rfl
    | resetBunchId => rfl
  have hreaders : (SfWriter.mainStep s.threads (j.block s.threads.main.pos)).readers = s.threads.readers := by
    unfold SfWriter.mainStep
    cases s.threads.main.phase with
    | poll =>
      simp only
      split <;> rfl
    | getMetadata => rfl
    | write => rfl
    | resetStatus => rfl
    | resetBunchId => rfl
  refine h.same ⟨fun hne => absurd hloaded hne, fun _ => .inr hloaded, hwritten, rfl, rfl, rfl⟩
    (h.threads.step hstep) (metas_step h.threads h.metas hstep) h.aborted (fun q => ?_) h.clients h.files
  show ((SfWriter.mainStep s.threads (j.block s.threads.main.pos)).readers q).blockBuffer.startPulseId = 0
  rw [hreaders]
  exact h.blockBuffer q

/-- An image of the block is loaded. -/
theorem Inv.load (hphase : s.threads.main.phase = .write) (hlt : s.loaded < bufferBlockSize) :
    Inv j ws old start (s.loadImage (j.block s.threads.main.pos)) := by
  have himages : ∀ x : Fin (moduleNBytes * (j.request (stored ws)).nModules),
      Memory.read s.threads.assembler.imageBuffer (s.threads.assembler.getDataBuffer (j.block s.threads.main.pos) +
        s.loaded * (moduleNBytes * (j.request (stored ws)).nModules))
        (moduleNBytes * (j.request (stored ws)).nModules) x =
      blockByte (j.request (stored ws)) s.threads.main.pos
        (s.loaded * (moduleNBytes * (j.request (stored ws)).nModules) + x) :=
    fun x => slot_images h.threads (by rw [hphase]; decide) ⟨s.loaded, hlt⟩ x.2
  have hdata := loadedBytes_succ (j.request (stored ws)) s.threads.main.pos s.loaded himages
  have hsize : (imageNBytes j.config.nModules).toNat = moduleNBytes * (j.request (stored ws)).nModules :=
    j.imageNBytes_toNat
  unfold loadImage
  rw [hsize, h.data]
  simp only [hdata]
  exact ⟨h.threads, h.metas, h.aborted, h.blockBuffer, h.clients, h.files, hlt, fun hne => absurd hphase hne, rfl,
    h.written, h.images, h.metadata⟩

/-- The block is written. -/
theorem Inv.writeBlock (hk : s.threads.main.pos < j.nBlocks) (hphase : s.threads.main.phase = .write)
    (hfull : ¬ s.loaded < bufferBlockSize) : Inv j ws old start (s.mainStep (j.block s.threads.main.pos)) := by
  have hstep : SfWriter.step (j.request (stored ws)) .main s.threads =
      some (SfWriter.mainStep s.threads (j.block s.threads.main.pos)) := step_main hk
  have hslot : slotId (j.block s.threads.main.pos) = (j.request (stored ws)).slot s.threads.main.pos :=
    slotId_block (c := j.request (stored ws)) hk
  have hloaded : s.loaded = bufferBlockSize := le_antisymm h.loaded_le (Nat.le_of_not_lt hfull)
  have hwas : writtenBlocks s.threads = s.threads.main.pos := by
    unfold writtenBlocks
    rw [hphase]
  have hnext : SfWriter.mainStep s.threads (j.block s.threads.main.pos) =
      { s.threads with main := { s.threads.main with phase := .resetStatus } } := by
    unfold SfWriter.mainStep
    rw [hphase]
  have hwritten := h.written
  have himages := h.images
  have hmetadata := h.metadata
  rw [hwas] at hwritten himages hmetadata
  have hargs : (s.threads.assembler.metaBuffer (slotId (j.block s.threads.main.pos)),
      (⟨⟨s.data⟩, j.data_fits⟩ : BlockData j.config.nModules)) =
      j.blocks (stored ws) old (j.startBlock + s.threads.main.pos) := by
    unfold Retrieval.blocks
    rw [hslot, h.metas.block hphase, h.data, hloaded, loadedBytes_all, Nat.add_sub_cancel_left]
  rw [← j.firstOf_eq hk] at himages hmetadata
  obtain ⟨w', hw', himages', hmetadata'⟩ := write_spec j.ranged (j.inRange (stored ws) hk) himages hmetadata
  rw [j.endOf_eq] at himages' hmetadata'
  have hlist : List.range' j.startBlock (s.threads.main.pos + 1) =
      List.range' j.startBlock s.threads.main.pos ++ [j.startBlock + s.threads.main.pos] := List.range'_1_concat
  have hwrite : s.writer.write (s.threads.assembler.metaBuffer (slotId (j.block s.threads.main.pos)))
      ⟨⟨s.data⟩, j.data_fits⟩ = .ok w' := by
    rw [← hw', ← hargs]
  have hrun := writeBlocks_append _ hwritten (b := j.startBlock + s.threads.main.pos)
  rw [← hlist, hw'] at hrun
  unfold Program.mainStep
  rw [hphase]
  simp only [if_neg hfull, hwrite]
  rw [hnext] at hstep ⊢
  exact ⟨h.threads.step hstep, metas_step h.threads h.metas hstep, h.aborted, h.blockBuffer, h.clients, h.files,
    Nat.zero_le _, fun _ => rfl, (loadedBytes_zero ..).symm, hrun, himages', hmetadata'⟩

theorem Inv.mainStep (hk : s.threads.main.pos < j.nBlocks) :
    Inv j ws old start (s.mainStep (j.block s.threads.main.pos)) := by
  by_cases hphase : s.threads.main.phase = .write
  · by_cases hlt : s.loaded < bufferBlockSize
    · have hload := h.load hphase hlt
      unfold Program.mainStep
      rw [hphase]
      simp only [if_pos hlt]
      exact hload
    · exact h.writeBlock hk hphase hlt
  · have hmoved := h.mainMoved hk hphase
    unfold Program.mainStep
    split
    · rename_i hwrite
      exact absurd hwrite hphase
    · exact hmoved

/-- A buffer writer writes a pulse of another block. -/
theorem Inv.store (m : Nat) {pulseId : UInt64} (hp : ¬ Program.Reads j pulseId.toNat) (record : BufferBinaryFormat) :
    Inv j ws old start { s with clients := s.clients.write m pulseId record } := by
  obtain ⟨ws', hok, hsame⟩ := h.clients
  refine h.same ⟨fun _ => rfl, .inl, rfl, rfl, rfl, rfl⟩ h.threads h.metas h.aborted h.blockBuffer
    ⟨_, hok.write m pulseId record, fun n p hread => ?_⟩ fun n hn k hk => hok.write_exists m pulseId record (h.files n hn k hk)
  by_cases hn : n = m
  · subst hn
    rw [Function.update_self, lastRecord_append_other]
    · exact hsame n p hread
    · rintro rfl
      exact hp hread
  · rw [Function.update_of_ne hn]
    exact hsame n p hread

theorem step_inv {a : Action} (hstep : Program.step j a s = some s') : Inv j ws old start s' := by
  unfold Program.step at hstep
  cases a with
  | thread t =>
    cases t with
    | reader m =>
      simp only at hstep
      split at hstep
      · rename_i hcond
        obtain rfl := Option.some.inj hstep
        exact h.readerStep hcond.2.1 hcond.2.2
      · cases hstep
    | main =>
      simp only at hstep
      split at hstep
      · rename_i hcond
        obtain rfl := Option.some.inj hstep
        exact h.mainStep hcond.2
      · cases hstep
  | store m pulseId record =>
    simp only at hstep
    split at hstep
    · cases hstep
    · rename_i hp
      obtain rfl := Option.some.inj hstep
      exact h.store m hp record

end

theorem reachable_inv (h : Program.Reachable j ws old start s) : Inv j ws old start s :=
  h.invariant (fun _ => init_inv) fun _ _ _ hi hstep => step_inv hi hstep

end Program

end

end SfDaqBuffer.SfWriter
