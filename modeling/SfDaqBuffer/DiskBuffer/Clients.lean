/-
The buffer files of a whole detector: the buffer writers of all modules and any number of readers share
one disk. A call of one of them leaves the files of the other modules and the open files of the others
as they are, so that each module's files hold its own writes.
-/
import SfDaqBuffer.DiskBuffer.RoundTrip
import SfDaqBuffer.SfUtils.Addressing

namespace SfDaqBuffer.DiskBuffer

open Posix CoreBuffer BufferUtils BufferWriter SfWriter
open SfUtils (deviceName getFilename_module)

/-! ## Clients -/

/-- A buffer writer for each module, a reader for each module, and the disk. -/
structure Clients where
  writers : Nat → BufferBinaryWriter
  readers : Nat → BufferBinaryReader
  disk : Disk

inductive Client
  | writer (iModule : Nat)
  | reader (iModule : Nat)
  deriving DecidableEq

namespace Clients

/-- The descriptor of a client. -/
def fd (s : Clients) : Client → Int
  | .writer m => (s.writers m).outputFileFd
  | .reader m => (s.readers m).inputFileFd

/-- The name of the file a client has open. -/
def current (s : Clients) : Client → String
  | .writer m => (s.writers m).currentOutputFilename
  | .reader m => (s.readers m).currentInputFile

/-- Nothing is open. -/
def start (detectorFolder : String) (disk : Disk) : Clients where
  writers m := .new detectorFolder (deviceName m)
  readers m := .new detectorFolder (deviceName m)
  disk := disk

/-- The clients after calls of the writer of a module. -/
def setWriter (s : Clients) (m : Nat) (w : BufferBinaryWriter) (disk : Disk) : Clients :=
  { s with writers := Function.update s.writers m w, disk := disk }

/-- The clients after calls of the reader of a module. -/
def setReader (s : Clients) (m : Nat) (r : BufferBinaryReader) (disk : Disk) : Clients :=
  { s with readers := Function.update s.readers m r, disk := disk }

/-- The writer of a module writes; an exception goes to a caller that carries on. -/
def write (s : Clients) (m : Nat) (pulseId : UInt64) (record : BufferBinaryFormat) : Clients :=
  let (_, writer, disk) := (s.writers m).write Disk.os pulseId record s.disk
  s.setWriter m writer disk

/-- The reader of a module reads a block. -/
def getBlock (s : Clients) (m : Nat) (blockId : UInt64) (buffer : BufferBinaryBlock) :
    Except String Unit × BufferBinaryBlock × Clients :=
  let (result, reader, block, disk) := (s.readers m).getBlock Disk.os blockId buffer s.disk
  (result, block, s.setReader m reader disk)

section

variable (s : Clients) (m : Nat) (w : BufferBinaryWriter) (r : BufferBinaryReader) (disk : Disk)

@[simp] theorem setWriter_readers : (s.setWriter m w disk).readers = s.readers := rfl

@[simp] theorem setWriter_disk : (s.setWriter m w disk).disk = disk := rfl

@[simp] theorem setReader_writers : (s.setReader m r disk).writers = s.writers := rfl

@[simp] theorem setReader_disk : (s.setReader m r disk).disk = disk := rfl

@[simp] theorem setWriter_self : (s.setWriter m w disk).writers m = w := Function.update_self ..

@[simp] theorem setReader_self : (s.setReader m r disk).readers m = r := Function.update_self ..

theorem setWriter_other {n : Nat} (h : n ≠ m) : (s.setWriter m w disk).writers n = s.writers n :=
  Function.update_of_ne h ..

theorem setReader_other {n : Nat} (h : n ≠ m) : (s.setReader m r disk).readers n = s.readers n :=
  Function.update_of_ne h ..

/-- A property of every writer. -/
theorem forall_setWriter {P : Nat → BufferBinaryWriter → Prop} (hw : P m w) (h : ∀ n, n ≠ m → P n (s.writers n)) :
    ∀ n, P n ((s.setWriter m w disk).writers n) := by
  intro n
  by_cases hn : n = m
  · subst hn
    rwa [setWriter_self]
  · rw [setWriter_other _ _ _ _ hn]
    exact h n hn

/-- A property of every reader. -/
theorem forall_setReader {P : Nat → BufferBinaryReader → Prop} (hr : P m r) (h : ∀ n, n ≠ m → P n (s.readers n)) :
    ∀ n, P n ((s.setReader m r disk).readers n) := by
  intro n
  by_cases hn : n = m
  · subst hn
    rwa [setReader_self]
  · rw [setReader_other _ _ _ _ hn]
    exact h n hn

end

end Clients

/-! ## The invariant -/

/-- The client has no file open, or the one it believes to have. -/
def Holding (s : Clients) (a : Client) : Prop :=
  (s.fd a = -1 ∧ s.current a = "") ∨ s.disk.OpenAs (s.fd a) (s.current a)

/-- Every module's files hold the writes `ws` of that module, and no two clients use one descriptor. -/
structure ClientsOk (detectorFolder : String) (ws : Nat → List (UInt64 × BufferBinaryFormat)) (s : Clients) :
    Prop where
  writerFolder : ∀ m, (s.writers m).detectorFolder = detectorFolder
  writerModule : ∀ m, (s.writers m).moduleName = deviceName m
  readerFolder : ∀ m, (s.readers m).detectorFolder = detectorFolder
  readerModule : ∀ m, (s.readers m).moduleName = deviceName m
  holds : ∀ m, DiskHolds detectorFolder (deviceName m) (ws m) s.disk
  writer : ∀ m, Attached (s.writers m) s.disk
  reader : ∀ m, ReaderAttached (s.readers m) s.disk
  apart : ∀ a b, a ≠ b → s.fd a = s.fd b → s.fd a = -1

/-! ## Names -/

theorem getFilename_ne_latestOf (detectorFolder moduleName detectorFolder' moduleName' : String) (p : UInt64) :
    getFilename detectorFolder moduleName p ≠ detectorFolder' ++ "/" ++ moduleName' ++ "/LATEST" := by
  intro h
  have hlatest : "/LATEST".toList = ['/', 'L', 'A', 'T', 'E', 'S', 'T'] := String.toList_ofList ..
  rw [getFilename_eq] at h
  have hlast := congrArg (fun s : String => s.toList.getLast?) h
  simp only [String.toList_append, fileExtension_toList, hlatest, List.getLast?_append, List.getLast?_cons_cons,
    List.getLast?_singleton, Option.some_or, Option.some.injEq] at hlast
  exact absurd hlast (by decide)

/-- The files of two modules have different names. -/
theorem getFilename_ne_module {detectorFolder : String} {m n : Nat} (h : n ≠ m) (p q : UInt64) :
    getFilename detectorFolder (deviceName n) q ≠ getFilename detectorFolder (deviceName m) p :=
  fun hname => h (getFilename_module hname)

/-! ## A write -/

section

variable {w : BufferBinaryWriter} {d : Disk}

/-- A write as `DiskHolds.write` says, which changes only the file of the pulse and LATEST. -/
theorem DiskHolds.write_frame {ws : List (UInt64 × BufferBinaryFormat)}
    (hd : DiskHolds w.detectorFolder w.moduleName ws d) (h : Attached w d) (pulseId : UInt64)
    (record : BufferBinaryFormat) :
    ∃ fd d', w.write Disk.os pulseId record d = (.ok (), w.withFile fd pulseId, d') ∧
      DiskHolds w.detectorFolder w.moduleName (ws ++ [(pulseId, record)]) d' ∧ Attached (w.withFile fd pulseId) d' ∧
      (∀ fd' name, d.OpenAs fd' name → fd' ≠ w.outputFileFd → fd' ≠ fd ∧ d'.OpenAs fd' name) ∧
      ∀ name, name ≠ w.filename pulseId → name ≠ w.latestFilename → d'.file name = d.file name := by
  obtain ⟨fd, d', hwrite, hholds, hattached, hother⟩ := hd.write h pulseId record
  obtain ⟨fd₁, d₁, d₂, f, hwrite₁, hselects, -, -, -, -, hfile⟩ := write_disk h pulseId record (hd.size pulseId)
  obtain ⟨-, hrest⟩ := Prod.mk.inj (hwrite.symm.trans hwrite₁)
  obtain ⟨-, rfl⟩ := Prod.mk.inj hrest
  refine ⟨fd, d', hwrite, hholds, hattached, hother, fun name hne hlatest => ?_⟩
  rw [hfile name hne]
  exact hselects.otherFile name hne hlatest

/-- The files of a module are not touched where all of them are as before. -/
theorem DiskHolds.same {detectorFolder moduleName : String} {ws : List (UInt64 × BufferBinaryFormat)} {d' : Disk}
    (h : DiskHolds detectorFolder moduleName ws d)
    (hfile : ∀ p, d'.file (getFilename detectorFolder moduleName p) = d.file (getFilename detectorFolder moduleName p)) :
    DiskHolds detectorFolder moduleName ws d' where
  size p f hf := h.size p f (by rw [← hfile]; exact hf)
  record p f hf := h.record p f (by rw [← hfile]; exact hf)
  written w hw := by
    rw [hfile]
    exact h.written w hw

end

/-! ## A block -/

/-- A file reaches behind each of its blocks, and a block read in full has the last records of its pulses. -/
theorem DiskHolds.block {detectorFolder moduleName : String} {ws : List (UInt64 × BufferBinaryFormat)} {d : Disk}
    (h : DiskHolds detectorFolder moduleName ws d) {blockId : UInt64} (hblock : bufferBlockSize * blockId.toNat < 2 ^ 64)
    {f : File} (hf : d.file (getFilename detectorFolder moduleName (blockId * UInt64.ofNat bufferBlockSize)) = some f)
    (buffer : BufferBinaryBlock) :
    (getFileFrameIndex (blockId * UInt64.ofNat bufferBlockSize)).toNat * sizeofBufferBinaryFormat +
        sizeofBlockFrames ≤ f.size ∧
      fillBlock buffer sizeofBlockFrames (Memory.read f.byte
          ((getFileFrameIndex (blockId * UInt64.ofNat bufferBlockSize)).toNat * sizeofBufferBinaryFormat)
          sizeofBlockFrames) =
        { buffer with frame := fun i => lastRecord ws (bufferBlockSize * blockId.toNat + i) } := by
  have hwithin := block_within hblock
  have hbase := fileBase_add_index (blockId * UInt64.ofNat bufferBlockSize)
  rw [blockStart_toNat hblock] at hbase
  constructor
  · refine le_trans ?_ (h.size _ f hf).le
    rw [← Nat.add_mul]
    exact Nat.mul_le_mul_right _ hwithin
  · have hframe : ∀ i, (fillBlock buffer sizeofBlockFrames (Memory.read f.byte
        ((getFileFrameIndex (blockId * UInt64.ofNat bufferBlockSize)).toNat * sizeofBufferBinaryFormat)
        sizeofBlockFrames)).frame i = lastRecord ws (bufferBlockSize * blockId.toNat + i) := by
      intro i
      have hi := i.2
      rw [fillBlock_frame buffer f _ i rfl, h.record _ f hf _ (by omega), ← Nat.add_assoc, hbase]
    rw [← funext hframe]
    rfl

/-! ## The clients keep apart -/

section

variable {detectorFolder : String} {ws : Nat → List (UInt64 × BufferBinaryFormat)} {s s' : Clients}

theorem ClientsOk.holding (h : ClientsOk detectorFolder ws s) (a : Client) : Holding s a := by
  cases a with
  | writer m => exact (h.writer m).file.imp_right And.right
  | reader m => exact h.reader m

/-- Client `a` made calls that leave the other descriptors alone. -/
structure Moved (a : Client) (s s' : Clients) : Prop where
  fd : ∀ b, b ≠ a → s'.fd b = s.fd b
  current : ∀ b, b ≠ a → s'.current b = s.current b
  others : ∀ fd name, s.disk.OpenAs fd name → fd ≠ s.fd a → fd ≠ s'.fd a ∧ s'.disk.OpenAs fd name

theorem moved_setWriter {m : Nat} {w : BufferBinaryWriter} {disk : Disk}
    (h : ∀ fd name, s.disk.OpenAs fd name → fd ≠ (s.writers m).outputFileFd →
      fd ≠ w.outputFileFd ∧ disk.OpenAs fd name) : Moved (.writer m) s (s.setWriter m w disk) := by
  have hother : ∀ b, b ≠ Client.writer m →
      (s.setWriter m w disk).fd b = s.fd b ∧ (s.setWriter m w disk).current b = s.current b := by
    intro b hne
    unfold Clients.fd Clients.current
    cases b with
    | writer n =>
      have hn : n ≠ m := fun heq => hne (heq ▸ rfl)
      simp only [Clients.setWriter_other _ _ _ _ hn, and_self]
    | reader n => exact ⟨rfl, rfl⟩
  refine ⟨fun b hne => (hother b hne).1, fun b hne => (hother b hne).2, fun fd name hopen hne => ?_⟩
  have hself : (s.setWriter m w disk).fd (.writer m) = w.outputFileFd := by
    unfold Clients.fd
    simp only [Clients.setWriter_self]
  rw [hself]
  exact h fd name hopen hne

theorem moved_setReader {m : Nat} {r : BufferBinaryReader} {disk : Disk}
    (h : ∀ fd name, s.disk.OpenAs fd name → fd ≠ (s.readers m).inputFileFd →
      fd ≠ r.inputFileFd ∧ disk.OpenAs fd name) : Moved (.reader m) s (s.setReader m r disk) := by
  have hother : ∀ b, b ≠ Client.reader m →
      (s.setReader m r disk).fd b = s.fd b ∧ (s.setReader m r disk).current b = s.current b := by
    intro b hne
    unfold Clients.fd Clients.current
    cases b with
    | writer n => exact ⟨rfl, rfl⟩
    | reader n =>
      have hn : n ≠ m := fun heq => hne (heq ▸ rfl)
      simp only [Clients.setReader_other _ _ _ _ hn, and_self]
  refine ⟨fun b hne => (hother b hne).1, fun b hne => (hother b hne).2, fun fd name hopen hne => ?_⟩
  have hself : (s.setReader m r disk).fd (.reader m) = r.inputFileFd := by
    unfold Clients.fd
    simp only [Clients.setReader_self]
  rw [hself]
  exact h fd name hopen hne

section

variable (h : ClientsOk detectorFolder ws s) {a : Client} (hmoved : Moved a s s')

include h hmoved

theorem ClientsOk.other_open {b : Client} (hne : b ≠ a) :
    Holding s' b ∧ (s'.fd b = s'.fd a → s'.fd b = -1) := by
  unfold Holding
  rw [hmoved.fd b hne, hmoved.current b hne]
  rcases h.holding b with ⟨hclosed, hname⟩ | hopen
  · exact ⟨.inl ⟨hclosed, hname⟩, fun _ => hclosed⟩
  · have hnonneg := hopen.nonneg
    have hfd : s.fd b ≠ s.fd a := fun heq => by
      have hminus := h.apart b a hne heq
      omega
    obtain ⟨hfd', hopen'⟩ := hmoved.others _ _ hopen hfd
    exact ⟨.inr hopen', fun heq => absurd heq hfd'⟩

theorem ClientsOk.apart_moved : ∀ b c, b ≠ c → s'.fd b = s'.fd c → s'.fd b = -1 := by
  intro b c hne heq
  by_cases hb : b = a
  · subst hb
    have hc := (h.other_open hmoved hne.symm).2 heq.symm
    exact heq.trans hc
  · by_cases hc : c = a
    · subst hc
      exact (h.other_open hmoved hb).2 heq
    · rw [hmoved.fd b hb] at heq ⊢
      rw [hmoved.fd c hc] at heq
      exact h.apart b c hne heq

theorem ClientsOk.reader_moved {m : Nat} (hne : Client.reader m ≠ a) : ReaderAttached (s'.readers m) s'.disk :=
  (h.other_open hmoved hne).1

theorem ClientsOk.writer_moved {m : Nat} (hne : Client.writer m ≠ a) (hsame : s'.writers m = s.writers m) :
    Attached (s'.writers m) s'.disk := by
  have hholding : ((s'.writers m).outputFileFd = -1 ∧ (s'.writers m).currentOutputFilename = "") ∨
      s'.disk.OpenAs (s'.writers m).outputFileFd (s'.writers m).currentOutputFilename := (h.other_open hmoved hne).1
  obtain ⟨hlatest, hfile⟩ := h.writer m
  rw [hsame] at hholding ⊢
  refine ⟨hlatest, ?_⟩
  rcases hfile with hclosed | ⟨hname, -⟩
  · exact .inl hclosed
  · rcases hholding with hclosed | hopen
    · exact .inl hclosed
    · exact .inr ⟨hname, hopen⟩

end

theorem ClientsOk.start {disk : Disk} (hnew : ∀ m p, disk.file (getFilename detectorFolder (deviceName m) p) = none) :
    ClientsOk detectorFolder (fun _ => []) (.start detectorFolder disk) where
  writerFolder _ := rfl
  writerModule _ := rfl
  readerFolder _ := rfl
  readerModule _ := rfl
  holds m := diskHolds_nil (hnew m)
  writer _ := ⟨rfl, .inl ⟨rfl, rfl⟩⟩
  reader _ := .inl ⟨rfl, rfl⟩
  apart a b _ _ := by cases a <;> rfl

/-- A writer adds a record to the files of its module. -/
theorem ClientsOk.write (h : ClientsOk detectorFolder ws s) (m : Nat) (pulseId : UInt64) (record : BufferBinaryFormat) :
    ClientsOk detectorFolder (Function.update ws m (ws m ++ [(pulseId, record)])) (s.write m pulseId record) := by
  have hm := h.holds m
  rw [← h.writerFolder m, ← h.writerModule m] at hm
  obtain ⟨fd, d', hwrite, hholds, hattached, hother, hfile⟩ := hm.write_frame (h.writer m) pulseId record
  rw [h.writerFolder m, h.writerModule m] at hholds
  have hs' : s.write m pulseId record = s.setWriter m ((s.writers m).withFile fd pulseId) d' := by
    unfold Clients.write
    rw [hwrite]
  have hmoved := moved_setWriter (s := s) (w := (s.writers m).withFile fd pulseId) hother
  rw [hs']
  refine ⟨?_, ?_, h.readerFolder, h.readerModule, fun n => ?_, fun n => ?_, fun n => h.reader_moved hmoved nofun,
    h.apart_moved hmoved⟩
  · exact Clients.forall_setWriter (P := fun _ w => w.detectorFolder = detectorFolder) _ _ _ _ (h.writerFolder m)
      fun n _ => h.writerFolder n
  · exact Clients.forall_setWriter (P := fun n w => w.moduleName = deviceName n) _ _ _ _ (h.writerModule m)
      fun n _ => h.writerModule n
  · rw [Clients.setWriter_disk]
    by_cases hn : n = m
    · subst hn
      rw [Function.update_self]
      exact hholds
    · rw [Function.update_of_ne hn]
      refine (h.holds n).same fun q => hfile _ ?_ ?_
      · unfold BufferBinaryWriter.filename
        rw [h.writerFolder, h.writerModule]
        exact getFilename_ne_module hn pulseId q
      · rw [(h.writer m).latest]
        exact getFilename_ne_latestOf _ _ _ _ q
  · by_cases hn : n = m
    · subst hn
      rw [Clients.setWriter_self]
      exact hattached
    · exact h.writer_moved hmoved (fun heq => hn (Client.writer.inj heq)) (Clients.setWriter_other _ _ _ _ hn)

/-- A write removes no file of a module. -/
theorem ClientsOk.write_exists (h : ClientsOk detectorFolder ws s) (m : Nat) (pulseId : UInt64)
    (record : BufferBinaryFormat) {n : Nat} {p : UInt64}
    (hf : ∃ f, s.disk.file (getFilename detectorFolder (deviceName n) p) = some f) :
    ∃ f, (s.write m pulseId record).disk.file (getFilename detectorFolder (deviceName n) p) = some f := by
  have hm := h.holds m
  rw [← h.writerFolder m, ← h.writerModule m] at hm
  obtain ⟨fd, d', hwrite, -, -, -, hfile⟩ := hm.write_frame (h.writer m) pulseId record
  have hs' : (s.write m pulseId record).disk = d' := by
    unfold Clients.write
    rw [hwrite]
    rfl
  by_cases hname : getFilename detectorFolder (deviceName n) p = getFilename detectorFolder (deviceName m) pulseId
  · obtain rfl : n = m := getFilename_module hname
    rw [hname]
    apply ((h.write n pulseId record).holds n).written (pulseId, record)
    rw [Function.update_self]
    exact List.mem_append_right _ (List.mem_singleton.2 rfl)
  · rw [hs', hfile]
    · exact hf
    · unfold BufferBinaryWriter.filename
      rw [h.writerFolder, h.writerModule]
      exact hname
    · rw [(h.writer m).latest]
      exact getFilename_ne_latestOf _ _ _ _ p

/-- Reading changes no file; the block is filled when the file is there. -/
theorem ClientsOk.getBlock (h : ClientsOk detectorFolder ws s) (m : Nat) (blockId : UInt64) (buffer : BufferBinaryBlock) :
    ∃ result block s', s.getBlock m blockId buffer = (result, block, s') ∧ ClientsOk detectorFolder ws s' ∧
      s'.disk.file = s.disk.file ∧
      (bufferBlockSize * blockId.toNat < 2 ^ 64 →
        (∃ f, s.disk.file (getFilename detectorFolder (deviceName m) (blockId * UInt64.ofNat bufferBlockSize)) = some f) →
          result = .ok () ∧ block = { buffer with
            frame := fun i => lastRecord (ws m) (bufferBlockSize * blockId.toNat + i) }) := by
  have hpos : BlockPosition (s.readers m) blockId
      (getFilename detectorFolder (deviceName m) (blockId * UInt64.ofNat bufferBlockSize)) _ :=
    ⟨by rw [h.readerFolder, h.readerModule], rfl⟩
  obtain ⟨result, r', block, d', hread, hreads, hfull⟩ := getBlock_disk (h.reader m) hpos buffer
  have hs' : s.getBlock m blockId buffer = (result, block, s.setReader m r' d') := by
    unfold Clients.getBlock
    rw [hread]
  have hmoved := moved_setReader (s := s) hreads.otherHandle
  refine ⟨result, block, _, hs', ⟨h.writerFolder, h.writerModule, ?_, ?_, fun n => ?_, fun n => ?_, fun n => ?_,
    h.apart_moved hmoved⟩, hreads.file, fun hblock => ?_⟩
  · exact Clients.forall_setReader (P := fun _ r => r.detectorFolder = detectorFolder) _ _ _ _
      (hreads.folder.trans (h.readerFolder m)) fun n _ => h.readerFolder n
  · exact Clients.forall_setReader (P := fun n r => r.moduleName = deviceName n) _ _ _ _
      (hreads.module.trans (h.readerModule m)) fun n _ => h.readerModule n
  · exact (h.holds n).same fun q => congrFun hreads.file _
  · exact h.writer_moved hmoved nofun rfl
  · by_cases hn : n = m
    · subst hn
      rw [Clients.setReader_self]
      exact hreads.attached
    · exact h.reader_moved hmoved fun heq => hn (Client.reader.inj heq)
  · rintro ⟨f, hf⟩
    obtain ⟨hsize, hframes⟩ := (h.holds m).block hblock hf buffer
    obtain ⟨hok, rfl⟩ := hfull f hf hsize
    exact ⟨hok, hframes⟩

end

/-! ## Any calls of all clients -/

/-- A call of the writer or of the reader of a module. -/
inductive ClientCall
  | write (iModule : Nat) (pulseId : UInt64) (record : BufferBinaryFormat)
  | getBlock (iModule : Nat) (blockId : UInt64) (buffer : BufferBinaryBlock)

/-- One call; an exception goes to a caller that carries on. -/
def Clients.perform (s : Clients) : ClientCall → Clients
  | .write m pulseId record => s.write m pulseId record
  | .getBlock m blockId buffer => (s.getBlock m blockId buffer).2.2

/-- The frames that some calls write for a module. -/
def moduleWrites (m : Nat) (calls : List ClientCall) : List (UInt64 × BufferBinaryFormat) :=
  calls.filterMap fun
    | .write n pulseId record => if n = m then some (pulseId, record) else none
    | .getBlock .. => none

theorem moduleWrites_cons (m : Nat) (call : ClientCall) (calls : List ClientCall) :
    moduleWrites m (call :: calls) = moduleWrites m [call] ++ moduleWrites m calls := by
  unfold moduleWrites
  rw [← List.filterMap_append, List.singleton_append]

section

variable {detectorFolder : String} {ws : Nat → List (UInt64 × BufferBinaryFormat)} {s : Clients}

theorem ClientsOk.perform (h : ClientsOk detectorFolder ws s) (call : ClientCall) :
    ClientsOk detectorFolder (fun m => ws m ++ moduleWrites m [call]) (s.perform call) := by
  cases call with
  | write n pulseId record =>
    have hws : (fun m => ws m ++ moduleWrites m [.write n pulseId record]) =
        Function.update ws n (ws n ++ [(pulseId, record)]) := by
      funext m
      unfold moduleWrites
      by_cases hm : m = n
      · subst hm
        simp
      · have hne : ¬ n = m := fun heq => hm heq.symm
        simp [hm, hne]
    rw [hws]
    exact h.write n pulseId record
  | getBlock n blockId buffer =>
    obtain ⟨result, block, s', hget, hok, -, -⟩ := h.getBlock n blockId buffer
    have hws : (fun m => ws m ++ moduleWrites m [.getBlock n blockId buffer]) = ws := by
      funext m
      exact List.append_nil _
    rw [hws]
    simp only [Clients.perform, hget]
    exact hok

theorem ClientsOk.foldl : ∀ (calls : List ClientCall) {ws : Nat → List (UInt64 × BufferBinaryFormat)} {s : Clients},
    ClientsOk detectorFolder ws s →
      ClientsOk detectorFolder (fun m => ws m ++ moduleWrites m calls) (calls.foldl Clients.perform s)
  | [], ws, s, h => by
    have hws : (fun m => ws m ++ moduleWrites m []) = ws := by
      funext m
      exact List.append_nil _
    rw [hws]
    exact h
  | call :: calls, ws, s, h => by
    have hws : (fun m => ws m ++ moduleWrites m (call :: calls)) =
        fun m => ws m ++ moduleWrites m [call] ++ moduleWrites m calls := by
      funext m
      rw [moduleWrites_cons, List.append_assoc]
    rw [hws]
    exact ClientsOk.foldl calls (h.perform call)

end

/-- The buffer of a detector with no files yet, after some calls. -/
theorem ClientsOk.after {detectorFolder : String} {disk : Disk}
    (hnew : ∀ m p, disk.file (getFilename detectorFolder (deviceName m) p) = none) (calls : List ClientCall) :
    ClientsOk detectorFolder (fun m => moduleWrites m calls) (calls.foldl Clients.perform (.start detectorFolder disk)) := by
  have h := ClientsOk.foldl calls (ClientsOk.start hnew)
  simpa only [List.nil_append] using h

/-- Whatever the writers and readers of all modules did with a detector's files, which did not exist
before: a block of a module that is read holds the last frame written for each pulse by that module's
writer, and zeros where it wrote none. -/
theorem detector_round_trip (detectorFolder : String) (disk : Disk)
    (hnew : ∀ m p, disk.file (getFilename detectorFolder (deviceName m) p) = none) (calls : List ClientCall)
    (m : Nat) {blockId : UInt64} (hblock : bufferBlockSize * blockId.toNat < 2 ^ 64)
    (hwritten : ∃ w ∈ moduleWrites m calls, fileBase w.1 = fileBase (blockId * UInt64.ofNat bufferBlockSize))
    (buffer : BufferBinaryBlock) :
    ∃ s', (calls.foldl Clients.perform (.start detectorFolder disk)).getBlock m blockId buffer =
      (.ok (), { buffer with
        frame := fun i => lastRecord (moduleWrites m calls) (bufferBlockSize * blockId.toNat + i) }, s') := by
  have h := ClientsOk.after hnew calls
  obtain ⟨w, hw, hbase⟩ := hwritten
  obtain ⟨result, block, s', hget, -, -, hread⟩ := h.getBlock m blockId buffer
  obtain ⟨f, hf⟩ := (h.holds m).written w hw
  rw [getFilename_inj.2 hbase] at hf
  obtain ⟨rfl, rfl⟩ := hread hblock ⟨f, hf⟩
  exact ⟨s', hget⟩

/-- Two modules write pulse 5, the first one twice: each reads its own frame. -/
theorem detector_round_trip_twoModules : ∃ calls : List ClientCall, ∃ s',
    (calls.foldl Clients.perform (.start "/buffer/JF02" emptyDisk)).getBlock 1 0 emptyBlock =
      (.ok (), { emptyBlock with
        frame := fun i => lastRecord (moduleWrites 1 calls) (bufferBlockSize * (0 : UInt64).toNat + i) }, s') ∧
      lastRecord (moduleWrites 1 calls) 5 = recordOfFive 2 := by
  have hwrites : moduleWrites 1 [.write 0 5 (recordOfFive 1), .write 1 5 (recordOfFive 2),
      .getBlock 0 0 emptyBlock, .write 0 5 (recordOfFive 3)] = [] ++ [(5, recordOfFive 2)] := rfl
  have hmem : ∃ w ∈ moduleWrites 1 [.write 0 5 (recordOfFive 1), .write 1 5 (recordOfFive 2),
      .getBlock 0 0 emptyBlock, .write 0 5 (recordOfFive 3)],
      fileBase w.1 = fileBase (0 * UInt64.ofNat bufferBlockSize) := ⟨_, List.mem_singleton.2 rfl, rfl⟩
  obtain ⟨s', hread⟩ := detector_round_trip "/buffer/JF02" emptyDisk (fun _ _ => rfl) _ 1 (by decide) hmem emptyBlock
  refine ⟨_, s', hread, ?_⟩
  rw [hwrites]
  exact lastRecord_append_same [] (5, recordOfFive 2)

end SfDaqBuffer.DiskBuffer
