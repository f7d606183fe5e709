/-
The buffer files of a module as a map from pulses to records: on a file system `write` of the buffer
writer never fails and changes the record of one pulse, and `get_block` delivers the records of a
block.
-/
import SfDaqBuffer.BufferWriter.BufferBinaryWriter
import SfDaqBuffer.SfWriter.BufferBinaryReader

namespace SfDaqBuffer.DiskBuffer

open Posix CoreBuffer BufferUtils BufferWriter SfWriter
open BufferBinaryWriter (recordOffset)

/-! ## The map -/

/-- The last record among `ws` for a pulse, or zeros. -/
def lastRecord (ws : List (UInt64 × BufferBinaryFormat)) (pulse : Nat) : BufferBinaryFormat :=
  ((ws.filter fun w => w.1.toNat = pulse).getLast?.map Prod.snd).getD .zero

theorem lastRecord_append_same (ws : List (UInt64 × BufferBinaryFormat)) (w : UInt64 × BufferBinaryFormat) :
    lastRecord (ws ++ [w]) w.1.toNat = w.2 := by
  unfold lastRecord
  simp

theorem lastRecord_append_other (ws : List (UInt64 × BufferBinaryFormat)) {w : UInt64 × BufferBinaryFormat}
    {pulse : Nat} (h : w.1.toNat ≠ pulse) : lastRecord (ws ++ [w]) pulse = lastRecord ws pulse := by
  unfold lastRecord
  simp [h]

theorem lastRecord_of_notMem {ws : List (UInt64 × BufferBinaryFormat)} {pulse : Nat}
    (h : ∀ w ∈ ws, w.1.toNat ≠ pulse) : lastRecord ws pulse = .zero := by
  have hnone : (ws.filter fun w => w.1.toNat = pulse) = [] := by simpa using h
  unfold lastRecord
  rw [hnone]
  rfl

/-- Record `k` of a file. -/
def recordAt (f : File) (k : Nat) : BufferBinaryFormat :=
  .ofBytes (Memory.read f.byte (k * sizeofBufferBinaryFormat) sizeofBufferBinaryFormat)

/-- The files of a module after the writes `ws`. -/
structure DiskHolds (detectorFolder moduleName : String) (ws : List (UInt64 × BufferBinaryFormat)) (d : Disk) :
    Prop where
  size : ∀ p f, d.file (getFilename detectorFolder moduleName p) = some f → maxFileBytes < f.size
  record : ∀ p f, d.file (getFilename detectorFolder moduleName p) = some f →
    ∀ k < fileMod, recordAt f k = lastRecord ws (fileBase p + k)
  written : ∀ w ∈ ws, ∃ f, d.file (getFilename detectorFolder moduleName w.1) = some f

theorem diskHolds_nil {detectorFolder moduleName : String} {d : Disk}
    (h : ∀ p, d.file (getFilename detectorFolder moduleName p) = none) : DiskHolds detectorFolder moduleName [] d where
  size p f hf := by
    rw [h p] at hf
    cases hf
  record p f hf := by
    rw [h p] at hf
    cases hf
  written := nofun

/-- No record reaches the mark behind the last one. -/
theorem recordOffset_within (p : UInt64) : recordOffset p + sizeofBufferBinaryFormat ≤ maxFileBytes :=
  Memory.cell_within (getFileFrameIndex_lt p)

/-! ## The writer on a file system -/

/-- The writer's descriptor is that of its current file. -/
structure Attached (w : BufferBinaryWriter) (d : Disk) : Prop where
  latest : w.latestFilename = w.detectorFolder ++ "/" ++ w.moduleName ++ "/LATEST"
  file : (w.outputFileFd = -1 ∧ w.currentOutputFilename = "") ∨
    (∃ p, w.currentOutputFilename = w.filename p) ∧ d.OpenAs w.outputFileFd w.currentOutputFilename

/-- The disk `d₁` on which the file of `pulseId` was opened as `fd`. -/
structure Selects (w : BufferBinaryWriter) (pulseId : UInt64) (d : Disk) (fd : Int) (d₁ : Disk) : Prop where
  openAs : d₁.OpenAs fd (w.filename pulseId)
  otherFile : ∀ name, name ≠ w.filename pulseId → name ≠ w.latestFilename → d₁.file name = d.file name
  file : ∃ f, d₁.file (w.filename pulseId) = some f ∧ maxFileBytes < f.size ∧
    ∀ a < maxFileBytes, f.byte a = ((d.file (w.filename pulseId)).getD .empty).byte a
  otherHandle : ∀ fd' name, d.OpenAs fd' name → fd' ≠ w.outputFileFd → fd' ≠ fd ∧ d₁.OpenAs fd' name

section

variable {w : BufferBinaryWriter} {d : Disk}

theorem released_disk (h : Attached w d) :
    ∃ d₀, w.released Disk.os d = .ok d₀ ∧ (∀ name, name ≠ w.latestFilename → d₀.file name = d.file name) ∧
      Disk.Others w.outputFileFd d d₀ := by
  unfold BufferBinaryWriter.released
  rcases h.file with ⟨hfd, -⟩ | ⟨-, hopen⟩
  · rw [if_pos hfd]
    exact ⟨d, rfl, fun _ _ => rfl, .refl ..⟩
  · have hnonneg := hopen.nonneg
    have hclose : Disk.os.closeFile w.outputFileFd d = (0, d.setHandle w.outputFileFd none) :=
      Disk.closeFile_open hopen
    rw [if_neg (by omega)]
    simp only [hclose]
    rw [if_neg (by decide)]
    refine ⟨_, rfl, fun name hne => ?_, ?_⟩
    · exact Disk.file_setFile_other _ _ hne
    · exact (Disk.others_setHandle d none hnonneg).trans (Disk.others_setFile ..)

theorem createDestinationFolder_disk (name : String) (d : Disk) : createDestinationFolder Disk.os name d = d := by
  unfold createDestinationFolder
  split <;> rfl

theorem preallocated_disk (name : String) (d : Disk) :
    ∃ d₁, BufferBinaryWriter.preallocated Disk.os name d = .ok ((d.next : Int), d₁) ∧ d₁.OpenAs d.next name ∧
      Disk.Others d.next d d₁ ∧ (∀ name', name' ≠ name → d₁.file name' = d.file name') ∧
      d₁.file name = some (((d.file name).getD .empty).write maxFileBytes (fun _ : Fin 1 => 255)) := by
  obtain ⟨d', hopen, hopenAs, hothers, hfile, hother⟩ := Disk.openFile_create d name
  obtain ⟨d₂, d₁, hlseek, hwrite, hopenAs₁, hothers₁, hfile₁, hother₁⟩ :=
    Disk.lseek_write hopenAs hfile maxFileBytes (fun _ : Fin 1 => 255)
  have hopen' : Disk.os.openFile name true d = ((d.next : Int), d') := hopen
  have hlseek' : Disk.os.lseek d.next maxFileBytes d' = ((maxFileBytes : Int), d₂) := hlseek
  have hwrite' : Disk.os.write d.next (fun _ : Fin 1 => 255) d₂ = (1, d₁) := hwrite
  have hnext : ¬ (d.next : Int) < 0 := by omega
  have hmax : ¬ (maxFileBytes : Int) < 0 := by omega
  unfold BufferBinaryWriter.preallocated
  rw [createDestinationFolder_disk]
  simp only [hopen', hlseek', hwrite', hnext, hmax, if_false, if_true]
  exact ⟨d₁, rfl, hopenAs₁, hothers.trans hothers₁, fun name' hne => (hother₁ name' hne).trans (hother name' hne), hfile₁⟩

theorem selected_disk (h : Attached w d) (pulseId : UInt64)
    (hsize : ∀ f, d.file (w.filename pulseId) = some f → maxFileBytes < f.size) :
    ∃ fd d₁, w.selected Disk.os pulseId d = .ok (fd, d₁) ∧ Selects w pulseId d fd d₁ := by
  unfold BufferBinaryWriter.selected
  by_cases hsame : w.filename pulseId = w.currentOutputFilename
  · rw [if_pos hsame]
    have hopen : d.OpenAs w.outputFileFd (w.filename pulseId) := by
      rcases h.file with ⟨-, hempty⟩ | ⟨-, hopen⟩
      · exact absurd (hsame.trans hempty) (getFilename_ne_empty _ _ _)
      · rwa [hsame]
    obtain ⟨f, hf⟩ := hopen.file
    exact ⟨_, _, rfl, hopen, fun _ _ _ => rfl, ⟨f, hf, hsize f hf, fun _ _ => by rw [hf]; rfl⟩,
      fun _ _ hopen' hne => ⟨hne, hopen'⟩⟩
  · rw [if_neg hsame]
    obtain ⟨d₀, hreleased, hfile₀, hothers₀⟩ := released_disk h
    obtain ⟨d₁, hpre, hopen₁, hothers₁, hother₁, hfile₁⟩ := preallocated_disk (w.filename pulseId) d₀
    have hlatest : w.filename pulseId ≠ w.latestFilename := by
      rw [h.latest]
      exact getFilename_ne_latest _ _ _
    rw [hreleased]
    refine ⟨_, d₁, hpre, hopen₁, ?_, ⟨_, hfile₁, ?_, ?_⟩, ?_⟩
    · intro name hne hne'
      rw [hother₁ name hne, hfile₀ name hne']
    · rw [File.size_write _ _ _ Nat.one_pos]
      exact lt_max_of_lt_right (Nat.lt_succ_self _)
    · intro a ha
      rw [File.byte_write, Memory.write_outside _ _ _ (.inl ha), hfile₀ _ hlatest]
    · intro fd' name hopen' hne
      have hlt := hopen'.lt_next
      have hle := hothers₀.next_le
      have hne' : fd' ≠ d₀.next := by omega
      exact ⟨hne', (hopen'.others hne hothers₀).others hne' hothers₁⟩

/-- A write succeeds and leaves the writer attached to the file of the pulse. -/
theorem write_disk (h : Attached w d) (pulseId : UInt64) (record : BufferBinaryFormat)
    (hsize : ∀ f, d.file (w.filename pulseId) = some f → maxFileBytes < f.size) :
    ∃ fd d₁ d₂ f, w.write Disk.os pulseId record d = (.ok (), w.withFile fd pulseId, d₂) ∧
      Selects w pulseId d fd d₁ ∧ d₁.file (w.filename pulseId) = some f ∧ Attached (w.withFile fd pulseId) d₂ ∧
      Disk.Others fd d₁ d₂ ∧ d₂.file (w.filename pulseId) = some (f.write (recordOffset pulseId) record.toBytes) ∧
      ∀ name, name ≠ w.filename pulseId → d₂.file name = d₁.file name := by
  obtain ⟨fd, d₁, hselected, hselects⟩ := selected_disk h pulseId hsize
  obtain ⟨f, hf, -⟩ := hselects.file
  obtain ⟨d', d₂, hlseek, hwrite, hopen₂, hothers₂, hfile₂, hother₂⟩ :=
    Disk.lseek_write hselects.openAs hf (recordOffset pulseId) record.toBytes
  have htarget : w.target Disk.os pulseId d = .ok (fd, d') := by
    have hlseek' : Disk.os.lseek fd (recordOffset pulseId) d₁ = ((recordOffset pulseId : Int), d') := hlseek
    unfold BufferBinaryWriter.target
    rw [hselected]
    simp only [hlseek']
    exact if_neg (by omega)
  have hwrite' : Disk.os.write fd record.toBytes d' = ((sizeofBufferBinaryFormat : Int), d₂) := hwrite
  have hfull : ¬ toSizeT (sizeofBufferBinaryFormat : Int) < sizeofBufferBinaryFormat := by decide
  obtain ⟨e, hdone⟩ := BufferBinaryWriter.write_target htarget record
  rw [hwrite', if_neg hfull] at hdone
  exact ⟨fd, d₁, d₂, f, hdone, hselects, hf, ⟨h.latest, .inr ⟨⟨pulseId, rfl⟩, hopen₂⟩⟩, hothers₂, hfile₂, hother₂⟩

/-- Writing the record of a pulse changes that record only. -/
theorem recordAt_write (f : File) (pulseId : UInt64) (record : BufferBinaryFormat) (k : Nat) :
    recordAt (f.write (recordOffset pulseId) record.toBytes) k =
      if k = (getFileFrameIndex pulseId).toNat then record else recordAt f k := by
  unfold recordAt recordOffset
  rw [File.byte_write]
  split
  · rename_i hk
    rw [hk, Memory.read_write_same, BufferBinaryFormat.ofBytes_toBytes]
  · rename_i hk
    rw [Memory.read_write_disjoint _ _ _ (Memory.cells_disjoint hk)]

theorem recordAt_empty (k : Nat) : recordAt .empty k = .zero := BufferBinaryFormat.ofBytes_zero

theorem recordAt_congr {f f' : File} {k : Nat} (hk : k < fileMod) (h : ∀ a < maxFileBytes, f.byte a = f'.byte a) :
    recordAt f k = recordAt f' k := by
  have hwithin : k * sizeofBufferBinaryFormat + sizeofBufferBinaryFormat ≤ maxFileBytes := Memory.cell_within hk
  unfold recordAt
  rw [Memory.read_congr fun a _ ha => h a (by omega)]

section

variable {detectorFolder moduleName : String} {ws : List (UInt64 × BufferBinaryFormat)} {pulseId : UInt64} {f : File}

/-- The records that a write finds in the file of its pulse, which is empty when there was none. -/
theorem DiskHolds.before (hd : DiskHolds detectorFolder moduleName ws d)
    (hbytes : ∀ a < maxFileBytes, f.byte a = ((d.file (getFilename detectorFolder moduleName pulseId)).getD .empty).byte a)
    {k : Nat} (hk : k < fileMod) : recordAt f k = lastRecord ws (fileBase pulseId + k) := by
  rw [recordAt_congr hk hbytes]
  cases hbefore : d.file (getFilename detectorFolder moduleName pulseId) with
  | some f₀ => exact hd.record pulseId f₀ hbefore k hk
  | none =>
    rw [Option.getD_none, recordAt_empty, lastRecord_of_notMem]
    intro v hv hpulse
    obtain ⟨f₀, hf₀⟩ := hd.written v hv
    rw [getFilename_inj.2 (fileBase_of_eq_add hk hpulse)] at hf₀
    exact absurd (hf₀.symm.trans hbefore) (by simp)

/-- One record is added to the file of its pulse, and the other files are as before. -/
theorem DiskHolds.append (hd : DiskHolds detectorFolder moduleName ws d) {d' : Disk} {record : BufferBinaryFormat}
    (hsize : maxFileBytes < f.size)
    (hbytes : ∀ a < maxFileBytes, f.byte a = ((d.file (getFilename detectorFolder moduleName pulseId)).getD .empty).byte a)
    (hfile : d'.file (getFilename detectorFolder moduleName pulseId) =
      some (f.write (recordOffset pulseId) record.toBytes))
    (hother : ∀ q, getFilename detectorFolder moduleName q ≠ getFilename detectorFolder moduleName pulseId →
      d'.file (getFilename detectorFolder moduleName q) = d.file (getFilename detectorFolder moduleName q)) :
    DiskHolds detectorFolder moduleName (ws ++ [(pulseId, record)]) d' := by
  constructor
  · intro q f' hf'
    by_cases hq : getFilename detectorFolder moduleName q = getFilename detectorFolder moduleName pulseId
    · rw [hq, hfile] at hf'
      obtain rfl := Option.some.inj hf'
      exact hsize.trans_le (File.size_le_write ..)
    · rw [hother q hq] at hf'
      exact hd.size q f' hf'
  · intro q f' hf' k hk
    by_cases hq : getFilename detectorFolder moduleName q = getFilename detectorFolder moduleName pulseId
    · rw [hq, hfile] at hf'
      obtain rfl := Option.some.inj hf'
      have hbase : fileBase q = fileBase pulseId := getFilename_inj.1 hq
      have hsum := fileBase_add_index pulseId
      rw [recordAt_write, hbase]
      split
      · rename_i hk'
        rw [hk', hsum, lastRecord_append_same ws (pulseId, record)]
      · rename_i hk'
        rw [lastRecord_append_other ws (show pulseId.toNat ≠ fileBase pulseId + k by omega)]
        exact hd.before hbytes hk
    · rw [hother q hq] at hf'
      rw [hd.record q f' hf' k hk, lastRecord_append_other]
      -- the pulse written belongs to another file
      intro hpulse
      exact hq (getFilename_inj.2 (fileBase_of_eq_add hk hpulse).symm)
  · intro v hv
    by_cases hq : getFilename detectorFolder moduleName v.1 = getFilename detectorFolder moduleName pulseId
    · exact ⟨_, by rw [hq, hfile]⟩
    · rcases List.mem_append.1 hv with hv | hv
      · rw [hother v.1 hq]
        exact hd.written v hv
      · obtain rfl := List.mem_singleton.1 hv
        exact absurd rfl hq

end

/-- The map after a write. -/
theorem DiskHolds.write {ws : List (UInt64 × BufferBinaryFormat)}
    (hd : DiskHolds w.detectorFolder w.moduleName ws d) (h : Attached w d) (pulseId : UInt64)
    (record : BufferBinaryFormat) :
    ∃ fd d', w.write Disk.os pulseId record d = (.ok (), w.withFile fd pulseId, d') ∧
      DiskHolds w.detectorFolder w.moduleName (ws ++ [(pulseId, record)]) d' ∧ Attached (w.withFile fd pulseId) d' ∧
      ∀ fd' name, d.OpenAs fd' name → fd' ≠ w.outputFileFd → fd' ≠ fd ∧ d'.OpenAs fd' name := by
  obtain ⟨fd, d₁, d', f, hwrite, hselects, hf, hattached, hothers, hfile, hother⟩ :=
    write_disk h pulseId record (hd.size pulseId)
  obtain ⟨f₁, hf₁, hsize, hbytes⟩ := hselects.file
  obtain rfl := Option.some.inj (hf.symm.trans hf₁)
  have hunchanged : ∀ q, getFilename w.detectorFolder w.moduleName q ≠ w.filename pulseId →
      d'.file (getFilename w.detectorFolder w.moduleName q) = d.file (getFilename w.detectorFolder w.moduleName q) := by
    intro q hne
    rw [hother _ hne, hselects.otherFile _ hne]
    rw [h.latest]
    exact getFilename_ne_latest _ _ _
  refine ⟨fd, d', hwrite, hd.append hsize hbytes hfile hunchanged, hattached, ?_⟩
  intro fd' name hopen hne
  obtain ⟨hne', hopen'⟩ := hselects.otherHandle fd' name hopen hne
  exact ⟨hne', hopen'.others hne' hothers⟩

end

/-! ## The reader on a file system -/

/-- The reader's descriptor is that of its current file. -/
def ReaderAttached (r : BufferBinaryReader) (d : Disk) : Prop :=
  (r.inputFileFd = -1 ∧ r.currentInputFile = "") ∨ d.OpenAs r.inputFileFd r.currentInputFile

/-- Calls of the reader change no file and none of the other descriptors. -/
structure Reads (r r' : BufferBinaryReader) (d d' : Disk) : Prop where
  attached : ReaderAttached r' d'
  folder : r'.detectorFolder = r.detectorFolder
  module : r'.moduleName = r.moduleName
  file : d'.file = d.file
  otherHandle : ∀ fd name, d.OpenAs fd name → fd ≠ r.inputFileFd → fd ≠ r'.inputFileFd ∧ d'.OpenAs fd name

section

variable {r : BufferBinaryReader} {d : Disk}

theorem closeCurrentFile_disk (h : ReaderAttached r d) :
    ∃ d', r.closeCurrentFile Disk.os d = (.ok (), { r with inputFileFd := -1, currentInputFile := "" }, d') ∧
      d'.file = d.file ∧ Disk.Others r.inputFileFd d d' := by
  unfold BufferBinaryReader.closeCurrentFile
  rcases h with ⟨hfd, hname⟩ | hopen
  · rw [if_neg (not_not.2 hfd), ← hname, ← hfd]
    exact ⟨d, rfl, rfl, .refl ..⟩
  · have hnonneg := hopen.nonneg
    have hclose : Disk.os.closeFile r.inputFileFd d = (0, d.setHandle r.inputFileFd none) := Disk.closeFile_open hopen
    rw [if_pos (by omega)]
    simp only [hclose]
    rw [if_neg (by decide)]
    exact ⟨_, rfl, rfl, Disk.others_setHandle d none hnonneg⟩

theorem openFile_disk (h : ReaderAttached r d) (filename : String) :
    ∃ result r' d', r.openFile Disk.os filename d = (result, r', d') ∧ Reads r r' d d' ∧
      (result = .ok () → r'.currentInputFile = filename ∧ d'.OpenAs r'.inputFileFd filename) ∧
      ((∃ f, d.file filename = some f) → result = .ok ()) := by
  obtain ⟨d₀, hclose, hfile₀, hothers₀⟩ := closeCurrentFile_disk h
  unfold BufferBinaryReader.openFile
  rw [hclose]
  cases hf : d₀.file filename with
  | none =>
    have hopen : Disk.os.openFile filename false d₀ = (-1, d₀) := by
      show Disk.openFile filename false d₀ = (-1, d₀)
      unfold Disk.openFile
      rw [hf]
      rfl
    simp only [hopen]
    rw [if_pos (by decide)]
    refine ⟨_, _, d₀, rfl, ⟨.inl ⟨rfl, rfl⟩, rfl, rfl, hfile₀, ?_⟩, nofun, ?_⟩
    · intro fd name hopenAs hne
      have hnonneg := hopenAs.nonneg
      exact ⟨by show fd ≠ -1; omega, hopenAs.others hne hothers₀⟩
    · rintro ⟨f, hf'⟩
      rw [hfile₀, hf'] at hf
      cases hf
  | some f =>
    obtain ⟨d₁, hopen, hopenAs₁, hothers₁, hsame₁, hother₁⟩ := Disk.openFile_create d₀ filename
    have hopen' : Disk.os.openFile filename false d₀ = ((d₀.next : Int), d₁) := (Disk.openFile_exists hf).trans hopen
    simp only [hopen']
    rw [if_neg (by omega)]
    refine ⟨_, _, d₁, rfl, ⟨.inr hopenAs₁, rfl, rfl, ?_, ?_⟩, fun _ => ⟨rfl, hopenAs₁⟩, fun _ => rfl⟩
    · rw [← hfile₀]
      funext name
      by_cases hname : name = filename
      · rw [hname, hsame₁, hf]
        rfl
      · exact hother₁ name hname
    · intro fd name hopenAs hne
      have hlt := hopenAs.lt_next
      have hle := hothers₀.next_le
      have hne' : fd ≠ d₀.next := by omega
      exact ⟨hne', (hopenAs.others hne hothers₀).others hne' hothers₁⟩

/-- `get_block` once the file is open. -/
theorem readBlock_disk {name : String} {f : File} (hopen : d.OpenAs r.inputFileFd name) (hname : r.currentInputFile = name)
    (hf : d.file name = some f) (offset : Nat) (buffer : BufferBinaryBlock) :
    ∃ result d', r.readBlock Disk.os offset buffer d = (result, r,
        fillBlock buffer (min sizeofBlockFrames (f.size - offset)) (Memory.read f.byte offset sizeofBlockFrames), d') ∧
      Reads r r d d' ∧ (offset + sizeofBlockFrames ≤ f.size → result = .ok ()) := by
  obtain ⟨d₁, d₂, hlseek, hread, hopen₂, hothers₂, hfile₂⟩ := Disk.lseek_read hopen hf offset sizeofBlockFrames
  have hlseek' : Disk.os.lseek r.inputFileFd offset d = ((offset : Int), d₁) := hlseek
  have hread' : Disk.os.read r.inputFileFd sizeofBlockFrames d₁ =
      (((min sizeofBlockFrames (f.size - offset) : Nat) : Int), Memory.read f.byte offset sizeofBlockFrames, d₂) := hread
  have hreads : Reads r r d d₂ :=
    ⟨.inr (hname ▸ hopen₂), rfl, rfl, hfile₂, fun fd _ hopen' hne => ⟨hne, hopen'.others hne hothers₂⟩⟩
  unfold BufferBinaryReader.readBlock
  simp only [hlseek', hread', Int.toNat_natCast]
  rw [if_neg (by omega)]
  by_cases hshort : toSizeT ((min sizeofBlockFrames (f.size - offset) : Nat) : Int) < sizeofBufferBinaryFormat
  · rw [if_pos hshort]
    refine ⟨_, d₂, rfl, hreads, fun hfull => ?_⟩
    rw [Nat.min_eq_left (Nat.le_sub_of_add_le' hfull), toSizeT_natCast (by decide)] at hshort
    exact absurd hshort (by decide)
  · rw [if_neg hshort]
    exact ⟨_, d₂, rfl, hreads, fun _ => rfl⟩

theorem Reads.trans {r₁ r₂ : BufferBinaryReader} {d₁ d₂ : Disk} (h : Reads r r₁ d d₁) (h' : Reads r₁ r₂ d₁ d₂) :
    Reads r r₂ d d₂ where
  attached := h'.attached
  folder := h'.folder.trans h.folder
  module := h'.module.trans h.module
  file := h'.file.trans h.file
  otherHandle fd name hopen hne := by
    obtain ⟨hne₁, hopen₁⟩ := h.otherHandle fd name hopen hne
    exact h'.otherHandle fd name hopen₁ hne₁

/-- The file and the offset of a block. -/
structure BlockPosition (r : BufferBinaryReader) (blockId : UInt64) (filename : String) (offset : Nat) : Prop where
  filename : filename = getFilename r.detectorFolder r.moduleName (blockId * UInt64.ofNat bufferBlockSize)
  offset : offset = (getFileFrameIndex (blockId * UInt64.ofNat bufferBlockSize)).toNat * sizeofBufferBinaryFormat

theorem getBlock_eq {σ : Type} (os : Os σ) {blockId : UInt64} {filename : String} {offset : Nat}
    (h : BlockPosition r blockId filename offset) (buffer : BufferBinaryBlock) (s : σ) :
    r.getBlock os blockId buffer s =
      if filename ≠ r.currentInputFile then
        match r.openFile os filename s with
        | (.error e, r, s) => (.error e, r, buffer, s)
        | (.ok (), r, s) => r.readBlock os offset buffer s
      else r.readBlock os offset buffer s := by
  rw [h.filename, h.offset]
  exact r.getBlock_eq os blockId buffer s

/-- `get_block` fills the block from its file when that is long enough, and in any case only moves
its own descriptor. -/
theorem getBlock_disk (h : ReaderAttached r d) {blockId : UInt64} {filename : String} {offset : Nat}
    (hpos : BlockPosition r blockId filename offset) (buffer : BufferBinaryBlock) :
    ∃ result r' block d', r.getBlock Disk.os blockId buffer d = (result, r', block, d') ∧ Reads r r' d d' ∧
      ∀ f, d.file filename = some f → offset + sizeofBlockFrames ≤ f.size →
        result = .ok () ∧ block = fillBlock buffer sizeofBlockFrames (Memory.read f.byte offset sizeofBlockFrames) := by
  rw [getBlock_eq Disk.os hpos]
  by_cases hsame : filename = r.currentInputFile
  · have hopen : d.OpenAs r.inputFileFd filename := by
      rcases h with ⟨-, hempty⟩ | hopen
      · exact absurd (hpos.filename.symm.trans (hsame.trans hempty)) (getFilename_ne_empty _ _ _)
      · rwa [hsame]
    obtain ⟨f, hf⟩ := hopen.file
    obtain ⟨result, d', hread, hreads, hok⟩ := readBlock_disk hopen hsame.symm hf offset buffer
    rw [if_neg (not_not.2 hsame), hread]
    refine ⟨_, _, _, _, rfl, hreads, ?_⟩
    intro f' hf' hsize
    obtain rfl := Option.some.inj (hf.symm.trans hf')
    exact ⟨hok hsize, by rw [Nat.min_eq_left (Nat.le_sub_of_add_le' hsize)]⟩
  · obtain ⟨opened, r₁, d₁, hopen, hreads₁, hopened, hexists⟩ := openFile_disk h filename
    rw [if_pos hsame, hopen]
    cases opened with
    | error e =>
      refine ⟨_, _, _, _, rfl, hreads₁, ?_⟩
      intro f hf
      cases hexists ⟨f, hf⟩
    | ok =>
      obtain ⟨hname, hopenAs⟩ := hopened rfl
      obtain ⟨f, hf⟩ := hopenAs.file
      obtain ⟨result, d', hread, hreads, hok⟩ := readBlock_disk hopenAs hname hf offset buffer
      simp only [hread]
      refine ⟨_, _, _, _, rfl, hreads₁.trans hreads, ?_⟩
      intro f' hf' hsize
      rw [hreads₁.file] at hf
      obtain rfl := Option.some.inj (hf.symm.trans hf')
      exact ⟨hok hsize, by rw [Nat.min_eq_left (Nat.le_sub_of_add_le' hsize)]⟩

/-- The records of a block that was filled from record `k` of a file on. -/
theorem fillBlock_frame (buffer : BufferBinaryBlock) (f : File) (k : Nat) (i : Fin bufferBlockSize) {offset : Nat}
    (hoffset : offset = k * sizeofBufferBinaryFormat) :
    (fillBlock buffer sizeofBlockFrames (Memory.read f.byte offset sizeofBlockFrames)).frame i = recordAt f (k + i) := by
  rw [hoffset, frame_fillBlock]
  unfold recordAt
  refine congrArg BufferBinaryFormat.ofBytes (funext fun j => ?_)
  rw [if_pos (blockByte_lt i j)]
  exact Memory.read_cell ..

end

end SfDaqBuffer.DiskBuffer
