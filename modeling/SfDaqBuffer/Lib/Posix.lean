/-
System calls on files: an interface that a program is written against, a log of the calls a program
makes, and a file system that behaves as POSIX says when no call fails for want of space or rights.
-/
import SfDaqBuffer.Lib.Memory

namespace SfDaqBuffer.Posix

/-! ## Calls -/

/-- The commands given to `system`. -/
inductive Command
  | mkdir (folder : String)
  | echo (line file : String)
  deriving DecidableEq, Repr

/-- The text that the shell gets. -/
def Command.text : Command → String
  | .mkdir folder => "mkdir -p " ++ folder
  | .echo line file => "echo " ++ line ++ " > " ++ file

/-- The calls of a process in a system with states `σ`. Each returns the result of the C function:
`-1` for a failure, else a descriptor, an offset or a number of bytes. Of the bytes of `read` only
the returned number counts. -/
structure Os (σ : Type) where
  openFile : (name : String) → (create : Bool) → σ → Int × σ
  closeFile : (fd : Int) → σ → Int × σ
  lseek : (fd : Int) → (offset : Nat) → σ → Int × σ
  write : (fd : Int) → {n : Nat} → (Fin n → UInt8) → σ → Int × σ
  read : (fd : Int) → (n : Nat) → σ → Int × (Fin n → UInt8) × σ
  system : Command → σ → σ
  strerror : σ → String
  now : σ → String
  lseek_bad : ∀ {fd}, fd < 0 → ∀ offset s, (lseek fd offset s).1 < 0
  write_range : ∀ fd {n} (bytes : Fin n → UInt8) s, -1 ≤ (write fd bytes s).1 ∧ (write fd bytes s).1 ≤ n
  read_range : ∀ fd n s, -1 ≤ (read fd n s).1 ∧ (read fd n s).1 ≤ n

/-- An `ssize_t` where a `size_t` is expected. -/
def toSizeT (n : Int) : Nat := (n % 2 ^ 64).toNat

theorem toSizeT_natCast {n : Nat} (h : n < 2 ^ 64) : toSizeT n = n := by
  unfold toSizeT
  omega

/-- A result compared as a `size_t` counts as short when it is, but not when it is `-1`. -/
theorem toSizeT_lt_iff {result : Int} {n : Nat} (hn : n < 2 ^ 64) (hlo : -1 ≤ result) (hhi : result ≤ n) :
    toSizeT result < n ↔ result ≠ -1 ∧ result ≠ n := by
  unfold toSizeT
  omega

/-! ## Logged calls -/

/-- A call that was made, with its result. -/
inductive Event
  | opened (name : String) (fd : Int)
  | closed (fd result : Int)
  | sought (fd : Int) (offset : Nat) (result : Int)
  | wrote (fd : Int) {n : Nat} (bytes : Fin n → UInt8) (result : Int)
  | gave (fd : Int) (n : Nat) (result : Int)
  | ran (command : Command)

/-- The same calls, with a log of them. -/
def Os.logged {σ : Type} (os : Os σ) : Os (σ × List Event) where
  openFile name create s :=
    let (fd, s') := os.openFile name create s.1
    (fd, s', s.2 ++ [.opened name fd])
  closeFile fd s :=
    let (result, s') := os.closeFile fd s.1
    (result, s', s.2 ++ [.closed fd result])
  lseek fd offset s :=
    let (result, s') := os.lseek fd offset s.1
    (result, s', s.2 ++ [.sought fd offset result])
  write fd _ bytes s :=
    let (result, s') := os.write fd bytes s.1
    (result, s', s.2 ++ [.wrote fd bytes result])
  read fd n s :=
    let (result, bytes, s') := os.read fd n s.1
    (result, bytes, s', s.2 ++ [.gave fd n result])
  system command s := (os.system command s.1, s.2 ++ [.ran command])
  strerror s := os.strerror s.1
  now s := os.now s.1
  lseek_bad h offset s := os.lseek_bad h offset s.1
  write_range fd _ bytes s := os.write_range fd bytes s.1
  read_range fd n s := os.read_range fd n s.1

theorem Os.logged_openFile {σ : Type} {os : Os σ} {name : String} {create : Bool} {fd : Int} {s s' : σ}
    (h : os.openFile name create s = (fd, s')) (log : List Event) :
    os.logged.openFile name create (s, log) = (fd, s', log ++ [.opened name fd]) := by
  unfold Os.logged
  simp only [h]

theorem Os.logged_closeFile {σ : Type} {os : Os σ} {fd result : Int} {s s' : σ}
    (h : os.closeFile fd s = (result, s')) (log : List Event) :
    os.logged.closeFile fd (s, log) = (result, s', log ++ [.closed fd result]) := by
  unfold Os.logged
  simp only [h]

theorem Os.logged_lseek {σ : Type} {os : Os σ} {fd result : Int} {offset : Nat} {s s' : σ}
    (h : os.lseek fd offset s = (result, s')) (log : List Event) :
    os.logged.lseek fd offset (s, log) = (result, s', log ++ [.sought fd offset result]) := by
  unfold Os.logged
  simp only [h]

theorem Os.logged_write {σ : Type} {os : Os σ} {fd result : Int} {n : Nat} {bytes : Fin n → UInt8} {s s' : σ}
    (h : os.write fd bytes s = (result, s')) (log : List Event) :
    os.logged.write fd bytes (s, log) = (result, s', log ++ [.wrote fd bytes result]) := by
  unfold Os.logged
  simp only [h]

/-! ## Files -/

/-- The contents of a file. What was never written reads as zero. -/
structure File where
  size : Nat
  byte : Nat → UInt8
  byte_of_le : ∀ a, size ≤ a → byte a = 0

namespace File

def empty : File := ⟨0, fun _ => 0, fun _ _ => rfl⟩

/-- Writing behind the end leaves a hole. -/
def write (f : File) (off : Nat) {n : Nat} (src : Fin n → UInt8) : File where
  size := if n = 0 then f.size else max f.size (off + n)
  byte := Memory.write f.byte off src
  byte_of_le a ha := by
    split at ha
    · rename_i hn
      rw [Memory.write_outside _ _ _ (by omega)]
      exact f.byte_of_le a ha
    · rw [Memory.write_outside _ _ _ (by omega)]
      exact f.byte_of_le a (by omega)

@[simp] theorem byte_write (f : File) (off : Nat) {n : Nat} (src : Fin n → UInt8) :
    (f.write off src).byte = Memory.write f.byte off src := rfl

theorem size_write (f : File) (off : Nat) {n : Nat} (src : Fin n → UInt8) (hn : 0 < n) :
    (f.write off src).size = max f.size (off + n) := if_neg hn.ne'

theorem size_le_write (f : File) (off : Nat) {n : Nat} (src : Fin n → UInt8) : f.size ≤ (f.write off src).size := by
  unfold write
  show f.size ≤ if n = 0 then f.size else max f.size (off + n)
  split
  · exact le_rfl
  · exact le_max_left ..

/-- The line that `echo` leaves in a file. -/
def ofLine (line : String) : File :=
  let bytes := (line ++ "\n").toUTF8.data
  ⟨bytes.size, fun a => bytes.getD a 0, fun _ ha => dif_neg (Nat.not_lt.2 ha)⟩

end File

/-! ## A file system -/

/-- Files by name, and for each open descriptor the name of its file and its offset. Descriptors
from `next` on were never given out. -/
structure Disk where
  file : String → Option File
  handle : Nat → Option (String × Nat)
  next : Nat

namespace Disk

/-- What an open descriptor refers to. -/
def opened (d : Disk) (fd : Int) : Option (String × Nat) := if 0 ≤ fd then d.handle fd.toNat else none

def setFile (d : Disk) (name : String) (f : File) : Disk :=
  { d with file := Function.update d.file name (some f) }

def setHandle (d : Disk) (fd : Int) (h : Option (String × Nat)) : Disk :=
  { d with handle := Function.update d.handle fd.toNat h }

def allocate (d : Disk) (name : String) : Int × Disk :=
  (d.next, { d with handle := Function.update d.handle d.next (some (name, 0)), next := d.next + 1 })

def openFile (name : String) (create : Bool) (d : Disk) : Int × Disk :=
  match d.file name with
  | some _ => d.allocate name
  | none => if create then (d.setFile name .empty).allocate name else (-1, d)

def closeFile (fd : Int) (d : Disk) : Int × Disk :=
  match d.opened fd with
  | some _ => (0, d.setHandle fd none)
  | none => (-1, d)

def lseek (fd : Int) (offset : Nat) (d : Disk) : Int × Disk :=
  match d.opened fd with
  | some (name, _) => (offset, d.setHandle fd (some (name, offset)))
  | none => (-1, d)

def write (fd : Int) {n : Nat} (bytes : Fin n → UInt8) (d : Disk) : Int × Disk :=
  match d.opened fd with
  | none => (-1, d)
  | some (name, offset) =>
    match d.file name with
    | none => (-1, d)
    | some f => (n, (d.setFile name (f.write offset bytes)).setHandle fd (some (name, offset + n)))

def read (fd : Int) (n : Nat) (d : Disk) : Int × (Fin n → UInt8) × Disk :=
  match d.opened fd with
  | none => (-1, fun _ => 0, d)
  | some (name, offset) =>
    match d.file name with
    | none => (-1, fun _ => 0, d)
    | some f =>
      let count := min n (f.size - offset)
      (count, Memory.read f.byte offset n, d.setHandle fd (some (name, offset + count)))

/-- What the commands do to files; the folders of a file are made before it is opened. -/
def system (command : Command) (d : Disk) : Disk :=
  match command with
  | .mkdir _ => d
  | .echo line file => d.setFile file (.ofLine line)

theorem opened_neg (d : Disk) {fd : Int} (h : fd < 0) : d.opened fd = none := if_neg (by omega)

def os : Os Disk where
  openFile := openFile
  closeFile := closeFile
  lseek := lseek
  write := write
  read := read
  system := system
  strerror _ := "Input/output error"
  now _ := ""
  lseek_bad h offset d := by
    unfold lseek
    rw [opened_neg d h]
    show (-1 : Int) < 0
    decide
  write_range fd n bytes d := by
    unfold write
    split
    · exact ⟨le_rfl, by show (-1 : Int) ≤ n; omega⟩
    · split
      · exact ⟨le_rfl, by show (-1 : Int) ≤ n; omega⟩
      · exact ⟨by show (-1 : Int) ≤ n; omega, le_rfl⟩
  read_range fd n d := by
    unfold read
    split
    · exact ⟨le_rfl, by show (-1 : Int) ≤ n; omega⟩
    · split
      · exact ⟨le_rfl, by show (-1 : Int) ≤ n; omega⟩
      · rename_i offset _ _ f _
        show -1 ≤ ((min n (f.size - offset) : Nat) : Int) ∧ ((min n (f.size - offset) : Nat) : Int) ≤ n
        omega

/-! ## Descriptors of a file -/

/-- `fd` is an open descriptor of the file `name`. -/
structure OpenAs (d : Disk) (fd : Int) (name : String) : Prop where
  nonneg : 0 ≤ fd
  lt_next : fd < d.next
  handle : ∃ offset, d.opened fd = some (name, offset)
  file : ∃ f, d.file name = some f

/-- `d'` comes from `d` by calls that leave the descriptors other than `fd` alone. -/
structure Others (fd : Int) (d d' : Disk) : Prop where
  next_le : d.next ≤ d'.next
  opened : ∀ fd', fd' ≠ fd → fd' < d.next → d'.opened fd' = d.opened fd'
  exists_file : ∀ name, (∃ f, d.file name = some f) → ∃ f, d'.file name = some f

theorem Others.refl (fd : Int) (d : Disk) : Others fd d d := ⟨le_rfl, fun _ _ _ => rfl, fun _ h => h⟩

theorem Others.trans {fd : Int} {d d₁ d₂ : Disk} (h : Others fd d d₁) (h' : Others fd d₁ d₂) : Others fd d d₂ where
  next_le := h.next_le.trans h'.next_le
  opened fd' hne hlt := by
    have hle := h.next_le
    rw [h'.opened fd' hne (by omega), h.opened fd' hne hlt]
  exists_file name hf := h'.exists_file name (h.exists_file name hf)

/-- A descriptor that the calls leave alone stays open. -/
theorem OpenAs.others {d d' : Disk} {fd fd' : Int} {name : String} (h : d.OpenAs fd' name) (hne : fd' ≠ fd)
    (ho : Others fd d d') : d'.OpenAs fd' name where
  nonneg := h.nonneg
  lt_next := by
    have hlt := h.lt_next
    have hle := ho.next_le
    omega
  handle := by
    rw [ho.opened fd' hne h.lt_next]
    exact h.handle
  file := ho.exists_file name h.file

theorem opened_setHandle_same (d : Disk) {fd : Int} (h : Option (String × Nat)) (hfd : 0 ≤ fd) :
    (d.setHandle fd h).opened fd = h := by
  unfold opened setHandle
  rw [if_pos hfd]
  exact Function.update_self ..

theorem opened_setHandle_other (d : Disk) {fd fd' : Int} (h : Option (String × Nat)) (hfd : 0 ≤ fd)
    (hne : fd' ≠ fd) : (d.setHandle fd h).opened fd' = d.opened fd' := by
  unfold opened setHandle
  by_cases hfd' : 0 ≤ fd'
  · rw [if_pos hfd', if_pos hfd']
    exact Function.update_of_ne (by omega) ..
  · rw [if_neg hfd', if_neg hfd']

theorem others_setHandle (d : Disk) {fd : Int} (h : Option (String × Nat)) (hfd : 0 ≤ fd) :
    Others fd d (d.setHandle fd h) :=
  ⟨le_rfl, fun _ hne _ => opened_setHandle_other d h hfd hne, fun _ hf => hf⟩

theorem file_setFile_same (d : Disk) (name : String) (f : File) : (d.setFile name f).file name = some f :=
  Function.update_self ..

theorem file_setFile_other (d : Disk) {name name' : String} (f : File) (h : name' ≠ name) :
    (d.setFile name f).file name' = d.file name' := Function.update_of_ne h ..

theorem others_setFile (fd : Int) (d : Disk) (name : String) (f : File) : Others fd d (d.setFile name f) where
  next_le := le_rfl
  opened _ _ _ := rfl
  exists_file name' hf := by
    by_cases hname : name' = name
    · exact ⟨f, by rw [hname]; exact file_setFile_same ..⟩
    · rw [file_setFile_other d f hname]
      exact hf

@[simp] theorem file_setHandle (d : Disk) (fd : Int) (h : Option (String × Nat)) : (d.setHandle fd h).file = d.file := rfl

theorem closeFile_open {d : Disk} {fd : Int} {name : String} (h : d.OpenAs fd name) :
    closeFile fd d = (0, d.setHandle fd none) := by
  obtain ⟨offset, hopen⟩ := h.handle
  unfold closeFile
  rw [hopen]

theorem lseek_open {d : Disk} {fd : Int} {name : String} (h : d.OpenAs fd name) (offset : Nat) :
    lseek fd offset d = ((offset : Int), d.setHandle fd (some (name, offset))) := by
  obtain ⟨old, hopen⟩ := h.handle
  unfold lseek
  rw [hopen]

/-- Opening a file, which is created when it does not exist. -/
theorem openFile_create (d : Disk) (name : String) :
    ∃ d', openFile name true d = ((d.next : Int), d') ∧ d'.OpenAs d.next name ∧ Others d.next d d' ∧
      (d'.file name = some ((d.file name).getD .empty)) ∧ ∀ name' ≠ name, d'.file name' = d.file name' := by
  have hopened : ∀ d₁ : Disk, d₁.next = d.next → (d₁.allocate name).2.opened d.next = some (name, 0) := by
    intro d₁ hnext
    unfold opened allocate
    rw [if_pos (by omega), hnext]
    exact Function.update_self ..
  have hothers : ∀ d₁ : Disk, d₁.next = d.next → Others d.next d₁ (d₁.allocate name).2 := by
    intro d₁ hnext
    refine ⟨Nat.le_succ _, fun fd' hne _ => ?_, fun _ hf => hf⟩
    unfold opened allocate
    rw [hnext]
    split
    · exact Function.update_of_ne (by omega) ..
    · rfl
  unfold openFile
  cases hf : d.file name with
  | some f =>
    refine ⟨_, rfl, ⟨by omega, ?_, ⟨0, hopened d rfl⟩, ⟨f, hf⟩⟩, hothers d rfl, hf, fun _ _ => rfl⟩
    show (d.next : Int) < ((d.next + 1 : Nat) : Int)
    omega
  | none =>
    have hsame := file_setFile_same d name .empty
    refine ⟨((d.setFile name .empty).allocate name).2, rfl, ⟨by omega, ?_, ⟨0, hopened _ rfl⟩, ⟨.empty, hsame⟩⟩,
      (others_setFile _ d name .empty).trans (hothers _ rfl), hsame, fun _ hne => file_setFile_other d .empty hne⟩
    show (d.next : Int) < ((d.next + 1 : Nat) : Int)
    omega

/-- Opening a file for reading. -/
theorem openFile_exists {d : Disk} {name : String} {f : File} (h : d.file name = some f) :
    openFile name false d = openFile name true d := by
  unfold openFile
  rw [h]

/-- Writing at an offset: `lseek`, then `write`. -/
theorem lseek_write {d : Disk} {fd : Int} {name : String} {f : File} (h : d.OpenAs fd name)
    (hf : d.file name = some f) (offset : Nat) {n : Nat} (bytes : Fin n → UInt8) :
    ∃ d₁ d₂, lseek fd offset d = ((offset : Int), d₁) ∧ write fd bytes d₁ = ((n : Int), d₂) ∧
      d₂.OpenAs fd name ∧ Others fd d d₂ ∧ d₂.file name = some (f.write offset bytes) ∧
      ∀ name' ≠ name, d₂.file name' = d.file name' := by
  have hsought : (d.setHandle fd (some (name, offset))).opened fd = some (name, offset) :=
    opened_setHandle_same d _ h.nonneg
  have hwrite : write fd bytes (d.setHandle fd (some (name, offset))) = ((n : Int),
      ((d.setHandle fd (some (name, offset))).setFile name (f.write offset bytes)).setHandle fd
        (some (name, offset + n))) := by
    unfold write
    rw [hsought]
    simp only [file_setHandle, hf]
  refine ⟨_, _, lseek_open h offset, hwrite, ?_, ?_, ?_, ?_⟩
  · exact ⟨h.nonneg, h.lt_next, ⟨_, opened_setHandle_same _ _ h.nonneg⟩, ⟨_, file_setFile_same ..⟩⟩
  · exact ((others_setHandle d _ h.nonneg).trans (others_setFile ..)).trans (others_setHandle _ _ h.nonneg)
  · exact file_setFile_same ..
  · exact fun _ hne => file_setFile_other _ _ hne

/-- Reading at an offset: `lseek`, then `read`, which stops at the end of the file. -/
theorem lseek_read {d : Disk} {fd : Int} {name : String} {f : File} (h : d.OpenAs fd name)
    (hf : d.file name = some f) (offset n : Nat) :
    ∃ d₁ d₂, lseek fd offset d = ((offset : Int), d₁) ∧
      read fd n d₁ = (((min n (f.size - offset) : Nat) : Int), Memory.read f.byte offset n, d₂) ∧
      d₂.OpenAs fd name ∧ Others fd d d₂ ∧ d₂.file = d.file := by
  have hsought : (d.setHandle fd (some (name, offset))).opened fd = some (name, offset) :=
    opened_setHandle_same d _ h.nonneg
  have hread : read fd n (d.setHandle fd (some (name, offset))) =
      (((min n (f.size - offset) : Nat) : Int), Memory.read f.byte offset n,
        (d.setHandle fd (some (name, offset))).setHandle fd (some (name, offset + min n (f.size - offset)))) := by
    unfold read
    rw [hsought]
    simp only [file_setHandle, hf]
  refine ⟨_, _, lseek_open h offset, hread, ?_, ?_, rfl⟩
  · exact ⟨h.nonneg, h.lt_next, ⟨_, opened_setHandle_same _ _ h.nonneg⟩, h.file⟩
  · exact (others_setHandle d _ h.nonneg).trans (others_setHandle _ _ h.nonneg)

end Disk

end SfDaqBuffer.Posix
