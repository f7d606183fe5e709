/-
`BufferUtils` of core-buffer: the names of buffer files, the position of a pulse in its file, and
the two shell commands of the buffer writer.
-/
import SfDaqBuffer.Core.Formats
import SfDaqBuffer.Lib.Posix

namespace SfDaqBuffer.CoreBuffer.BufferUtils

open Posix

/-- The file that holds the frames of `pulseId` of a module. -/
def getFilename (detectorFolder moduleName : String) (pulseId : UInt64) : String :=
  let dataFolder := pulseId / UInt64.ofNat folderMod * UInt64.ofNat folderMod
  let dataFile := pulseId / UInt64.ofNat fileMod * UInt64.ofNat fileMod
  detectorFolder ++ "/" ++ moduleName ++ "/" ++ toString dataFolder ++ "/" ++ toString dataFile ++ fileExtension

def getFileFrameIndex (pulseId : UInt64) : UInt64 :=
  let fileBase := pulseId / UInt64.ofNat fileMod * UInt64.ofNat fileMod
  pulseId - fileBase

/-- `create_destination_folder`, with the folder up to the last separator. -/
def createDestinationFolder {σ : Type} (os : Os σ) (outputFile : String) (s : σ) : σ :=
  match outputFile.toList.reverse.dropWhile (· ≠ '/') with
  | [] => s
  | _ :: folder => os.system (.mkdir (String.ofList folder.reverse)) s

def updateLatestFile {σ : Type} (os : Os σ) (latestFilename filenameToWrite : String) (s : σ) : σ :=
  os.system (.echo filenameToWrite latestFilename) s

/-! ## Positions -/

theorem div_mul_toNat (pulseId : UInt64) {k : Nat} (hk : k < 2 ^ 64) :
    (pulseId / UInt64.ofNat k * UInt64.ofNat k).toNat = pulseId.toNat / k * k := by
  have hlt := pulseId.toNat_lt
  have hle := Nat.div_mul_le_self pulseId.toNat k
  have hkN : (UInt64.ofNat k).toNat = k := UInt64.toNat_ofNat_of_lt' hk
  rw [UInt64.toNat_mul, UInt64.toNat_div, hkN]
  exact Nat.mod_eq_of_lt (by omega)

/-- The first pulse of the file of a pulse. -/
def fileBase (pulseId : UInt64) : Nat := pulseId.toNat / fileMod * fileMod

theorem getFileFrameIndex_toNat (pulseId : UInt64) :
    (getFileFrameIndex pulseId).toNat = pulseId.toNat % fileMod := by
  have hbase : (pulseId / UInt64.ofNat fileMod * UInt64.ofNat fileMod).toNat = fileBase pulseId :=
    div_mul_toNat pulseId (by decide)
  have hdiv := Nat.div_add_mod pulseId.toNat fileMod
  unfold fileBase at hbase
  unfold getFileFrameIndex
  rw [UInt64.toNat_sub_of_le _ _ (UInt64.le_iff_toNat_le.2 (by rw [hbase]; exact Nat.div_mul_le_self ..)), hbase]
  simp only [fileMod] at hdiv ⊢
  omega

theorem getFileFrameIndex_lt (pulseId : UInt64) : (getFileFrameIndex pulseId).toNat < fileMod := by
  rw [getFileFrameIndex_toNat]
  exact Nat.mod_lt _ (by decide)

theorem fileBase_add_index (pulseId : UInt64) :
    fileBase pulseId + (getFileFrameIndex pulseId).toNat = pulseId.toNat := by
  rw [getFileFrameIndex_toNat]
  unfold fileBase
  simp only [fileMod]
  omega

/-- The pulses of a file. -/
theorem fileBase_of_eq_add {p q : UInt64} {k : Nat} (hk : k < fileMod) (h : q.toNat = fileBase p + k) :
    fileBase q = fileBase p := by
  unfold fileBase at h ⊢
  simp only [fileMod] at hk h ⊢
  omega

/-! ## Names -/

theorem getFilename_eq (detectorFolder moduleName : String) (pulseId : UInt64) :
    getFilename detectorFolder moduleName pulseId = detectorFolder ++ "/" ++ moduleName ++ "/" ++
      (pulseId.toNat / folderMod * folderMod).repr ++ "/" ++ (fileBase pulseId).repr ++ fileExtension := by
  have hfolder : toString (pulseId / UInt64.ofNat folderMod * UInt64.ofNat folderMod) =
      (pulseId.toNat / folderMod * folderMod).repr := by
    rw [← div_mul_toNat pulseId (by decide)]
    rfl
  have hfile : toString (pulseId / UInt64.ofNat fileMod * UInt64.ofNat fileMod) = (fileBase pulseId).repr := by
    unfold fileBase
    rw [← div_mul_toNat pulseId (by decide)]
    rfl
  unfold getFilename
  simp only [hfolder, hfile]

theorem slash_toList : "/".toList = ['/'] := String.toList_ofList ..

theorem fileExtension_toList : fileExtension.toList = ['.', 'b', 'i', 'n'] := String.toList_ofList ..

theorem slash_notMem_repr (n : Nat) : '/' ∉ n.repr.toList := by
  intro h
  rw [Nat.toList_repr] at h
  have hdigit := Nat.isDigit_of_mem_toDigits (by decide) (by decide) h
  exact absurd hdigit (by decide)

/-- The file of a pulse determines the first pulse in it. -/
theorem getFilename_inj {detectorFolder moduleName : String} {p q : UInt64} :
    getFilename detectorFolder moduleName p = getFilename detectorFolder moduleName q ↔ fileBase p = fileBase q := by
  constructor
  · intro h
    rw [getFilename_eq, getFilename_eq] at h
    have hchars := congrArg String.toList h
    simp only [String.toList_append, List.append_assoc, List.append_cancel_left_eq] at hchars
    have htail : '/' ∉ (fileBase p).repr.toList ++ fileExtension.toList := by
      rw [List.mem_append]
      rintro (h | h)
      · exact slash_notMem_repr _ h
      · rw [fileExtension_toList] at h
        exact absurd h (by decide)
    rw [slash_toList, List.singleton_append, List.singleton_append,
      List.append_cons_inj_of_notMem (slash_notMem_repr _) htail] at hchars
    obtain ⟨-, -, hfile⟩ := hchars
    have hdigits := List.append_cancel_right hfile
    rw [Nat.toList_repr, Nat.toList_repr] at hdigits
    rw [← Nat.ofDigitChars_ten_toDigits (n := fileBase p), hdigits, Nat.ofDigitChars_ten_toDigits]
  · intro h
    have hdiv : p.toNat / fileMod = q.toNat / fileMod := by
      unfold fileBase at h
      exact Nat.eq_of_mul_eq_mul_right (by decide) h
    have hfolder : p.toNat / folderMod = q.toNat / folderMod := by
      have hmul : folderMod = fileMod * 100 := rfl
      rw [hmul, ← Nat.div_div_eq_div_mul, ← Nat.div_div_eq_div_mul, hdiv]
    rw [getFilename_eq, getFilename_eq, h, hfolder]

/-- The file and the position in it determine the pulse. -/
theorem position_inj {detectorFolder moduleName : String} {p q : UInt64}
    (hfile : getFilename detectorFolder moduleName p = getFilename detectorFolder moduleName q)
    (hindex : (getFileFrameIndex p).toNat = (getFileFrameIndex q).toNat) : p = q := by
  have hbase := getFilename_inj.1 hfile
  apply UInt64.toNat_inj.1
  rw [← fileBase_add_index p, ← fileBase_add_index q, hbase, hindex]

theorem getFilename_ne_empty (detectorFolder moduleName : String) (p : UInt64) :
    getFilename detectorFolder moduleName p ≠ "" := by
  intro h
  rw [getFilename_eq] at h
  have hchars := congrArg String.toList h
  rw [String.toList_append, fileExtension_toList, String.toList_empty, List.append_eq_nil_iff] at hchars
  exact absurd hchars.2 (by decide)

theorem getFilename_ne_latest (detectorFolder moduleName : String) (p : UInt64) :
    getFilename detectorFolder moduleName p ≠ detectorFolder ++ "/" ++ moduleName ++ "/LATEST" := by
  intro h
  have hlatest : "/LATEST".toList = ['/', 'L', 'A', 'T', 'E', 'S', 'T'] := String.toList_ofList ..
  rw [getFilename_eq] at h
  have hlast := congrArg (fun s : String => s.toList.getLast?) h
  simp only [String.toList_append, fileExtension_toList, hlatest, List.getLast?_append, List.getLast?_cons_cons,
    List.getLast?_singleton, Option.some_or, Option.some.injEq] at hlast
  exact absurd hlast (by decide)

end SfDaqBuffer.CoreBuffer.BufferUtils
