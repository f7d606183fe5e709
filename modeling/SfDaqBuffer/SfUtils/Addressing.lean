/-
Where a frame is in the buffer: the file name and the index in it determine the module and the pulse,
and the buffer writer, sf_writer and the Python reader compute the same ones.
-/
import SfDaqBuffer.BufferWriter.Main
import SfDaqBuffer.SfUtils.BinaryBufferReader
import SfDaqBuffer.SfWriter.Main

namespace SfDaqBuffer.SfUtils

open CoreBuffer

/-! ## Module names -/

/-- Both programs and the Python format pad the number of the module with zeros to two digits. -/
theorem padded_toList (n : Nat) : (if n < 10 then ['0'] else []) ++ n.repr.toList = n.repr.toList.leftpad 2 '0' := by
  have hone := Nat.length_repr_le_iff (n := n) (k := 1) (by decide)
  have hpos : 0 < n.repr.length := Nat.length_repr_pos
  rw [← String.length_toList] at hone hpos
  unfold List.leftpad
  by_cases h : n < 10
  · have hlen : n.repr.toList.length = 1 := by
      have hle := hone.2 (by omega)
      omega
    rw [if_pos h, hlen]
    rfl
  · have hlen : 2 - n.repr.toList.length = 0 := by
      have hlt : ¬ n.repr.toList.length ≤ 1 := fun hle => h (by have := hone.1 hle; omega)
      omega
    rw [if_neg h, hlen]
    rfl

theorem deviceName_toList (n : Nat) : (deviceName n).toList = 'M' :: n.repr.toList.leftpad 2 '0' := by
  have hm : "M".toList = ['M'] := String.toList_ofList ..
  unfold deviceName String.leftpad
  rw [String.toList_append, hm, String.toList_ofList]
  rfl

/-- `jf_buffer_writer` and the Python reader name a module alike. -/
theorem moduleName_eq (n : Nat) : BufferWriter.moduleName n = deviceName n := by
  have hm : "M".toList = ['M'] := String.toList_ofList ..
  have hzero : "0".toList = ['0'] := String.toList_ofList ..
  have hprefix : ((if (n : Int) < 10 then "0" else "") : String).toList = if n < 10 then ['0'] else [] := by
    by_cases h : n < 10
    · rw [if_pos h, if_pos (by omega), hzero]
    · rw [if_neg h, if_neg (by omega), String.toList_empty]
  apply String.toList_inj.1
  rw [deviceName_toList, ← padded_toList]
  unfold BufferWriter.moduleName
  simp only [String.toList_append, hm, hprefix]
  rfl

/-- So does `sf_writer`. -/
theorem sfWriter_moduleName_eq (n : Nat) : SfWriter.moduleName n = deviceName n := by
  have hm : "M".toList = ['M'] := String.toList_ofList ..
  have hzero : "0".toList = ['0'] := String.toList_ofList ..
  apply String.toList_inj.1
  rw [deviceName_toList, ← padded_toList]
  unfold SfWriter.moduleName
  by_cases h : n < 10
  · simp only [h, if_true, String.toList_append, hm, hzero]
    rfl
  · simp only [h, if_false, String.toList_append, hm]
    rfl

/-- The number is read back from the name. -/
theorem deviceName_inj {m n : Nat} : deviceName m = deviceName n ↔ m = n := by
  have hnumber : ∀ k : Nat, Nat.ofDigitChars 10 (k.repr.toList.leftpad 2 '0') 0 = k := by
    intro k
    unfold List.leftpad
    rw [Nat.ofDigitChars_append, Nat.ofDigitChars_replicate_zero, Nat.mul_zero, Nat.toList_repr,
      Nat.ofDigitChars_ten_toDigits]
  constructor
  · intro h
    have hchars := congrArg String.toList h
    rw [deviceName_toList, deviceName_toList] at hchars
    rw [← hnumber m, ← hnumber n, (List.cons.inj hchars).2]
  · rintro rfl
    rfl

theorem slash_notMem_deviceName (n : Nat) : '/' ∉ (deviceName n).toList := by
  rw [deviceName_toList]
  unfold List.leftpad
  rintro h
  rcases List.mem_cons.1 h with h | h
  · cases h
  · rcases List.mem_append.1 h with h | h
    · cases List.eq_of_mem_replicate h
    · exact BufferUtils.slash_notMem_repr n h

/-! ## Positions -/

/-- A list with a separator is cut at the first one. -/
theorem append_sep_inj {α : Type*} [DecidableEq α] {sep : α} {x x' z z' : List α} (hx : sep ∉ x) (hx' : sep ∉ x') :
    x ++ sep :: z = x' ++ sep :: z' ↔ x = x' ∧ z = z' := by
  have hfirst : ∀ {y : List α} (w : List α), sep ∉ y → (y ++ sep :: w).takeWhile (· ≠ sep) = y := by
    intro y w hy
    have hall : ∀ a ∈ y, decide (a ≠ sep) = true := fun a ha => decide_eq_true fun h => hy (h ▸ ha)
    rw [List.takeWhile_append_of_pos hall, List.takeWhile_cons_of_neg (by simp), List.append_nil]
  constructor
  · intro h
    have hsame : x = x' := by rw [← hfirst z hx, h, hfirst z' hx']
    subst hsame
    exact ⟨rfl, (List.cons.inj (List.append_cancel_left h)).2⟩
  · rintro ⟨rfl, rfl⟩
    rfl

/-- The file of a module determines the module. -/
theorem getFilename_module {detectorFolder : String} {m n : Nat} {p q : UInt64}
    (h : BufferUtils.getFilename detectorFolder (deviceName m) p = BufferUtils.getFilename detectorFolder (deviceName n) q) :
    m = n := by
  rw [BufferUtils.getFilename_eq, BufferUtils.getFilename_eq] at h
  have hchars := congrArg String.toList h
  simp only [String.toList_append, List.append_assoc, List.append_cancel_left_eq] at hchars
  rw [BufferUtils.slash_toList] at hchars
  simp only [List.singleton_append] at hchars
  obtain ⟨hname, -⟩ := (append_sep_inj (slash_notMem_deviceName m) (slash_notMem_deviceName n)).1 hchars
  exact deviceName_inj.1 (String.toList_inj.1 hname)

/-- The first pulse of the folder of a pulse. -/
def folderBase (pulseId : UInt64) : Nat := pulseId.toNat / folderMod * folderMod

/-- The folder of a pulse is that of its whole file. -/
theorem folderBase_of_fileBase {p q : UInt64} (h : BufferUtils.fileBase q = BufferUtils.fileBase p) :
    folderBase p ≤ q.toNat ∧ q.toNat < folderBase p + folderMod := by
  unfold BufferUtils.fileBase at h
  unfold folderBase
  simp only [fileMod, folderMod] at h ⊢
  omega

theorem getFilename_python (rootFolder deviceName : String) (p : UInt64) :
    getFilename rootFolder deviceName p.toNat = BufferUtils.getFilename rootFolder deviceName p := by
  rw [BufferUtils.getFilename_eq]
  rfl

theorem getFileFrameIndex_python (p : UInt64) :
    getFileFrameIndex p.toNat = (BufferUtils.getFileFrameIndex p).toNat := by
  have hsum := BufferUtils.fileBase_add_index p
  unfold getFileFrameIndex
  unfold BufferUtils.fileBase at hsum
  simp only
  omega

/-- File and index are those of one module and one pulse, the numbers in the path locate the pulse, and
all programs compute the same path and index. -/
theorem addressing (detectorFolder : String) (i j : Nat) (p q : UInt64) :
    ((BufferUtils.getFilename detectorFolder (BufferWriter.moduleName i) p, BufferUtils.getFileFrameIndex p) =
        (BufferUtils.getFilename detectorFolder (BufferWriter.moduleName j) q, BufferUtils.getFileFrameIndex q) ↔
      i = j ∧ p = q) ∧
    (BufferUtils.getFileFrameIndex p).toNat < fileMod ∧
    (BufferUtils.getFilename detectorFolder (BufferWriter.moduleName i) p =
        detectorFolder ++ "/" ++ BufferWriter.moduleName i ++ "/" ++ (folderBase p).repr ++ "/" ++
          (BufferUtils.fileBase p).repr ++ fileExtension ∧
      BufferUtils.fileBase p + (BufferUtils.getFileFrameIndex p).toNat = p.toNat ∧ folderMod ∣ folderBase p ∧
      ∀ r, BufferUtils.getFilename detectorFolder (BufferWriter.moduleName i) r =
          BufferUtils.getFilename detectorFolder (BufferWriter.moduleName i) p →
        folderBase p ≤ r.toNat ∧ r.toNat < folderBase p + folderMod) ∧
    SfWriter.moduleName i = BufferWriter.moduleName i ∧ deviceName i = BufferWriter.moduleName i ∧
    getFilename detectorFolder (deviceName i) p.toNat =
      BufferUtils.getFilename detectorFolder (BufferWriter.moduleName i) p ∧
    getFileFrameIndex p.toNat = (BufferUtils.getFileFrameIndex p).toNat := by
  rw [moduleName_eq, moduleName_eq]
  refine ⟨⟨fun h => ?_, ?_⟩, BufferUtils.getFileFrameIndex_lt p,
    ⟨BufferUtils.getFilename_eq .., BufferUtils.fileBase_add_index p, Nat.dvd_mul_left .., fun r hr => ?_⟩,
    sfWriter_moduleName_eq i, rfl, getFilename_python .., getFileFrameIndex_python p⟩
  · obtain ⟨hfile, hindex⟩ := Prod.mk.inj h
    have hmodule := getFilename_module hfile
    subst hmodule
    exact ⟨rfl, BufferUtils.position_inj hfile (congrArg UInt64.toNat hindex)⟩
  · rintro ⟨rfl, rfl⟩
    rfl
  · exact folderBase_of_fileBase (BufferUtils.getFilename_inj.1 hr)

end SfDaqBuffer.SfUtils
