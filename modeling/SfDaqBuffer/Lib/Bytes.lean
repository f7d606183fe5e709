/-
Little-endian bytes of unsigned words, and the byte image of a record of 64-bit words. Both are
read back exactly, so a record stored in byte memory is the record that is loaded from it.
-/
import Mathlib.Tactic

namespace SfDaqBuffer.Bytes

/-! ## Naturals -/

/-- Byte `j` of `n`, the least significant first. -/
def byteAt (n j : Nat) : UInt8 := UInt8.ofNat (n / 256 ^ j)

/-- The natural with the `k` little-endian bytes `b 0, …, b (k - 1)`. -/
def ofBytes : (k : Nat) → (Nat → UInt8) → Nat
  | 0, _ => 0
  | k + 1, b => (b 0).toNat + 256 * ofBytes k (fun j => b (j + 1))

theorem byteAt_toNat (n j : Nat) : (byteAt n j).toNat = n / 256 ^ j % 256 := by
  unfold byteAt; exact UInt8.toNat_ofNat' ..

theorem byteAt_succ (n j : Nat) : byteAt n (j + 1) = byteAt (n / 256) j := by
  unfold byteAt
  rw [Nat.pow_succ', Nat.div_div_eq_div_mul]

theorem ofBytes_byteAt (k n : Nat) : ofBytes k (byteAt n) = n % 256 ^ k := by
  induction k generalizing n with
  | zero => simp [ofBytes, Nat.mod_one]
  | succ k ih =>
    have hs : (fun j => byteAt n (j + 1)) = byteAt (n / 256) := funext (byteAt_succ n)
    rw [ofBytes, hs, ih, byteAt_toNat, Nat.pow_zero, Nat.div_one, Nat.pow_succ', Nat.mod_mul]

theorem ofBytes_congr {k : Nat} {b b' : Nat → UInt8} (h : ∀ j < k, b j = b' j) :
    ofBytes k b = ofBytes k b' := by
  induction k generalizing b b' with
  | zero => rfl
  | succ k ih =>
    rw [ofBytes, ofBytes, h 0 (by omega), ih fun j hj => h (j + 1) (by omega)]

/-! ## Records of 64-bit words -/

/-- The bytes of `k` consecutive 64-bit words. -/
def ofWords {k : Nat} (w : Fin k → UInt64) : Fin (8 * k) → UInt8 :=
  fun i => byteAt (w ⟨i / 8, by omega⟩).toNat (i % 8)

/-- Word `i` of `k` consecutive 64-bit words in memory. -/
def toWords {k : Nat} (b : Fin (8 * k) → UInt8) : Fin k → UInt64 :=
  fun i => UInt64.ofNat (ofBytes 8 fun j => if h : 8 * (i : Nat) + j < 8 * k then b ⟨_, h⟩ else 0)

/-- The words of a record are read back from its bytes. -/
@[simp] theorem toWords_ofWords {k : Nat} (w : Fin k → UInt64) : toWords (ofWords w) = w := by
  funext i
  have hb : ofBytes 8 (fun j => if h : 8 * (i : Nat) + j < 8 * k then ofWords w ⟨_, h⟩ else 0) =
      ofBytes 8 (byteAt (w i).toNat) := by
    refine ofBytes_congr fun j hj => ?_
    have hi := i.2
    rw [dif_pos (by omega)]
    have hdiv : (8 * (i : Nat) + j) / 8 = i := by omega
    have hmod : (8 * (i : Nat) + j) % 8 = j := by omega
    unfold ofWords
    simp only [hdiv, hmod]
  unfold toWords
  rw [hb, ofBytes_byteAt, Nat.mod_eq_of_lt (by have := (w i).toNat_lt; omega)]
  exact UInt64.ofNat_toNat

theorem ofBytes_zero (k : Nat) : ofBytes k (fun _ => 0) = 0 := by
  induction k with
  | zero => rfl
  | succ k ih => rw [ofBytes, ih]; rfl

/-- Zeroed memory holds zero words. -/
@[simp] theorem toWords_zero {k : Nat} : toWords (fun _ : Fin (8 * k) => 0) = fun _ => 0 := by
  funext i
  unfold toWords
  simp only [dite_eq_ite, ite_self, ofBytes_zero]
  rfl

end SfDaqBuffer.Bytes
