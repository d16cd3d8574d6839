import Mathlib.Data.List.Basic
import Mathlib.Data.List.Induction
import Mathlib.Tactic.Positivity

namespace MusicRemote.Foundation.Bytes

def bigEndian (bytes : List UInt8) : ℕ := bytes.foldl (fun n b ↦ 256 * n + b.toNat) 0

def toBigEndian : ℕ → ℕ → List UInt8
  | 0, _ => []
  | width + 1, n => toBigEndian width (n / 256) ++ [UInt8.ofNat n]

theorem bigEndian_concat (bytes : List UInt8) (b : UInt8) :
    bigEndian (bytes ++ [b]) = 256 * bigEndian bytes + b.toNat := by
  simp only [bigEndian, List.foldl_append, List.foldl_cons, List.foldl_nil]

theorem length_toBigEndian (width n : ℕ) : (toBigEndian width n).length = width := by
  induction width generalizing n with
  | zero => rfl
  | succ width ih => simp only [toBigEndian, List.length_append, ih, List.length_singleton]

theorem bigEndian_toBigEndian (width n : ℕ) :
    bigEndian (toBigEndian width n) = n % 256 ^ width := by
  induction width generalizing n with
  | zero => simp [toBigEndian, bigEndian, Nat.mod_one]
  | succ width ih =>
    rw [toBigEndian, bigEndian_concat, ih, Nat.pow_succ', Nat.mod_mul, UInt8.toNat_ofNat']
    omega

theorem toBigEndian_bigEndian (bytes : List UInt8) :
    toBigEndian bytes.length (bigEndian bytes) = bytes := by
  induction bytes using List.reverseRecOn with
  | nil => rfl
  | append_singleton bytes b ih =>
    have hb := b.toNat_lt
    have hdiv : (256 * bigEndian bytes + b.toNat) / 256 = bigEndian bytes := by omega
    rw [bigEndian_concat, List.length_append, List.length_singleton, toBigEndian, hdiv, ih]
    congr 2
    apply UInt8.toNat_inj.mp
    rw [UInt8.toNat_ofNat']
    omega

theorem bigEndian_lt (bytes : List UInt8) : bigEndian bytes < 256 ^ bytes.length := by
  have h := bigEndian_toBigEndian bytes.length (bigEndian bytes)
  rw [toBigEndian_bigEndian] at h
  exact h ▸ Nat.mod_lt _ (by positivity)

end MusicRemote.Foundation.Bytes
