import Mathlib.Algebra.Group.Nat.Defs
import Mathlib.Data.List.Basic

/-! Numbers as bytes, the least significant one first. -/

namespace Bytes

/-- The `k` lowest bytes of a number. -/
def leBytes : ℕ → ℕ → List UInt8
  | 0, _ => []
  | k + 1, v => UInt8.ofNat v :: leBytes k (v / 256)

def ofLe : List UInt8 → ℕ
  | [] => 0
  | b :: bs => b.toNat + 256 * ofLe bs

@[simp] theorem length_leBytes (k v : ℕ) : (leBytes k v).length = k := by
  induction k generalizing v with
  | zero => rfl
  | succ k ih => rw [leBytes, List.length_cons, ih]

theorem ofLe_leBytes {k v : ℕ} (h : v < 256 ^ k) : ofLe (leBytes k v) = v := by
  induction k generalizing v with
  | zero =>
    rw [Nat.pow_zero] at h
    exact (Nat.lt_one_iff.mp h).symm
  | succ k ih =>
    have hrest : v / 256 < 256 ^ k := Nat.div_lt_of_lt_mul (by rwa [Nat.pow_succ'] at h)
    rw [leBytes, ofLe, ih hrest, UInt8.toNat_ofNat']
    exact Nat.mod_add_div v 256

theorem leBytes_ofLe (bs : List UInt8) : leBytes bs.length (ofLe bs) = bs := by
  induction bs with
  | nil => rfl
  | cons b bs ih =>
    have hb : b.toNat < 256 := b.toNat_lt
    have hbyte : UInt8.ofNat (b.toNat + 256 * ofLe bs) = b := by
      refine UInt8.toNat_inj.mp ?_
      rw [UInt8.toNat_ofNat', Nat.add_mul_mod_self_left, Nat.mod_eq_of_lt hb]
    have hrest : (b.toNat + 256 * ofLe bs) / 256 = ofLe bs := by omega
    rw [List.length_cons, leBytes, ofLe, hbyte, hrest, ih]

theorem ofLe_lt (bs : List UInt8) : ofLe bs < 256 ^ bs.length := by
  induction bs with
  | nil => exact Nat.one_pos
  | cons b bs ih =>
    have hb : b.toNat < 256 := b.toNat_lt
    rw [ofLe, List.length_cons, Nat.pow_succ']
    omega

end Bytes
