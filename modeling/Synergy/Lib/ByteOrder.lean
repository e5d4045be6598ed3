import Mathlib.Data.List.Induction
import Mathlib.Tactic.Ring

/-! Unsigned integers as a fixed number of bytes, most significant byte first,
and the numbers such bytes spell. -/
namespace Synergy.Lib

/-- The low `w` bytes of `n`, most significant first. -/
def bigEndian : Nat → Nat → List UInt8
  | 0, _ => []
  | w + 1, n => UInt8.ofNat (n >>> (8 * w)) :: bigEndian w n

/-- The number that bytes spell, most significant first. -/
def ofBigEndian (bs : List UInt8) : Nat := bs.foldl (fun n b => n * 256 + b.toNat) 0

@[simp] theorem length_bigEndian (w n : Nat) : (bigEndian w n).length = w := by
  induction w with
  | zero => rfl
  | succ w ih => simp [bigEndian, ih]

private theorem foldl_bigEndian (w n a : Nat) :
    (bigEndian w n).foldl (fun n b => n * 256 + b.toNat) a = a * 256 ^ w + n % 256 ^ w := by
  induction w generalizing a with
  | zero => simp [bigEndian, Nat.mod_one]
  | succ w ih =>
    have hp : 2 ^ (8 * w) = 256 ^ w := by rw [Nat.pow_mul]
    have hb : (UInt8.ofNat (n >>> (8 * w))).toNat = n / 256 ^ w % 256 := by
      rw [UInt8.toNat_ofNat', Nat.shiftRight_eq_div_pow, hp]
    rw [bigEndian, List.foldl_cons, ih, hb, Nat.pow_succ, Nat.mod_mul]
    ring

/-- Reading bytes back gives the number reduced to their width. -/
theorem ofBigEndian_bigEndian (w n : Nat) : ofBigEndian (bigEndian w n) = n % 256 ^ w := by
  simp [ofBigEndian, foldl_bigEndian]

theorem ofBigEndian_bigEndian_of_lt {w n : Nat} (h : n < 256 ^ w) : ofBigEndian (bigEndian w n) = n := by
  rw [ofBigEndian_bigEndian, Nat.mod_eq_of_lt h]

/-- Only the number reduced to their width makes a difference to the bytes. -/
theorem bigEndian_mod (w n : Nat) : bigEndian w (n % 256 ^ w) = bigEndian w n := by
  have hcongr : ∀ {v m : Nat}, m % 256 ^ v = n % 256 ^ v → bigEndian v m = bigEndian v n := by
    intro v
    induction v with
    | zero => exact fun _ => rfl
    | succ v ih =>
      intro m h
      have hp : 2 ^ (8 * v) = 256 ^ v := by rw [Nat.pow_mul]
      have htop : m / 256 ^ v % 256 = n / 256 ^ v % 256 := by
        rw [← Nat.mod_mul_right_div_self, ← Nat.mod_mul_right_div_self, ← Nat.pow_succ, h]
      have hrest : m % 256 ^ v = n % 256 ^ v := by
        have hdvd : 256 ^ v ∣ 256 ^ (v + 1) := Nat.pow_dvd_pow 256 (Nat.le_succ v)
        rw [← Nat.mod_mod_of_dvd m hdvd, h, Nat.mod_mod_of_dvd n hdvd]
      rw [bigEndian, bigEndian, ih hrest, List.cons.injEq, ← UInt8.toNat_inj, UInt8.toNat_ofNat', UInt8.toNat_ofNat',
        Nat.shiftRight_eq_div_pow, Nat.shiftRight_eq_div_pow, hp]
      exact ⟨htop, rfl⟩
  exact hcongr (Nat.mod_mod _ _)

theorem ofBigEndian_append_byte (bs : List UInt8) (b : UInt8) :
    ofBigEndian (bs ++ [b]) = ofBigEndian bs * 256 + b.toNat := by
  simp [ofBigEndian]

theorem ofBigEndian_lt (bs : List UInt8) : ofBigEndian bs < 256 ^ bs.length := by
  induction bs using List.reverseRecOn with
  | nil => simp [ofBigEndian]
  | append_singleton bs b ih =>
    have hb := b.toNat_lt
    rw [ofBigEndian_append_byte, List.length_append, List.length_singleton, Nat.pow_succ]
    omega

end Synergy.Lib

/-! Unsigned integers as a fixed number of bytes, least significant byte first. -/
namespace Synergy.Lib

/-- The low `w` bytes of `n`, least significant first. -/
def littleEndian (w n : Nat) : List UInt8 := (bigEndian w n).reverse

/-- The number that bytes spell, least significant first. -/
def ofLittleEndian (bs : List UInt8) : Nat := ofBigEndian bs.reverse

@[simp] theorem length_littleEndian (w n : Nat) : (littleEndian w n).length = w := by
  simp [littleEndian]

theorem ofLittleEndian_littleEndian (w n : Nat) : ofLittleEndian (littleEndian w n) = n % 256 ^ w := by
  rw [ofLittleEndian, littleEndian, List.reverse_reverse, ofBigEndian_bigEndian]

theorem ofLittleEndian_lt (bs : List UInt8) : ofLittleEndian bs < 256 ^ bs.length := by
  have h := ofBigEndian_lt bs.reverse
  rwa [List.length_reverse] at h

theorem littleEndian_succ (w n : Nat) : littleEndian (w + 1) n = UInt8.ofNat n :: littleEndian w (n >>> 8) := by
  have hlast : bigEndian (w + 1) n = bigEndian w (n >>> 8) ++ [UInt8.ofNat n] := by
    induction w with
    | zero => simp [bigEndian]
    | succ w ih =>
      have hshift : n >>> (8 * (w + 1)) = n >>> 8 >>> (8 * w) := by
        rw [← Nat.shiftRight_add, Nat.mul_succ, Nat.add_comm]
      rw [bigEndian, ih, hshift]
      rfl
  rw [littleEndian, hlast, List.reverse_append]
  rfl

theorem littleEndian_append (w v n : Nat) :
    littleEndian (w + v) n = littleEndian w n ++ littleEndian v (n >>> (8 * w)) := by
  induction w generalizing n with
  | zero => simp [littleEndian, bigEndian]
  | succ w ih =>
    have hshift : n >>> 8 >>> (8 * w) = n >>> (8 * (w + 1)) := by
      rw [← Nat.shiftRight_add, Nat.mul_succ, Nat.add_comm]
    rw [Nat.add_right_comm, littleEndian_succ, ih, littleEndian_succ, hshift]
    rfl

theorem ofLittleEndian_cons (b : UInt8) (bs : List UInt8) :
    ofLittleEndian (b :: bs) = ofLittleEndian bs * 256 + b.toNat := by
  rw [ofLittleEndian, List.reverse_cons, ofBigEndian_append_byte, ← ofLittleEndian]

/-- The bytes of the number that bytes spell are those bytes. -/
theorem littleEndian_ofLittleEndian (bs : List UInt8) : littleEndian bs.length (ofLittleEndian bs) = bs := by
  induction bs with
  | nil => rfl
  | cons b bs ih =>
    have hb := b.toNat_lt
    have hlow : UInt8.ofNat (ofLittleEndian bs * 256 + b.toNat) = b := by
      rw [← UInt8.toNat_inj, UInt8.toNat_ofNat']
      omega
    have hhigh : (ofLittleEndian bs * 256 + b.toNat) >>> 8 = ofLittleEndian bs := by
      rw [Nat.shiftRight_eq_div_pow]
      omega
    rw [List.length_cons, ofLittleEndian_cons, littleEndian_succ, hlow, hhigh, ih]

end Synergy.Lib
