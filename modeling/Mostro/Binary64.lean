import Mathlib.Algebra.Order.Field.Power
import Mathlib.Data.Rat.Floor
import Mathlib.Tactic.Linarith
import Mathlib.Tactic.Ring

set_option autoImplicit false

/-!
Arithmetic in binary64.  A number is the rational it stands for; a result is rounded to 53
significant bits, to nearest with ties to even.  There are no infinities: a cast to `i64` saturates
long before the exponent could overflow.
-/

namespace Binary64

def twoPow (e : Int) : ℚ :=
  if 0 ≤ e then ((2 ^ e.toNat : Nat) : ℚ) else 1 / ((2 ^ (-e).toNat : Nat) : ℚ)

def leading (q : ℚ) : Int :=
  let e : Int := (q.num.natAbs.log2 : Int) - q.den.log2
  if |q| < twoPow e then e - 1 else e

/-- The exponent of the last bit; below `2^-1022` it no longer falls. -/
def last (q : ℚ) : Int := max (leading q - 52) (-1074)

def roundHalfEven (q : ℚ) : Int :=
  let rest := q - q.floor
  if rest < 1 / 2 ∨ rest = 1 / 2 ∧ q.floor % 2 = 0 then q.floor else q.floor + 1

def toF64 (q : ℚ) : ℚ :=
  if q = 0 then 0 else roundHalfEven (q / twoPow (last q)) * twoPow (last q)

def mul (a b : ℚ) : ℚ := toF64 (toF64 a * toF64 b)

def div (a b : ℚ) : ℚ := toF64 (toF64 a / toF64 b)

/-- `f64::round`: halves go away from zero. -/
def round (q : ℚ) : Int :=
  if 0 ≤ q then (q + 1 / 2).floor else -(-q + 1 / 2).floor

def toI64 (n : Int) : Int := max (-2 ^ 63) (min n (2 ^ 63 - 1))

def trunc (q : ℚ) : Int := toI64 (if 0 ≤ q then q.floor else -(-q).floor)

theorem twoPow_eq (e : Int) : twoPow e = (2 : ℚ) ^ e := by
  unfold twoPow
  split
  next h =>
    obtain ⟨n,rfl⟩ := Int.eq_ofNat_of_zero_le h
    simp
  next h =>
    obtain ⟨n,hn⟩ := Int.eq_ofNat_of_zero_le (show 0 ≤ -e by omega)
    obtain rfl : e = -(n : Int) := by omega
    simp

theorem twoPow_pos (e : Int) : 0 < twoPow e := by
  rw [twoPow_eq]
  positivity

theorem twoPow_le {a b : Int} : twoPow a ≤ twoPow b ↔ a ≤ b := by
  rw [twoPow_eq,twoPow_eq]
  exact zpow_le_zpow_iff_right₀ (by norm_num)

theorem twoPow_lt {a b : Int} : twoPow a < twoPow b ↔ a < b := by
  rw [twoPow_eq,twoPow_eq]
  exact zpow_lt_zpow_iff_right₀ (by norm_num)

theorem twoPow_add (a b : Int) : twoPow (a + b) = twoPow a * twoPow b := by
  rw [twoPow_eq,twoPow_eq,twoPow_eq]
  exact zpow_add₀ (by norm_num) a b

theorem twoPow_natCast (n : Nat) : twoPow n = ((2 ^ n : Nat) : ℚ) := by
  simp [twoPow_eq]

theorem twoPow_log2_le {n : Nat} (h : n ≠ 0) : twoPow n.log2 ≤ (n : ℚ) := by
  rw [twoPow_natCast]
  exact_mod_cast Nat.log2_self_le h

theorem lt_twoPow_log2 (n : Nat) : (n : ℚ) < twoPow (n.log2 + 1) := by
  have hpow := twoPow_natCast (n.log2 + 1)
  push_cast at hpow
  rw [hpow]
  exact_mod_cast Nat.lt_log2_self

theorem leading_bounds {q : ℚ} (hq : q ≠ 0) :
    twoPow (leading q) ≤ |q| ∧ |q| < twoPow (leading q + 1) := by
  set a := q.num.natAbs with ha
  set e : Int := (a.log2 : Int) - q.den.log2 with he
  have hpos : 0 < |q| := abs_pos.mpr hq
  have hab : |q| * q.den = (a : ℚ) := by
    rw [ha,Nat.cast_natAbs,Int.cast_abs,← Rat.mul_den_eq_num q,abs_mul,Nat.abs_cast]
  have hlow : twoPow (e - 1) < |q| := by
    have hmul : twoPow (e - 1) * twoPow (q.den.log2 + 1) = twoPow a.log2 := by
      rw [← twoPow_add]
      congr 1
      omega
    refine lt_of_mul_lt_mul_right ?_ (twoPow_pos (q.den.log2 + 1)).le
    calc twoPow (e - 1) * twoPow (q.den.log2 + 1) = twoPow a.log2 := hmul
      _ ≤ a := twoPow_log2_le (by simpa [ha] using hq)
      _ = |q| * q.den := hab.symm
      _ < |q| * twoPow (q.den.log2 + 1) := mul_lt_mul_of_pos_left (lt_twoPow_log2 _) hpos
  have hup : |q| < twoPow (e + 1) := by
    have hmul : twoPow (e + 1) * twoPow q.den.log2 = twoPow (a.log2 + 1) := by
      rw [← twoPow_add]
      congr 1
      omega
    refine lt_of_mul_lt_mul_right ?_ (twoPow_pos q.den.log2).le
    calc |q| * twoPow q.den.log2 ≤ |q| * q.den :=
          mul_le_mul_of_nonneg_left (twoPow_log2_le q.den_nz) hpos.le
      _ = a := hab
      _ < twoPow (a.log2 + 1) := lt_twoPow_log2 a
      _ = twoPow (e + 1) * twoPow q.den.log2 := hmul.symm
  unfold leading
  dsimp only
  split
  next h => exact ⟨hlow.le,by simpa using h⟩
  next h => exact ⟨not_lt.mp h,hup⟩

theorem roundHalfEven_bounds (q : ℚ) :
    q.floor ≤ roundHalfEven q ∧ roundHalfEven q ≤ q.floor + 1 := by
  unfold roundHalfEven
  dsimp only
  split <;> omega

theorem roundHalfEven_int (n : Int) : roundHalfEven n = n := by
  simp [roundHalfEven]

theorem roundHalfEven_le {q : ℚ} {n : Int} (h : q ≤ n) : roundHalfEven q ≤ n := by
  have hfloor : (q.floor : ℚ) ≤ q := Rat.floor_le q
  rcases (show q.floor ≤ n by exact_mod_cast hfloor.trans h).lt_or_eq with hlt | heq
  · exact (roundHalfEven_bounds q).2.trans hlt
  · have hq : q = n := le_antisymm h (heq ▸ hfloor)
    rw [hq,roundHalfEven_int]

theorem toF64_int {n : Int} (h0 : 0 < n) (h : leading n ≤ 52) : toF64 n = n := by
  have hne : (n : ℚ) ≠ 0 := by exact_mod_cast h0.ne'
  have hlead : 0 ≤ leading n := by
    by_contra hneg
    have hlt := (leading_bounds hne).2.trans_le (twoPow_le.mpr (show leading n + 1 ≤ 0 by omega))
    have hone : twoPow 0 = 1 := by decide +kernel
    rw [hone,abs_of_pos (by exact_mod_cast h0)] at hlt
    exact absurd (by exact_mod_cast hlt) (not_lt.mpr (show 1 ≤ n by omega))
  obtain ⟨k,hk⟩ := Int.eq_ofNat_of_zero_le (show 0 ≤ -last n by unfold last; omega)
  have hlast : last n = -(k : Int) := by omega
  have hunit : (n : ℚ) / twoPow (last n) = ((n * 2 ^ k : Int) : ℚ) := by
    rw [hlast,twoPow_eq,zpow_neg]
    push_cast
    field_simp
    simp
  rw [toF64,if_neg hne,hunit,roundHalfEven_int,← hunit]
  exact div_mul_cancel₀ _ (twoPow_pos _).ne'

theorem toF64_le_multiple {x : ℚ} {m : Int} (hx : x ≠ 0) (h : x ≤ m * twoPow (last x)) :
    toF64 x ≤ m * twoPow (last x) := by
  have hunit := twoPow_pos (last x)
  have hround : (roundHalfEven (x / twoPow (last x)) : ℚ) ≤ m := by
    exact_mod_cast roundHalfEven_le ((div_le_iff₀ hunit).mpr h)
  rw [toF64,if_neg hx]
  gcongr

theorem toF64_le {x : ℚ} (hx : x ≠ 0) : toF64 x ≤ twoPow (last x + 53) := by
  have hlast : leading x + 1 ≤ last x + 53 := by unfold last; omega
  have hpow : twoPow (last x + 53) = ((2 ^ 53 : Int) : ℚ) * twoPow (last x) := by
    rw [twoPow_add,mul_comm,show twoPow 53 = ((2 ^ 53 : Int) : ℚ) by decide +kernel]
  rw [hpow]
  refine toF64_le_multiple hx ?_
  rw [← hpow]
  exact (le_abs_self x).trans ((leading_bounds hx).2.le.trans (twoPow_le.mpr hlast))

/-- A rounded number is a multiple of every power of two up to the weight of its last bit. -/
theorem toF64_multiple {x : ℚ} {e : Int} (hx : x ≠ 0) (h : e ≤ last x) :
    ∃ m : Int, toF64 x = m * twoPow e := by
  obtain ⟨j,hj⟩ := Int.eq_ofNat_of_zero_le (show 0 ≤ last x - e by omega)
  have hsum : twoPow (last x) = ((2 ^ j : Nat) : ℚ) * twoPow e := by
    rw [← twoPow_natCast,← twoPow_add]
    congr 1
    omega
  refine ⟨roundHalfEven (x / twoPow (last x)) * 2 ^ j,?_⟩
  rw [toF64,if_neg hx]
  nth_rewrite 2 [hsum]
  push_cast
  ring

theorem floor_le_of_lt {n : Int} {x : ℚ} (hn : 0 < n) (h : ((toF64 x).floor : ℚ) < toF64 n) :
    (toF64 x).floor ≤ n := by
  by_cases hsmall : leading n ≤ 52
  · rw [toF64_int hn hsmall] at h
    exact_mod_cast h.le
  by_contra hgt
  rw [not_le] at hgt
  have hpos : (0 : ℚ) < n := by exact_mod_cast hn
  have hy : (n : ℚ) < toF64 x := lt_of_lt_of_le (by exact_mod_cast hgt) (Rat.floor_le _)
  have hxne : x ≠ 0 := fun h => by simp [toF64,h] at hy; linarith
  -- the last bit of the number weighs at least what that of the integer does
  have hlast : last n = leading n - 52 := by unfold last; omega
  have hbits : last n ≤ last x := by
    have hlow := (leading_bounds hpos.ne').1
    rw [abs_of_pos hpos] at hlow
    have := twoPow_lt.mp ((hlow.trans_lt hy).trans_le (toF64_le hxne))
    omega
  -- so the number is a multiple of that weight, and the integer is rounded to at most the number
  obtain ⟨m,hm⟩ := toF64_multiple hxne hbits
  obtain ⟨i,hi⟩ := Int.eq_ofNat_of_zero_le (show 0 ≤ last n by omega)
  have hint : toF64 x = ((m * 2 ^ i : Int) : ℚ) := by
    rw [hm,hi,twoPow_natCast]
    push_cast
    ring
  have hle : toF64 n ≤ toF64 x := hm ▸ toF64_le_multiple hpos.ne' (hm ▸ hy.le)
  rw [hint,Rat.floor_intCast,← hint] at h
  exact absurd h (not_lt.mpr hle)

end Binary64
