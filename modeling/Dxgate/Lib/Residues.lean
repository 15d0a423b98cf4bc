import Mathlib.Data.List.Nodup
import Mathlib.Data.List.Perm.Subperm
import Mathlib.Data.Nat.ModEq
import Mathlib.Data.Nat.Prime.Basic
import Mathlib.Tactic.Ring

/-! # Residues of arithmetic progressions

Which residues modulo `n` a counter hits when it advances by a fixed stride: all of them once for a
stride coprime to `n`, half of them twice for stride two and even `n`. The last part is about a counter
of `w + 1` bits that may wrap on the way.
-/

namespace Residues

set_option autoImplicit false

theorem range_map_perm_of_injective {n : Nat} {f : Nat → Nat} (hLt : ∀ k < n, f k < n)
    (hInj : ∀ i < n, ∀ j < n, f i = f j → i = j) : ((List.range n).map f).Perm (List.range n) := by
  have hNodup : ((List.range n).map f).Nodup := by
    refine List.Nodup.map_on ?_ List.nodup_range
    intro i hi j hj
    exact hInj i (List.mem_range.mp hi) j (List.mem_range.mp hj)
  have hSub : (List.range n).map f ⊆ List.range n := by
    intro r hr
    obtain ⟨k, hk, rfl⟩ := List.mem_map.mp hr
    exact List.mem_range.mpr (hLt k (List.mem_range.mp hk))
  exact (List.subperm_of_subset hNodup hSub).perm_of_length_le (by simp)

theorem range_map_mod_perm {n stride : Nat} (start : Nat) (hPos : 0 < n) (hCoprime : n.Coprime stride) :
    ((List.range n).map fun k => (start + stride * k) % n).Perm (List.range n) := by
  refine range_map_perm_of_injective (fun k _ => Nat.mod_lt _ hPos) ?_
  intro i hi j hj hEq
  have hMul : stride * i ≡ stride * j [MOD n] := Nat.ModEq.add_left_cancel' start hEq
  have hMod : i ≡ j [MOD n] := Nat.ModEq.cancel_left_of_coprime hCoprime hMul
  exact hMod.eq_of_lt_of_lt hi hj

/-- With an even modulus, stride two visits the residues of one parity, each of them twice. -/
theorem range_map_mod_even_perm {h : Nat} (start : Nat) (hPos : 0 < h) :
    ((List.range (2 * h)).map fun k => (start + 2 * k) % (2 * h)).Perm
      ((List.range h).map (fun j => start % 2 + 2 * j) ++ (List.range h).map fun j => start % 2 + 2 * j) := by
  have hSplit (k : Nat) : (start + 2 * k) % (2 * h) = start % 2 + 2 * ((start / 2 + 1 * k) % h) := by
    rw [Nat.mod_mul, Nat.add_mul_mod_self_left, Nat.add_mul_div_left _ _ (by decide), Nat.one_mul]
  have hBlock (offset : Nat) :
      ((List.range h).map fun k => start % 2 + 2 * ((start / 2 + 1 * (offset * h + k)) % h)).Perm
        ((List.range h).map fun j => start % 2 + 2 * j) := by
    have hShift : ((List.range h).map fun k => start % 2 + 2 * ((start / 2 + 1 * (offset * h + k)) % h)) =
        ((List.range h).map fun k => (start / 2 + 1 * k) % h).map fun j => start % 2 + 2 * j := by
      rw [List.map_map]
      refine List.map_congr_left fun k _ => ?_
      have hTurn : start / 2 + 1 * (offset * h + k) = start / 2 + 1 * k + h * offset := by ring
      rw [hTurn, Nat.add_mul_mod_self_left]
      rfl
    rw [hShift]
    exact (range_map_mod_perm (start / 2) hPos (Nat.coprime_one_right h)).map _
  simp only [hSplit]
  rw [Nat.two_mul, List.range_add, List.map_append, List.map_map]
  refine List.Perm.append ?_ ?_
  · simpa using hBlock 0
  · simpa [Function.comp_def] using hBlock 1

theorem countP_range_interval (n : Nat) {lo hi : Nat} (h : lo ≤ hi) :
    (List.range n).countP (fun r => lo ≤ r ∧ r < hi) = min hi n - min lo n := by
  induction n with
  | zero => simp
  | succ n ih =>
    rw [List.range_succ, List.countP_append, ih, List.countP_singleton]
    split
    · rename_i hIn
      have hIn : lo ≤ n ∧ n < hi := by simpa using hIn
      omega
    · rename_i hOut
      have hOut : ¬ (lo ≤ n ∧ n < hi) := by simpa using hOut
      omega

/-! ## A counter that wraps -/

theorem exists_collision_of_wrap {q n a : Nat} (hPos : 1 < n) (hCoprime : q.Coprime n) (hLe : n ≤ q)
    (ha : a < 2 * q) (hWrap : 2 * q ≤ a + 2 * (n - 1)) :
    ∃ i j, i < j ∧ j < n ∧ (a + 2 * i) % (2 * q) % n = (a + 2 * j) % (2 * q) % n := by
  have hQuotient : n * (q / n) + q % n = q := Nat.div_add_mod q n
  have hLt : q % n < n := Nat.mod_lt q (by omega)
  have hNeZero : q % n ≠ 0 := by
    intro hZero
    have hDvd : n ∣ q := Nat.dvd_of_mod_eq_zero hZero
    have hOne : n = 1 := by
      have hGcd := Nat.Coprime.gcd_eq_one hCoprime
      rwa [Nat.gcd_eq_right hDvd] at hGcd
    omega
  -- The terms from `first` on have wrapped; the two that meet lie `q % n` apart, one on each side of it.
  obtain ⟨first, hFirst⟩ : ∃ first, first = q - a / 2 := ⟨_, rfl⟩
  obtain ⟨i, hi⟩ : ∃ i, i = first - q % n := ⟨_, rfl⟩
  have hBefore : a + 2 * i < 2 * q := by omega
  have hAfter : 2 * q ≤ a + 2 * (i + q % n) := by omega
  have hLast : i + q % n < n := by omega
  refine ⟨i, i + q % n, by omega, hLast, ?_⟩
  have hWrapped : (a + 2 * (i + q % n)) % (2 * q) = a + 2 * (i + q % n) - 2 * q := by
    rw [Nat.mod_eq_sub_mod hAfter, Nat.mod_eq_of_lt (by omega)]
  have hSum : a + 2 * i = a + 2 * (i + q % n) - 2 * q + n * (2 * (q / n)) := by
    have hDouble : n * (2 * (q / n)) = 2 * (n * (q / n)) := by ring
    omega
  rw [Nat.mod_eq_of_lt hBefore, hWrapped]
  conv_lhs => rw [hSum]
  exact Nat.add_mul_mod_self_left _ _ _

/-- A counter of `w + 1` bits that advances by two hits every residue modulo `n` once in `n` terms
exactly when `n` is odd and the counter does not wrap on the way. -/
theorem range_map_wrap_perm_iff (w : Nat) {n a : Nat} (hPos : 0 < n) (ha : a < 2 * 2 ^ w) :
    ((List.range n).map fun k => (a + 2 * k) % (2 * 2 ^ w) % n).Perm (List.range n) ↔
      n % 2 = 1 ∧ a + 2 * (n - 1) < 2 * 2 ^ w := by
  constructor
  · intro hPerm
    have hNodup : ((List.range n).map fun k => (a + 2 * k) % (2 * 2 ^ w) % n).Nodup :=
      hPerm.nodup_iff.mpr List.nodup_range
    have hDistinct : ∀ i j, i < j → j < n →
        (a + 2 * i) % (2 * 2 ^ w) % n ≠ (a + 2 * j) % (2 * 2 ^ w) % n := by
      intro i j hij hj hEq
      have hSame := List.inj_on_of_nodup_map hNodup (List.mem_range.mpr (by omega))
        (List.mem_range.mpr hj) hEq
      omega
    have hOdd : n % 2 = 1 := by
      by_contra hEven
      have hDvd : 2 ∣ n := by omega
      have hMem : 1 - a % 2 ∈ (List.range n).map fun k => (a + 2 * k) % (2 * 2 ^ w) % n :=
        hPerm.mem_iff.mpr (List.mem_range.mpr (by omega))
      obtain ⟨k, _, hk⟩ := List.mem_map.mp hMem
      have hParity : (a + 2 * k) % (2 * 2 ^ w) % n % 2 = a % 2 := by
        rw [Nat.mod_mod_of_dvd _ hDvd, Nat.mod_mod_of_dvd _ (Nat.dvd_mul_right 2 _)]
        omega
      omega
    refine ⟨hOdd, ?_⟩
    by_contra hWrap
    have hSome : ∃ i j, i < j ∧ j < n ∧
        (a + 2 * i) % (2 * 2 ^ w) % n = (a + 2 * j) % (2 * 2 ^ w) % n := by
      rcases Nat.lt_or_ge (2 ^ w) n with hLarge | hSmall
      · refine ⟨0, 2 ^ w, Nat.two_pow_pos w, hLarge, ?_⟩
        rw [Nat.add_mod_right, Nat.mul_zero, Nat.add_zero]
      · refine exists_collision_of_wrap (by omega) ?_ hSmall ha (by omega)
        exact Nat.Coprime.pow_left w (Nat.coprime_two_left.mpr (Nat.odd_iff.mpr hOdd))
    obtain ⟨i, j, hij, hj, hEq⟩ := hSome
    exact hDistinct i j hij hj hEq
  · rintro ⟨hOdd, hFits⟩
    have hEqual : ((List.range n).map fun k => (a + 2 * k) % (2 * 2 ^ w) % n) =
        (List.range n).map fun k => (a + 2 * k) % n := by
      refine List.map_congr_left fun k hk => ?_
      have hk := List.mem_range.mp hk
      rw [Nat.mod_eq_of_lt (show a + 2 * k < 2 * 2 ^ w by omega)]
    rw [hEqual]
    exact range_map_mod_perm a hPos (Nat.coprime_two_right.mpr (Nat.odd_iff.mpr hOdd))

end Residues
