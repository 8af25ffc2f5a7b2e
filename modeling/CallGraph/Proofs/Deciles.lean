import CallGraph.Proofs.Progress
import Mathlib.Algebra.Order.Floor.Div
import Mathlib.GroupTheory.GroupAction.Ring
import Mathlib.Data.List.Sort

/-!
No decile is lost on a large run: where one edge is at most one percent of a total, percentages grow by at
most one from edge to edge, and each of the ten deciles is told at its exact place.
-/
namespace CallGraph

/-- The share that an edge has in a total, where the product is not held. -/
theorem percentage_of_le {processed total : ℕ} (hprocessed : processed ≤ total)
    (hbound : 100 * total ≤ 2 ^ 64 - 1) : percentage processed total = 100 * processed / total := by
  rw [percentage_eq, Nat.min_eq_left]
  omega

/-- The milestone of a decile, counted from one: the least count that makes up so many tenths. -/
def decile (total k : ℕ) : Milestone :=
  ⟨10 * k, k * total ⌈/⌉ 10, total⟩

/-- A count makes up some tenths of a total just if it is not below their exact place. -/
theorem le_percentage_iff {p total k : ℕ} (htotal : 0 < total) (hp : p ≤ total)
    (hbound : 100 * total ≤ 2 ^ 64 - 1) :
    10 * k ≤ percentage p total ↔ k * total ⌈/⌉ 10 ≤ p := by
  rw [percentage_of_le hp hbound, Nat.le_div_iff_mul_le htotal, ceilDiv_le_iff_le_mul (by decide),
    Nat.mul_assoc]
  omega

theorem decile_place_le (total : ℕ) {k : ℕ} (hk : k ≤ 10) : k * total ⌈/⌉ 10 ≤ total := by
  rw [ceilDiv_le_iff_le_mul (by decide)]
  exact Nat.mul_le_mul_right total hk

theorem decile_place_pos {total k : ℕ} (htotal : 0 < total) (hk : 0 < k) : 0 < k * total ⌈/⌉ 10 := by
  by_contra hzero
  have hle := (ceilDiv_le_iff_le_mul (by decide)).mp (Nat.le_of_not_lt hzero)
  have hmul := Nat.mul_pos hk htotal
  omega

/-- One edge of a large total cannot pass over a decile. -/
theorem percentage_decile {total k : ℕ} (hlarge : 100 ≤ total) (hbound : 100 * total ≤ 2 ^ 64 - 1)
    (hk : k ≤ 10) : percentage (k * total ⌈/⌉ 10) total = 10 * k := by
  have hplace := decile_place_le total hk
  have hle : 10 * k ≤ percentage (k * total ⌈/⌉ 10) total :=
    (le_percentage_iff (by omega) hplace hbound).mpr le_rfl
  have hlt : percentage (k * total ⌈/⌉ 10) total < 10 * k + 1 := by
    rw [percentage_of_le hplace hbound, Nat.div_lt_iff_lt_mul (by omega), Nat.add_mul, Nat.mul_assoc,
      Nat.ceilDiv_eq_add_pred_div]
    omega
  omega

/-- Within a large total the first attained multiples of ten are the ten deciles, each at its place. -/
theorem attains_iff_decile {total p : ℕ} (hlarge : 100 ≤ total) (hbound : 100 * total ≤ 2 ^ 64 - 1)
    (hp : 0 < p) (hle : p ≤ total) :
    Attains total p ↔ ∃ k : ℕ, 1 ≤ k ∧ k ≤ 10 ∧ p = k * total ⌈/⌉ 10 := by
  have htotal : 0 < total := by omega
  constructor
  · rintro ⟨hpositive, ⟨k, hk⟩, hfirst⟩
    have hten : k ≤ 10 := by
      have hmono := percentage_mono total hle
      rw [(percentage_self_iff htotal).mpr hbound] at hmono
      omega
    have hplace : k * total ⌈/⌉ 10 ≤ p := (le_percentage_iff htotal hle hbound).mp (by omega)
    have hzero : 0 < k * total ⌈/⌉ 10 := decile_place_pos htotal (by omega)
    refine ⟨k, by omega, hten, ?_⟩
    by_contra hne
    exact hfirst _ hzero (by omega) ((percentage_decile hlarge hbound hten).trans hk.symm)
  · rintro ⟨k, hpos, hten, rfl⟩
    have hvalue := percentage_decile hlarge hbound hten
    refine ⟨by omega, ⟨k, hvalue⟩, ?_⟩
    intro q _ hq heq
    have hplace := (le_percentage_iff htotal (by omega) hbound).mp (le_of_eq (hvalue.symm.trans heq.symm))
    omega

theorem deciles_increasing (total n : ℕ) :
    ((List.range' 1 n).map (decile total)).Pairwise fun m m' => m.percentage < m'.percentage := by
  rw [List.pairwise_map]
  exact (List.pairwise_lt_range' 1).imp fun hlt => Nat.mul_lt_mul_of_pos_left hlt (by decide)

/-- Lists of ascending milestones with the same members are the same. -/
theorem eq_of_increasing {milestones others : List Milestone}
    (hincreasing : milestones.Pairwise fun m m' => m.percentage < m'.percentage)
    (hothers : others.Pairwise fun m m' => m.percentage < m'.percentage)
    (hmem : ∀ m, m ∈ milestones ↔ m ∈ others) : milestones = others := by
  have : Std.Irrefl fun m m' : Milestone => m.percentage < m'.percentage :=
    ⟨fun m => Nat.lt_irrefl m.percentage⟩
  have : Std.Antisymm fun m m' : Milestone => m.percentage < m'.percentage :=
    ⟨fun _ _ hlt hgt => absurd hgt (Nat.lt_asymm hlt)⟩
  exact hincreasing.eq_of_mem_iff hothers hmem

namespace Tracker

/-- A total of a hundred edges or more, whose hundredfold fits a count, is told ten deciles in order. Each
is told to the edge at its exact place, rounded up, and no other edge is told anything. -/
theorem deciles_of_large_total {total : ℕ} (hlarge : 100 ≤ total) (hbound : 100 * total ≤ 2 ^ 64 - 1) :
    ((start total).advanceMany total).1 = (List.range' 1 10).map (decile total) ∧
      ∀ p, 0 < p → p ≤ total → ∀ m, told total p = some m ↔
        ∃ k : ℕ, 1 ≤ k ∧ k ≤ 10 ∧ p = k * total ⌈/⌉ 10 ∧ m = decile total k := by
  have htotal : 0 < total := by omega
  have htold : ∀ p, 0 < p → p ≤ total → ∀ m, told total p = some m ↔
      ∃ k : ℕ, 1 ≤ k ∧ k ≤ 10 ∧ p = k * total ⌈/⌉ 10 ∧ m = decile total k := by
    intro p hp hle m
    rw [told_eq_some_iff htotal hp, attains_iff_decile hlarge hbound hp hle]
    constructor
    · rintro ⟨⟨k, hpos, hten, rfl⟩, rfl⟩
      exact ⟨k, hpos, hten, rfl, by rw [percentage_decile hlarge hbound hten]; rfl⟩
    · rintro ⟨k, hpos, hten, rfl, rfl⟩
      exact ⟨⟨k, hpos, hten, rfl⟩, by rw [percentage_decile hlarge hbound hten]; rfl⟩
  refine ⟨?_, htold⟩
  rw [advanceMany_start]
  refine eq_of_increasing (told_increasing htotal total) (deciles_increasing total 10) fun m => ?_
  rw [List.mem_filterMap, List.mem_map]
  constructor
  · rintro ⟨p, hp, hm⟩
    rw [List.mem_range'_1] at hp
    obtain ⟨k, hpos, hten, -, rfl⟩ := (htold p (by omega) (by omega) m).mp hm
    exact ⟨k, List.mem_range'_1.mpr (by omega), rfl⟩
  · rintro ⟨k, hk, rfl⟩
    rw [List.mem_range'_1] at hk
    have hplace : k * total ⌈/⌉ 10 ≤ total := decile_place_le total (by omega)
    have hpos : 0 < k * total ⌈/⌉ 10 := decile_place_pos htotal (by omega)
    exact ⟨k * total ⌈/⌉ 10, List.mem_range'_1.mpr (by omega),
      (htold _ hpos hplace _).mpr ⟨k, by omega, by omega, rfl, rfl⟩⟩

/-- Where the total is no multiple of ten, each place is rounded up. -/
theorem deciles_of_large_total_rounded :
    100 ≤ 103 ∧ 100 * 103 ≤ 2 ^ 64 - 1 ∧ ((start 103).advanceMany 103).1 =
      [⟨10, 11, 103⟩, ⟨20, 21, 103⟩, ⟨30, 31, 103⟩, ⟨40, 42, 103⟩, ⟨50, 52, 103⟩, ⟨60, 62, 103⟩,
        ⟨70, 73, 103⟩, ⟨80, 83, 103⟩, ⟨90, 93, 103⟩, ⟨100, 103, 103⟩] :=
  ⟨by decide, by decide, (deciles_of_large_total (by decide) (by decide)).1⟩

end Tracker
end CallGraph
